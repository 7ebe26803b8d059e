import H264.Proofs.Bits.Closed

/-!
# Calls of a writer and the reads that mirror them

A writer takes calls one after the other and refuses those whose values do not fit; what it refuses
leaves it as it was. Each call has a read that mirrors it, the same field in the same width, so that
what was written can be gone through again in the same order, also over the zeros that fill up a
byte.

* `perform_of_accepted`, `perform_of_not_accepted` — what one call does;
* `toNat_bits_run` — the number of a writer is that of the bits it has counted;
* `mirrorAll_run` — what the mirrored reads of a run of calls do;
* **`mirrored_calls_read_back`** — the calls that were taken are read back up to the close, and more
  is found to be left just as long as one of their bits is unread.
-/

namespace H264

namespace Writer

/-! ## Calls -/

/-- A call of a writer. -/
inductive Call
  | bits (width value : Int)
  | flag (value : Bool)
  | u8 (value : Int)
  | signed (width value : Int)
  | ue (value : Int)
  | se (value : Int)
  | align
deriving DecidableEq, Repr

namespace Call

/-- What a call does. -/
def perform (w : Writer) : Call → Except Misuse Writer
  | bits width value => w.fixed width value
  | flag value => w.flag value
  | u8 value => w.u8 value
  | signed width value => w.signed width value
  | ue value => w.ue value
  | se value => w.se value
  | align => .ok w.align

/-- The values that a call may have. -/
def Accepted : Call → Prop
  | bits width value => 0 ≤ width ∧ 0 ≤ value ∧ value < 2 ^ width.toNat
  | flag _ => True
  | u8 value => 0 ≤ value ∧ value < 256
  | signed width value =>
    1 ≤ width ∧ -2 ^ (width.toNat - 1) ≤ value ∧ value < 2 ^ (width.toNat - 1)
  | ue value => 0 ≤ value ∧ value ≤ 2 ^ 32 - 2
  | se value => -(2 ^ 31 - 1) ≤ value ∧ value ≤ 2 ^ 31 - 1
  | align => True

instance : DecidablePred Accepted := fun call => by
  cases call <;> unfold Accepted <;> infer_instance

/-- The field of a call has a width that can be read. -/
def Readable : Call → Prop
  | bits width _ | signed width _ => width ≤ Read.maxWidth
  | _ => True

instance : DecidablePred Readable := fun call => by
  cases call <;> unfold Readable <;> infer_instance

/-- The read that mirrors a call, with the call that has the value read. -/
def mirror (name : String) : Call → Read Call
  | bits width _ => return bits width (← Read.bits width.toNat name)
  | flag _ => return flag (← Read.flag name)
  | u8 _ => return u8 (← Read.u8 name)
  | signed width _ => return signed width (← Read.signed width.toNat name)
  | ue _ => return ue (← Read.ue name)
  | se _ => return se (← Read.se name)
  | align => do
    Read.align
    return align

/-- The element that a call writes, unless it only fills up a byte. -/
def element? : Call → Option Element
  | bits width value => some (.u width value)
  | flag value => some (.flag value)
  | u8 value => some (.u 8 value)
  | signed width value => some (.i width value)
  | ue value => some (.ue value)
  | se value => some (.se value)
  | align => none

/-- The bits that a call appends to some number of bits. -/
def codeword (written : Nat) (call : Call) : List Bool :=
  match call.element? with
  | some element => element.codeword
  | none => List.replicate ((8 - written % 8) % 8) false

end Call

/-- The writer after a call; one that is refused leaves it as it was. -/
def after (w : Writer) (call : Call) : Writer :=
  match call.perform w with
  | .ok longer => longer
  | .error _ => w

/-- The writer after some calls. -/
def run (w : Writer) (calls : List Call) : Writer :=
  calls.foldl after w

/-- The reads that mirror some calls, one after the other. -/
def mirrorAll (name : String) : List Call → Read (List Call)
  | [] => return []
  | call :: calls => do
    let first ← call.mirror name
    return first :: (← mirrorAll name calls)

/-! ## One call -/

namespace Call

theorem accepted_iff_fits {call : Call} {element : Element} (h : call.element? = some element) :
    call.Accepted ↔ element.Fits := by
  cases call with
  | bits width value =>
    cases h
    -- elements have shifts of one as bounds
    have hwidth := Codeword.natCast_one_shiftLeft width.toNat
    show 0 ≤ width ∧ 0 ≤ value ∧ value < 2 ^ width.toNat ↔
      0 ≤ width ∧ 0 ≤ value ∧ value.toNat < 1 <<< width.toNat
    omega
  | flag value =>
    cases h
    exact ⟨fun _ => by cases value <;> decide, fun _ => trivial⟩
  | u8 value =>
    cases h
    show 0 ≤ value ∧ value < 256 ↔ (0 : Int) ≤ 8 ∧ 0 ≤ value ∧ value.toNat < 256
    omega
  | signed width value =>
    cases h
    have hhalf := Codeword.natCast_one_shiftLeft (width.toNat - 1)
    show 1 ≤ width ∧ -2 ^ (width.toNat - 1) ≤ value ∧ value < 2 ^ (width.toNat - 1) ↔
      0 < width ∧ -((1 <<< (width.toNat - 1) : Nat) : Int) ≤ value ∧
        value < ((1 <<< (width.toNat - 1) : Nat) : Int)
    rw [hhalf]
    rfl
  | ue value =>
    cases h
    exact Iff.rfl
  | se value =>
    cases h
    exact Codeword.fits_se_iff.symm
  | align => cases h

theorem perform_eq_write {call : Call} {element : Element} (h : call.element? = some element)
    (w : Writer) : call.perform w = element.write w := by
  cases call with
  | align => cases h
  | bits | flag | u8 | signed | ue | se =>
    cases h
    rfl

theorem perform_of_accepted (w : Writer) {call : Call} (h : call.Accepted) :
    call.perform w = .ok (w.append (call.codeword w.length)) := by
  unfold codeword
  cases helement : call.element? with
  | some element =>
    rw [perform_eq_write helement, Element.write_of_fits w ((accepted_iff_fits helement).mp h)]
  | none =>
    cases call with
    | align => exact congrArg Except.ok w.align_eq_append
    | _ => cases helement

theorem perform_of_not_accepted (w : Writer) {call : Call} (h : ¬call.Accepted) :
    ∃ cause, call.perform w = .error cause := by
  cases helement : call.element? with
  | some element =>
    rw [perform_eq_write helement]
    exact Element.write_of_not_fits w fun hfits => h ((accepted_iff_fits helement).mpr hfits)
  | none =>
    cases call with
    | align => exact absurd trivial h
    | _ => cases helement

/-- A reader that stands where the writer stood takes just the bits of the call. -/
theorem mirror_of_rest (name : String) {call : Call} (haccepted : call.Accepted)
    (hreadable : call.Readable) {r : Reader} {tail : List Bool}
    (hrest : r.rest = call.codeword r.pos ++ tail) :
    call.mirror name r = .ok call (r.advance (call.codeword r.pos).length) := by
  cases call with
  | bits width value =>
    obtain ⟨hwidth, hvalue, hlt⟩ := haccepted
    have hmax : width.toNat ≤ Read.maxWidth := by
      have : width ≤ Read.maxWidth := hreadable
      omega
    have hfits : value.toNat < 2 ^ width.toNat := by
      have hcast : ((2 ^ width.toNat : Nat) : Int) = 2 ^ width.toNat := by push_cast; rfl
      omega
    have hread := (Reads.bits width.toNat value.toNat name hmax hfits).map fun read : Nat =>
      bits width read
    rw [Int.toNat_of_nonneg hvalue] at hread
    exact hread r tail hrest
  | flag value =>
    have hbits : (flag value).codeword r.pos = [value] := Element.codeword_flag value
    rw [hbits] at hrest ⊢
    exact (Reads.flag name value).map flag r tail hrest
  | u8 value =>
    obtain ⟨hvalue, hlt⟩ := haccepted
    have hread := (Reads.bits 8 value.toNat name (by decide) (by omega)).map fun read : Nat =>
      u8 read
    rw [Int.toNat_of_nonneg hvalue] at hread
    exact hread r tail hrest
  | signed width value =>
    obtain ⟨hwidth, hleast, hgreatest⟩ := haccepted
    have hmax : width.toNat ≤ Read.maxWidth := by
      have : width ≤ Read.maxWidth := hreadable
      omega
    exact (Reads.signed name (by omega) hmax hleast hgreatest).map (signed width) r tail hrest
  | ue value =>
    obtain ⟨hvalue, hle⟩ := haccepted
    have hcode : value.toNat ≤ Codeword.maxCodeNumber := by
      have hmost : (Codeword.maxCodeNumber : Int) = 2 ^ 32 - 2 := rfl
      omega
    have hread := (Reads.ue name hcode).map fun read : Nat => ue read
    rw [Int.toNat_of_nonneg hvalue] at hread
    exact hread r tail hrest
  | se value =>
    exact (Reads.se name (Codeword.fits_se_iff.mpr haccepted)).map se r tail hrest
  | align =>
    have hcount : (align.codeword r.pos).length = (8 - r.pos % 8) % 8 := List.length_replicate
    rw [hcount]
    exact bind_of_ok (Read.align_eq r) _

end Call

theorem after_of_accepted (w : Writer) {call : Call} (h : call.Accepted) :
    w.after call = w.append (call.codeword w.length) := by
  unfold after
  rw [Call.perform_of_accepted w h]

theorem after_of_not_accepted (w : Writer) {call : Call} (h : ¬call.Accepted) :
    w.after call = w := by
  obtain ⟨cause, hrefused⟩ := Call.perform_of_not_accepted w h
  unfold after
  rw [hrefused]

/-! ## Runs of calls -/

theorem run_append (w : Writer) (front back : List Call) :
    w.run (front ++ back) = (w.run front).run back :=
  List.foldl_append

/-- No call leaves more in the number of a writer than the bits that it counts. -/
theorem toNat_bits_run {w : Writer} (h : Bits.toNat w.bits = w.value) (calls : List Call) :
    Bits.toNat (w.run calls).bits = (w.run calls).value := by
  induction calls generalizing w with
  | nil => exact h
  | cons call calls ih =>
    refine ih ?_
    by_cases hcall : call.Accepted
    · rw [after_of_accepted w hcall]
      exact toNat_bits_append h _
    · rwa [after_of_not_accepted w hcall]

/-- Nothing that was written is taken back. -/
theorem prefix_run (w : Writer) (calls : List Call) : w.bits <+: (w.run calls).bits := by
  induction calls generalizing w with
  | nil => exact List.prefix_rfl
  | cons call calls ih =>
    refine List.IsPrefix.trans ?_ (ih (w.after call))
    by_cases h : call.Accepted
    · rw [after_of_accepted w h, bits_append]
      exact List.prefix_append _ _
    · have hsame := after_of_not_accepted w h
      exact ⟨[], by rw [hsame, List.append_nil]⟩

/-- Where the data has what a call that is taken leaves, its mirrored read gives it back, and goes
from where the writer stood to where it stands now. -/
theorem mirror_after (name : String) {data : Bytes} (w : Writer) {call : Call} (h : call.Accepted)
    (hreadable : call.Readable) (hdata : (w.after call).bits <+: Bytes.bits data) :
    call.mirror name (.ofPos data w.length) = .ok call (.ofPos data (w.after call).length) := by
  rw [after_of_accepted w h] at hdata ⊢
  rw [bits_append] at hdata
  obtain ⟨tail, hbits⟩ := hdata
  have hrest : (Reader.ofPos data w.length).rest =
      call.codeword (Reader.ofPos data w.length).pos ++ tail := by
    rw [Reader.pos_ofPos, Reader.rest_ofPos, ← hbits, List.append_assoc, ← w.length_bits,
      List.drop_left]
  have hread := Call.mirror_of_rest name h hreadable hrest
  rwa [Reader.advance, Reader.pos_ofPos] at hread

/-- Where the data has what was written, the mirrored reads give the calls that were taken, and the
reader goes from where the writer stood before them to where it stood after. -/
theorem mirrorAll_run (name : String) {data : Bytes} {w : Writer} {calls : List Call}
    (hreadable : ∀ call ∈ calls, call.Accepted → call.Readable)
    (hdata : (w.run calls).bits <+: Bytes.bits data) :
    mirrorAll name (calls.filter (·.Accepted)) (.ofPos data w.length) =
      .ok (calls.filter (·.Accepted)) (.ofPos data (w.run calls).length) := by
  induction calls generalizing w with
  | nil => rfl
  | cons call calls ih =>
    obtain ⟨hfirst, hothers⟩ := List.forall_mem_cons.mp hreadable
    by_cases h : call.Accepted
    · have hnext := (prefix_run (w.after call) calls).trans hdata
      rw [List.filter_cons_of_pos (by simpa using h), mirrorAll,
        bind_of_ok (mirror_after name w h (hfirst h) hnext), bind_of_ok (ih hothers hdata)]
      rfl
    · have hsame : w.run (call :: calls) = w.run calls :=
        congrArg (run · calls) (after_of_not_accepted w h)
      rw [List.filter_cons_of_neg (by simpa using h), hsame]
      rw [hsame] at hdata
      exact ih hothers hdata

/-! ## The close -/

/-- A closed writer is read to its end just when all that was written before the close is. -/
theorem hasMore_trailing_iff (w : Writer) (pos : Nat) :
    (Reader.ofPos w.trailing.toBytes pos).hasMore = true ↔ pos < w.length := by
  obtain ⟨count, hbits⟩ := w.exists_bits_trailing 0
  rw [List.replicate_zero, List.append_nil] at hbits
  rw [Reader.hasMore_eq, Reader.rest_ofPos, List.drop_drop, hbits, List.drop_append,
    List.any_append, w.length_bits]
  by_cases hpos : pos < w.length
  · have hstop : pos + 1 - w.length = 0 := by omega
    rw [hstop, List.drop_zero, List.any_cons]
    simp [hpos]
  · have hpast : pos + 1 - w.length = pos - w.length + 1 := by omega
    have hnone : w.bits.drop (pos + 1) = [] := by
      refine List.drop_eq_nil_of_le ?_
      rw [length_bits]
      omega
    rw [hpast, List.drop_succ_cons, hnone, List.drop_replicate, List.any_replicate]
    simp [hpos]

theorem finishRbsp_trailing (w : Writer) :
    ∃ closed, Read.finishRbsp (.ofPos w.trailing.toBytes w.length) = .ok ⟨⟩ closed ∧
      closed.bitsLeft = 0 := by
  obtain ⟨count, hbits⟩ := w.exists_bits_trailing 0
  rw [List.replicate_zero, List.append_nil] at hbits
  have hrest : (Reader.ofPos w.trailing.toBytes w.length).rest =
      true :: List.replicate count false := by
    rw [Reader.rest_ofPos, hbits, ← w.length_bits, List.drop_left]
  exact Read.finishRbsp_of_rest hrest

theorem prefix_bits_trailing (w : Writer) : w.bits <+: Bytes.bits w.trailing.toBytes := by
  obtain ⟨count, hbits⟩ := w.exists_bits_trailing 0
  rw [List.replicate_zero, List.append_nil] at hbits
  rw [hbits]
  exact List.prefix_append _ _

/-! ## Whole sequences -/

/-- **Calls are read back as they were taken.** A call is taken just if its value fits its field,
and then it appends its bits; a call that is refused leaves the writer as it was. The number that a
writer holds after any calls is the one that the bits written make. After any calls and the close,
the reads that mirror the calls taken so far give just these calls and stop where the writer stood
after them; more is left just as long as not all that the calls have written is read, and then the
close takes all that is left. -/
theorem mirrored_calls_read_back (name : String) (calls : List Call) :
    let written := run {} calls
    let data := written.trailing.toBytes
    (∀ (w : Writer) (call : Call),
      (call.Accepted → call.perform w = .ok (w.append (call.codeword w.length)) ∧
        (w.after call).bits = w.bits ++ call.codeword w.length) ∧
      (¬call.Accepted → ∃ cause, call.perform w = .error cause ∧ w.after call = w)) ∧
    Bits.toNat written.bits = written.value ∧
    (∀ front back, calls = front ++ back →
      (∀ call ∈ front, call.Accepted → call.Readable) →
      mirrorAll name (front.filter (·.Accepted)) { data } =
        .ok (front.filter (·.Accepted)) (.ofPos data (run {} front).length)) ∧
    (∀ pos, (Reader.ofPos data pos).hasMore = true ↔ pos < written.length) ∧
    ∃ closed, Read.finishRbsp (.ofPos data written.length) = .ok ⟨⟩ closed ∧
      closed.bitsLeft = 0 := by
  intro written data
  refine ⟨fun w call => ⟨fun h => ⟨Call.perform_of_accepted w h, ?_⟩, fun h => ?_⟩,
    toNat_bits_run rfl calls, ?_, hasMore_trailing_iff written, finishRbsp_trailing written⟩
  · rw [after_of_accepted w h, bits_append]
  · obtain ⟨cause, hrefused⟩ := Call.perform_of_not_accepted w h
    exact ⟨cause, hrefused, after_of_not_accepted w h⟩
  · rintro front back rfl hreadable
    have hfront : (run {} front).bits <+: Bytes.bits data := by
      refine List.IsPrefix.trans ?_ (prefix_bits_trailing written)
      show _ <+: (run {} (front ++ back)).bits
      rw [run_append]
      exact prefix_run _ back
    exact mirrorAll_run name hreadable hfront

/-- Calls of every kind, the greatest and least values among them, and two that are refused. -/
def mixedCalls : List Call :=
  [.bits 3 5, .ue 4294967294, .signed 5 (-16), .bits 2 4, .align, .se (-2147483647), .ue (-1),
    .flag true, .u8 255, .signed 32 (-2147483648), .bits 0 0]

theorem mirrored_calls_read_back_mixedCalls :
    (∀ call ∈ mixedCalls, call.Accepted → call.Readable) ∧
      let data := (run {} mixedCalls).trailing.toBytes
      mirrorAll "field" [.bits 3 5, .ue 4294967294, .signed 5 (-16), .align, .se (-2147483647),
          .flag true, .u8 255, .signed 32 (-2147483648), .bits 0 0] { data } =
        .ok [.bits 3 5, .ue 4294967294, .signed 5 (-16), .align, .se (-2147483647), .flag true,
          .u8 255, .signed 32 (-2147483648), .bits 0 0]
          (.ofPos data (run {} mixedCalls).length) := by
  have hreadable : ∀ call ∈ mixedCalls, call.Accepted → call.Readable := by decide
  exact ⟨hreadable,
    (mirrored_calls_read_back "field" mixedCalls).2.2.1 mixedCalls [] (List.append_nil _).symm
      hreadable⟩

end Writer

end H264
