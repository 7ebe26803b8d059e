import H264.Nal.Unit
import H264.Proofs.Rbsp.Search

/-!
# Unescaping as a scan

A range of a buffer is decoded by reading its payload once from left to right, with no more in mind
than the number of zeros just read. **Main statement** (`range_decoded_by_scan`): what a range
decodes to is what the scan of its payload gives; a search for the hits gives the same; the decoding
fails exactly where an illegal sequence begins, and reports the first of them; and it depends on the
bytes of the range only, the offsets in errors moving with the range.
-/

namespace H264

namespace Rbsp

/-! ## The scan -/

/-- Escaped bytes read one by one, the next of them at `offset` and just after `zeros` zeros: three
zeros are illegal, the 3 after two zeros is dropped unless a byte above 3 follows, and any other
byte is copied. -/
def scan : (offset zeros : Nat) → Bytes → Except Error Bytes
  | _, _, [] => .ok []
  | offset, zeros, byte :: rest =>
    if zeros = 2 ∧ byte = 0 then .error (.escape (offset - 2 : Nat) .threeZeros)
    else if zeros = 2 ∧ byte = escapeByte then
      match wrongNext? rest with
      | some next => .error (.escape offset (.escapeBefore next))
      | none => scan (offset + 1) 0 rest
    else ([byte] ++ ·) <$> scan (offset + 1) (if byte = 0 then zeros + 1 else 0) rest

/-- A byte that ends no sequence of interest is copied, with the zeros before it. -/
theorem unescape_zeros_cons (offset : Nat) {zeros : Nat} (hzeros : zeros ≤ 2) {byte : UInt8}
    (hbyte : byte ≠ 0) (hescape : zeros = 2 → byte ≠ 3) (rest : Bytes) :
    unescape offset (List.replicate zeros 0 ++ byte :: rest) =
      ((List.replicate zeros 0 ++ [byte]) ++ ·) <$> unescape (offset + zeros + 1) rest := by
  have hfirst (offset : Nat) : unescape offset (byte :: rest) =
      ([byte] ++ ·) <$> unescape (offset + 1) rest := by
    refine unescape_cons offset ?_ ?_
    · simp [hbyte.symm]
    · simp [hbyte.symm]
  have hsecond (offset : Nat) : unescape offset (0 :: byte :: rest) =
      ([0] ++ ·) <$> unescape (offset + 1) (byte :: rest) := by
    refine unescape_cons offset ?_ ?_
    · simp [hbyte.symm]
    · simp [hbyte.symm]
  match zeros, hzeros with
  | 0, _ => exact hfirst offset
  | 1, _ =>
    show unescape offset (0 :: byte :: rest) = _
    rw [hsecond, hfirst, Functor.map_map]
    rfl
  | 2, _ =>
    have hthird : unescape offset (0 :: 0 :: byte :: rest) =
        ([0] ++ ·) <$> unescape (offset + 1) (0 :: byte :: rest) := by
      refine unescape_cons offset ?_ ?_
      · simp [hbyte.symm]
      · simp [(hescape rfl).symm]
    show unescape offset (0 :: 0 :: byte :: rest) = _
    rw [hthird, hsecond, hfirst, Functor.map_map, Functor.map_map]
    rfl

/-- **Scan invariant.** Unescaping from some zeros on is a scan that has counted them. -/
theorem unescape_zeros_append (offset : Nat) {zeros : Nat} (hzeros : zeros ≤ 2) (rest : Bytes) :
    unescape offset (List.replicate zeros 0 ++ rest) =
      (List.replicate zeros 0 ++ ·) <$> scan (offset + zeros) zeros rest := by
  induction rest generalizing offset zeros with
  | nil =>
    match zeros, hzeros with
    | 0, _ => rfl
    | 1, _ => rfl
    | 2, _ => rfl
  | cons byte rest ih =>
    -- behind a byte that is not zero the count begins anew
    have hanew (offset : Nat) : unescape offset rest = scan offset 0 rest := by
      simpa using ih offset (Nat.zero_le 2)
    unfold scan
    by_cases hthree : zeros = 2 ∧ byte = 0
    · obtain ⟨rfl, rfl⟩ := hthree
      rw [if_pos ⟨rfl, rfl⟩]
      exact unescape_three_zeros offset rest
    rw [if_neg hthree]
    by_cases hescape : zeros = 2 ∧ byte = escapeByte
    · obtain ⟨rfl, rfl⟩ := hescape
      rw [if_pos ⟨rfl, rfl⟩]
      cases hnext : wrongNext? rest with
      | some next =>
        obtain ⟨later, rfl, hhigh⟩ := wrongNext?_eq_some_iff.mp hnext
        exact unescape_escape_before offset hhigh later
      | none =>
        show unescape offset (0 :: 0 :: 3 :: rest) = _
        rw [unescape_escape offset hnext, hanew]
        rfl
    rw [if_neg hescape]
    by_cases hbyte : byte = 0
    · -- one more zero is counted
      subst hbyte
      have hmore : List.replicate zeros 0 ++ 0 :: rest = List.replicate (zeros + 1) 0 ++ rest := by
        rw [List.replicate_succ', List.append_assoc]
        rfl
      have hfew : zeros ≠ 2 := fun htwo => hthree ⟨htwo, rfl⟩
      have hcount : zeros + 1 ≤ 2 := by omega
      rw [hmore, ih offset hcount, if_pos rfl, Functor.map_map, Nat.add_assoc]
      simp only [List.replicate_succ', List.append_assoc]
    · have hthird : zeros = 2 → byte ≠ 3 := fun htwo hthree => hescape ⟨htwo, hthree⟩
      rw [if_neg hbyte, unescape_zeros_cons offset hzeros hbyte hthird, Functor.map_map, hanew]
      simp only [List.append_assoc]

/-- Unescaping is a scan. -/
theorem unescape_eq_scan (offset : Nat) (bytes : Bytes) :
    unescape offset bytes = scan offset 0 bytes := by
  simpa using unescape_zeros_append offset (Nat.zero_le 2) bytes

/-! ## Illegal sequences -/

/-- An illegal sequence begins at `place`, and is reported at `reported`: three zeros at the first
of them, an escape before a byte above 3 at its 3. -/
inductive FaultAt (bytes : Bytes) (place : Nat) : (reported : Nat) → EscapeFault → Prop
  | threeZeros (h : [0, 0, 0] <+: bytes.drop place) : FaultAt bytes place place .threeZeros
  | escapeBefore (next : UInt8) (h : [0, 0, 3, next] <+: bytes.drop place) (hnext : 3 < next) :
    FaultAt bytes place (place + 2) (.escapeBefore next)

/-- No illegal sequence begins before `place`. -/
def LegalBefore (bytes : Bytes) (place : Nat) : Prop :=
  ∀ earlier < place, ∀ reported fault, ¬FaultAt bytes earlier reported fault

namespace FaultAt

variable {bytes front back : Bytes} {place reported : Nat} {fault : EscapeFault}

theorem reported_ge (h : FaultAt bytes place reported fault) : place ≤ reported := by
  cases h with
  | threeZeros => exact le_rfl
  | escapeBefore => omega

/-- Illegal sequences move with what stands before them. -/
theorem append_iff (front : Bytes) :
    FaultAt (front ++ back) (front.length + place) (front.length + reported) fault ↔
      FaultAt back place reported fault := by
  have hdrop : (front ++ back).drop (front.length + place) = back.drop place := by
    rw [← List.drop_drop, List.drop_left]
  constructor
  · intro h
    generalize hmoved : front.length + reported = moved at h
    cases h with
    | threeZeros h =>
      obtain rfl : reported = place := by omega
      exact .threeZeros (hdrop ▸ h)
    | escapeBefore next h hnext =>
      obtain rfl : reported = place + 2 := by omega
      exact .escapeBefore next (hdrop ▸ h) hnext
  · rintro (h | ⟨next, h, hnext⟩)
    · exact .threeZeros (hdrop ▸ h)
    · exact .escapeBefore next (hdrop ▸ h) hnext

/-- An illegal sequence that does not begin in front begins behind. -/
theorem exists_behind (front : Bytes) (h : FaultAt (front ++ back) place reported fault)
    (hfront : LegalBefore (front ++ back) front.length) :
    ∃ later reported', place = front.length + later ∧ reported = front.length + reported' ∧
      FaultAt back later reported' fault := by
  have hplace : front.length ≤ place := by
    by_contra hbefore
    exact hfront place (by omega) reported fault h
  have hreported := h.reported_ge
  obtain ⟨later, rfl⟩ := Nat.exists_eq_add_of_le hplace
  obtain ⟨reported', rfl⟩ := Nat.exists_eq_add_of_le (hplace.trans hreported)
  exact ⟨later, reported', rfl, rfl, (append_iff front).mp h⟩

end FaultAt

/-- What is legal so far is so behind any part of it. -/
theorem LegalBefore.behind (front : Bytes) {back : Bytes} {place : Nat}
    (h : LegalBefore (front ++ back) (front.length + place)) : LegalBefore back place := by
  intro earlier hearlier reported fault hfault
  exact h _ (Nat.add_lt_add_left hearlier _) _ _ ((FaultAt.append_iff front).mpr hfault)

theorem legalBefore_escape {rest : Bytes} (hnext : wrongNext? rest = none) :
    LegalBefore ([0, 0, 3] ++ rest) 3 := by
  intro earlier hearlier reported fault h
  match earlier, hearlier with
  | 0, _ =>
    cases h with
    | threeZeros h => simp at h
    | escapeBefore next h hhigh =>
      have hrest : [next] <+: rest := by simpa using h
      obtain ⟨later, rfl⟩ := hrest
      exact absurd (wrongNext?_eq_none_iff.mp hnext next rfl) (UInt8.not_le.mpr hhigh)
  | 1, _ | 2, _ =>
    cases h with
    | threeZeros h => simp at h
    | escapeBefore next h => simp at h

theorem legalBefore_cons {byte : UInt8} {rest : Bytes} (hzeros : ¬[0, 0, 0] <+: byte :: rest)
    (hescape : ¬[0, 0, 3] <+: byte :: rest) : LegalBefore ([byte] ++ rest) 1 := by
  intro earlier hearlier reported fault h
  obtain rfl : earlier = 0 := by omega
  cases h with
  | threeZeros h => exact hzeros h
  | escapeBefore next h hnext => exact hescape (.trans ⟨[next], rfl⟩ h)

/-- The first illegal sequence is the error of unescaping. -/
theorem unescape_of_first (offset : Nat) {bytes : Bytes} {place reported : Nat}
    {fault : EscapeFault} (h : FaultAt bytes place reported fault)
    (hfirst : LegalBefore bytes place) :
    unescape offset bytes = .error (.escape (offset + reported : Nat) fault) := by
  induction bytes using unescape_induction generalizing offset place reported with
  | nil =>
    cases h with
    | threeZeros h => simp at h
    | escapeBefore next h => simp at h
  | threeZeros rest =>
    have hzeros : FaultAt (0 :: 0 :: 0 :: rest) 0 0 .threeZeros := .threeZeros ⟨rest, rfl⟩
    obtain rfl : place = 0 := by
      by_contra hplace
      exact hfirst 0 (by omega) 0 .threeZeros hzeros
    cases h with
    | threeZeros => exact unescape_three_zeros offset rest
    | escapeBefore next h => simp at h
  | escapeBefore next rest hnext =>
    have hescape : FaultAt (0 :: 0 :: 3 :: next :: rest) 0 2 (.escapeBefore next) :=
      .escapeBefore next ⟨rest, rfl⟩ hnext
    obtain rfl : place = 0 := by
      by_contra hplace
      exact hfirst 0 (by omega) 2 _ hescape
    cases h with
    | threeZeros h => simp at h
    | escapeBefore next' h =>
      obtain rfl : next' = next := by simpa using h
      exact unescape_escape_before offset hnext rest
  | escape rest hnext ih =>
    obtain ⟨later, reported, rfl, rfl, hrest⟩ :=
      FaultAt.exists_behind [0, 0, 3] h (legalBefore_escape hnext)
    rw [unescape_escape offset hnext, ih (offset + 3) hrest (.behind [0, 0, 3] hfirst),
      Nat.add_assoc]
    rfl
  | copy byte rest hzeros hescape ih =>
    obtain ⟨later, reported, rfl, rfl, hrest⟩ :=
      FaultAt.exists_behind [byte] h (legalBefore_cons hzeros hescape)
    rw [unescape_cons offset hzeros hescape, ih (offset + 1) hrest (.behind [byte] hfirst),
      Nat.add_assoc]
    rfl

/-- Bytes with no illegal sequence can be unescaped. -/
theorem exists_unescape_of_legal (offset : Nat) {bytes : Bytes}
    (h : ∀ place, LegalBefore bytes place) : ∃ payload, unescape offset bytes = .ok payload := by
  induction bytes using unescape_induction generalizing offset with
  | nil => exact ⟨[], rfl⟩
  | threeZeros rest => exact absurd (.threeZeros ⟨rest, rfl⟩) (h 1 0 Nat.one_pos 0 .threeZeros)
  | escapeBefore next rest hnext =>
    exact absurd (.escapeBefore next ⟨rest, rfl⟩ hnext) (h 1 0 Nat.one_pos 2 (.escapeBefore next))
  | escape rest hnext ih =>
    obtain ⟨payload, hpayload⟩ := ih (offset + 3) fun place => .behind [0, 0, 3] (h (3 + place))
    exact ⟨[0, 0] ++ payload, by rw [unescape_escape offset hnext, hpayload]; rfl⟩
  | copy byte rest hzeros hescape ih =>
    obtain ⟨payload, hpayload⟩ := ih (offset + 1) fun place => .behind [byte] (h (1 + place))
    exact ⟨[byte] ++ payload, by rw [unescape_cons offset hzeros hescape, hpayload]; rfl⟩

/-- Unescaping succeeds where no illegal sequence begins, and there only. -/
theorem exists_unescape_iff (offset : Nat) (bytes : Bytes) :
    (∃ payload, unescape offset bytes = .ok payload) ↔ ∀ place, LegalBefore bytes place := by
  constructor
  · rintro ⟨payload, hpayload⟩ place
    induction place with
    | zero => exact nofun
    | succ place ih =>
      intro earlier hearlier reported fault hfault
      by_cases hlast : earlier = place
      · subst hlast
        rw [unescape_of_first offset hfault ih] at hpayload
        cases hpayload
      · exact ih earlier (by omega) reported fault hfault
  · exact exists_unescape_of_legal offset

end Rbsp

/-! ## Offsets -/

/-- An error where the place that it reports has moved. -/
def Error.movedBy (distance : Int) : Error → Error
  | .escape offset fault => .escape (offset + distance) fault
  | error => error

theorem Error.movedBy_escape {first second : Nat} {distance : Int}
    (h : (second : Int) = first + distance) (fault : EscapeFault) :
    Error.movedBy distance (.escape first fault) = .escape second fault := by
  rw [movedBy, h]

namespace Rbsp

/-- The offsets in errors move with the bytes, and payloads stay. -/
theorem unescape_moved (first second : Nat) (bytes : Bytes) :
    unescape second bytes = (unescape first bytes).mapError (Error.movedBy (second - first)) := by
  induction bytes using unescape_induction generalizing first second with
  | nil => rfl
  | threeZeros rest =>
    rw [unescape_three_zeros, unescape_three_zeros, Except.mapError, Error.movedBy_escape]
    omega
  | escapeBefore next rest hnext =>
    rw [unescape_escape_before _ hnext, unescape_escape_before _ hnext, Except.mapError,
      Error.movedBy_escape]
    omega
  | escape rest hnext ih =>
    have hdistance : ((second + 3 : Nat) : Int) - (first + 3 : Nat) = second - first := by omega
    rw [unescape_escape _ hnext, unescape_escape _ hnext, ih (first + 3), hdistance]
    cases unescape (first + 3) rest <;> rfl
  | copy byte rest hzeros hescape ih =>
    have hdistance : ((second + 1 : Nat) : Int) - (first + 1 : Nat) = second - first := by omega
    rw [unescape_cons _ hzeros hescape, unescape_cons _ hzeros hescape, ih (first + 1), hdistance]
    cases unescape (first + 1) rest <;> rfl

/-! ## Ranges of a buffer -/

/-- How many bytes of a range are skipped before its payload, if it begins with `bytes`: where the
first byte tells, four for the types 14, 20 and 21 and one for any other type. -/
def skipped (bytes : Bytes) : HeaderLength → Nat
  | .fixed count => count
  | .byType =>
    match bytes with
    | [] => 0
    | byte :: _ => if byte.toNat % 32 ∈ [14, 20, 21] then 4 else 1

/-- Where the payload of a range begins. -/
def payloadStart (buffer : Bytes) (start stop : Nat) (header : HeaderLength) : Nat :=
  min (start + skipped (buffer.extract start stop) header) stop

theorem headerLength_ofByte (byte : UInt8) :
    (UnitType.ofByte byte).headerLength = if byte.toNat % 32 ∈ [14, 20, 21] then 4 else 1 := by
  have h : ∀ low < 32,
      (UnitType.ofCode low).headerLength = if low ∈ [14, 20, 21] then 4 else 1 := by decide
  rw [UnitType.ofByte, ← UnitType.ofCode_mod, h _ (Nat.mod_lt _ (by decide))]

theorem headerBytes_eq_skipped (unit : NalUnit) (header : HeaderLength) :
    unit.headerBytes header = skipped unit.bytes header := by
  obtain ⟨start, bytes⟩ := unit
  match header, bytes with
  | .fixed count, _ => rfl
  | .byType, [] => rfl
  | .byType, byte :: _ => exact headerLength_ofByte byte

variable {buffer : Bytes} {start stop : Nat}

/-- A range inside a buffer is a unit. -/
theorem ofRange_extract (hstart : start ≤ stop) (hstop : stop ≤ buffer.length) :
    NalUnit.ofRange buffer start stop = .ok { start, bytes := buffer.extract start stop } := by
  have hinside : (0 : Int) ≤ start ∧ (start : Int) ≤ stop ∧ (stop : Int) ≤ buffer.length := by
    omega
  rw [NalUnit.ofRange, if_pos hinside, List.extract_eq_take_drop]
  rfl

theorem rbspAfter_extract (hstart : start ≤ stop) (hstop : stop ≤ buffer.length)
    (header : HeaderLength) :
    NalUnit.rbspAfter { start, bytes := buffer.extract start stop } header =
      unescape (payloadStart buffer start stop header)
        (buffer.extract (payloadStart buffer start stop header) stop) := by
  unfold NalUnit.rbspAfter NalUnit.escapedPayload payloadStart
  rw [headerBytes_eq_skipped]
  have hlength : (buffer.extract start stop).length = stop - start := by
    rw [List.extract_eq_take_drop, List.length_take, List.length_drop]
    omega
  generalize skipped (buffer.extract start stop) header = count
  have hbegin : start + min count (stop - start) = min (start + count) stop := by omega
  have hrest : stop - start - min count (stop - start) = stop - min (start + count) stop := by
    omega
  simp only [hlength, hbegin, List.extract_eq_take_drop, List.drop_take, List.drop_drop, hrest]

/-- A unit somewhere else decodes to the same payload, or to the same error moved. -/
theorem rbspAfter_moved (first second : Nat) (bytes : Bytes) (header : HeaderLength) :
    NalUnit.rbspAfter { start := second, bytes } header =
      (NalUnit.rbspAfter { start := first, bytes } header).mapError
        (Error.movedBy (second - first)) := by
  unfold NalUnit.rbspAfter NalUnit.escapedPayload
  simp only [headerBytes_eq_skipped]
  rw [unescape_moved (first + min (skipped bytes header) bytes.length)]
  congr 2
  omega

/-- **Ranges decode by a scan.** What a range of a buffer decodes to is what the scan of its payload
gives, and so is what the search gives; it is a payload where no illegal sequence begins, and else
the first illegal sequence at its place in the buffer; and it is the same, but for the offset in the
error, for any other range that holds the same bytes. -/
theorem range_decoded_by_scan (hstart : start ≤ stop) (hstop : stop ≤ buffer.length)
    (header : HeaderLength) :
    ∃ unit, NalUnit.ofRange buffer start stop = .ok unit ∧
      ∃ place payload, place = payloadStart buffer start stop header ∧
        payload = buffer.extract place stop ∧
        unit.rbspAfter header = scan place 0 payload ∧
        unit.rbspAfter header = search place payload ∧
        ((∃ rbsp, unit.rbspAfter header = .ok rbsp) ↔ ∀ behind, LegalBefore payload behind) ∧
        (∀ ahead reported fault, FaultAt payload ahead reported fault →
          LegalBefore payload ahead →
          unit.rbspAfter header = .error (.escape (place + reported : Nat) fault)) ∧
        ∀ (other : Bytes) (first last : Nat), first ≤ last → last ≤ other.length →
          other.extract first last = buffer.extract start stop →
          ∃ moved, NalUnit.ofRange other first last = .ok moved ∧
            moved.rbspAfter header =
              (unit.rbspAfter header).mapError (Error.movedBy (first - start)) := by
  have hdecoded := rbspAfter_extract hstart hstop header
  refine ⟨_, ofRange_extract hstart hstop, _, _, rfl, rfl, ?_, ?_, ?_, ?_, ?_⟩
  · rw [hdecoded, unescape_eq_scan]
  · rw [hdecoded, search_eq_unescape]
  · rw [hdecoded]
    exact exists_unescape_iff _ _
  · intro ahead reported fault hfault hlegal
    rw [hdecoded, unescape_of_first _ hfault hlegal]
  · intro other first last hfirst hlast hsame
    refine ⟨_, ofRange_extract hfirst hlast, ?_⟩
    rw [hsame]
    exact rbspAfter_moved start first _ header

/-- The second of two units in one buffer breaks off at its escape. -/
theorem range_decoded_by_scan_second :
    ∃ unit, NalUnit.ofRange [0x65, 0, 0, 3, 1, 0x65, 7, 0, 0, 3, 9] 5 11 = .ok unit ∧
      unit.rbspAfter .byType = .error (.escape 9 (.escapeBefore 9)) := by
  let buffer : Bytes := [0x65, 0, 0, 3, 1, 0x65, 7, 0, 0, 3, 9]
  have hstop : 11 ≤ buffer.length := by decide
  obtain ⟨unit, hunit, place, payload, rfl, rfl, hscan, -⟩ :=
    range_decoded_by_scan (by decide : 5 ≤ 11) hstop .byType
  refine ⟨unit, hunit, hscan.trans ?_⟩
  rfl

end Rbsp

end H264
