import H264.Proofs.Sei.Payloads
import H264.Sei.ClockTimestamp

/-!
# Clock timestamps that are read

`ClockTimestamp.Legal` says which timestamps there are, with an offset of so many bits. All counting
types of 7 and above are one, reserved, so that a timestamp with it may be sent in several ways:
`ClockTimestamp.SentBy`. Main statements: `takes_sentBy` and `readsBack_sentBy` say that a timestamp
is read just from its writings.
-/

namespace H264

open Read (HoldsSigned)

/-! ## Times of day -/

namespace ClockTime

/-- A time of day, as far as it is given. -/
structure Legal (time : ClockTime) : Prop where
  second : ∀ second ∈ time.second?, second ≤ 59
  minute : ∀ minute ∈ time.minute?, minute ≤ 59
  hour : ∀ hour ∈ time.hour?, hour ≤ 23

theorem checkPart_eq_ok_iff {name : String} {greatest : Nat} {part : Option Nat} :
    checkPart name greatest part = .ok () ↔ ∀ value ∈ part, value ≤ greatest := by
  cases part with
  | none => exact iff_of_true rfl nofun
  | some value =>
    unfold checkPart
    dsimp only
    split
    · rename_i hover
      exact iff_of_false nofun fun h => absurd (h value rfl) (Nat.not_le.mpr hover)
    · rename_i hwithin
      exact iff_of_true rfl (by rintro _ ⟨⟩; exact Nat.not_lt.mp hwithin)

theorem check_eq_ok_iff (time : ClockTime) : time.check = .ok () ↔ time.Legal := by
  unfold check
  constructor
  · intro h
    obtain ⟨_, hsecond, hrest⟩ := exists_of_bind_eq_ok h
    obtain ⟨_, hminute, hhour⟩ := exists_of_bind_eq_ok hrest
    exact ⟨checkPart_eq_ok_iff.mp hsecond, checkPart_eq_ok_iff.mp hminute,
      checkPart_eq_ok_iff.mp hhour⟩
  · rintro ⟨hsecond, hminute, hhour⟩
    rw [checkPart_eq_ok_iff.mpr hsecond, ok_bind, checkPart_eq_ok_iff.mpr hminute, ok_bind]
    exact checkPart_eq_ok_iff.mpr hhour

theorem accepts_read (full : Bool) :
    Accepts (if full = true then readFull else readParts) (fun time => time.isFull = full)
      elements := by
  cases full with
  | true =>
    refine .part (.bits _ _) fun second _ => .part (.bits _ _) fun minute _ => ?_
    exact .part (.bits _ _) fun hour _ => .pure ⟨rfl, rfl⟩
  | false =>
    -- each flag says whether the time goes on
    refine .part (.flag _) fun hasSecond _ => .ite (fun hsecond => ?_) fun hsecond => .pure ⟨rfl, ?_⟩
    · refine .part (.bits _ _) fun second _ => .part (.flag _) fun hasMinute _ => ?_
      refine .ite (fun hminute => ?_) fun hminute => .pure ⟨rfl, ?_⟩
      · refine .part (.bits _ _) fun minute _ => .part (.flag _) fun hasHour _ => ?_
        refine .ite (fun hhour => ?_) fun hhour => .pure ⟨rfl, ?_⟩
        · refine .part (.bits _ _) fun hour _ => .pure ⟨rfl, ?_⟩
          rw [hsecond, hminute, hhour]
          rfl
        · rw [hsecond, hminute, Bool.eq_false_iff.mpr hhour]
          rfl
      · rw [hsecond, Bool.eq_false_iff.mpr hminute]
        rfl
    · rw [Bool.eq_false_iff.mpr hsecond]
      rfl

theorem readsBack {time : ClockTime} (h : time.Legal) :
    ReadsBack (if time.isFull = true then readFull else readParts) time.elements time := by
  obtain ⟨hsecond, hminute, hhour⟩ := h
  have hsixty : ∀ name (value : Nat), value ≤ 59 →
      ReadsBack (Read.bits 6 name) [.u 6 value] value :=
    fun name value hvalue => .bits name (by decide) (by omega)
  have hday : ∀ name (value : Nat), value ≤ 23 →
      ReadsBack (Read.bits 5 name) [.u 5 value] value :=
    fun name value hvalue => .bits name (by decide) (by omega)
  cases time with
  | absent => exact .cons (.flag _ false) <| .pure _
  | seconds second =>
    refine .cons (.flag _ true) <| .cons (hsixty _ _ (hsecond _ rfl)) ?_
    exact .cons (.flag _ false) <| .pure _
  | minutes second minute =>
    refine .cons (.flag _ true) <| .cons (hsixty _ _ (hsecond _ rfl)) ?_
    refine .cons (.flag _ true) <| .cons (hsixty _ _ (hminute _ rfl)) ?_
    exact .cons (.flag _ false) <| .pure _
  | hours second minute hour =>
    refine .cons (.flag _ true) <| .cons (hsixty _ _ (hsecond _ rfl)) ?_
    refine .cons (.flag _ true) <| .cons (hsixty _ _ (hminute _ rfl)) ?_
    exact .cons (.flag _ true) <| .cons (hday _ _ (hhour _ rfl)) <| .pure _
  | full second minute hour =>
    refine .cons (hsixty _ _ (hsecond _ rfl)) <| .cons (hsixty _ _ (hminute _ rfl)) ?_
    exact .cons (hday _ _ (hhour _ rfl)) <| .pure _

end ClockTime

/-! ## Timestamps -/

theorem ScanType.ofCode_code (type : ScanType) : ofCode type.code = type := by
  cases type <;> rfl

theorem ScanType.code_ofCode {code : Nat} (h : code < 4) : (ofCode code).code = code := by
  have hcode : ∀ code < 4, (ofCode code).code = code := by decide
  exact hcode code h

theorem CountingType.ofCode_code (type : CountingType) : ofCode type.code = type := by
  cases type <;> rfl

namespace ClockTimestamp

/-- A timestamp whose offset has `length` bits; without any there is no offset. -/
structure Legal (length : Nat) (timestamp : ClockTimestamp) : Prop where
  frameNumber : timestamp.frameNumber < 256
  time : timestamp.time.Legal
  timeOffsetSent : timestamp.timeOffset.isSome = (length != 0)
  timeOffset : ∀ offset ∈ timestamp.timeOffset, HoldsSigned length offset

/-- The elements of a timestamp, with one of the numbers of its counting type. -/
def SentBy (length : Nat) (timestamp : ClockTimestamp) (elements : List Element) : Prop :=
  ∃ code < 32, CountingType.ofCode code = timestamp.countingType ∧
    elements = (timestamp.elements length).set 2 (.u 5 code)

theorem sentBy_elements (length : Nat) (timestamp : ClockTimestamp) :
    timestamp.SentBy length (timestamp.elements length) := by
  refine ⟨timestamp.countingType.code, ?_, CountingType.ofCode_code _, rfl⟩
  cases timestamp.countingType <;> decide

variable {length : Nat} {timestamp : ClockTimestamp} {elements : List Element}

theorem readTimeOffset_natCast (length : Nat) :
    readTimeOffset length = Read.signed length "time_offset" := by
  unfold readTimeOffset Read.width
  rw [if_pos (Int.natCast_nonneg length)]
  rfl

theorem natCast_bne_zero (length : Nat) : ((length : Int) != 0) = (length != 0) := by
  rw [Bool.eq_iff_iff]
  simp

theorem accepts_timeOffset (length : Nat) :
    Accepts (Read.optional (length != 0) (readTimeOffset length))
      (fun offset => offset.isSome = (length != 0) ∧ ∀ x ∈ offset, HoldsSigned length x)
      (Element.sent fun offset => [.i length offset]) := by
  cases length with
  | zero => exact .pure ⟨⟨rfl, nofun⟩, rfl⟩
  | succ length =>
    rw [readTimeOffset_natCast]
    exact .optional (.heldSigned _ (Nat.succ_pos length)) _

/-- Nothing is read but the writing of a timestamp. -/
theorem takes_sentBy (length : Nat) : Takes (read length) fun timestamp elements =>
    timestamp.Legal length ∧ timestamp.SentBy length elements := by
  unfold read
  refine .part (.bits 2 _) fun scan hscan => .part (.flag _) fun nuitFieldBased _ => ?_
  refine .part (.bits 5 _) fun counting hcounting => .part (.flag _) fun full _ => ?_
  refine .part (.flag _) fun discontinuity _ => .part (.flag _) fun cntDropped _ => ?_
  refine .part (.u8 _) fun frameNumber hframe => .branch (ClockTime.accepts_read full) ?_
  rintro time rfl
  refine .step (.ofExcept _) fun _ htime => ?_
  rw [natCast_bne_zero]
  refine .part (accepts_timeOffset length) fun offset ⟨hsent, hoffset⟩ => .pure ⟨?_, ?_⟩
  · exact ⟨hframe, (ClockTime.check_eq_ok_iff time).mp htime, hsent, hoffset⟩
  · refine ⟨counting, hcounting, rfl, ?_⟩
    simp [elements, ScanType.code_ofCode hscan]

/-- A timestamp is read back from each of its writings. -/
theorem readsBack_sentBy (hlegal : timestamp.Legal length)
    (hsent : timestamp.SentBy length elements) : ReadsBack (read length) elements timestamp := by
  obtain ⟨code, hcode, htype, rfl⟩ := hsent
  have hscan : timestamp.scanType.code < 2 ^ 2 := by cases timestamp.scanType <;> decide
  have hoffset : ∀ x ∈ timestamp.timeOffset, ReadsBack (readTimeOffset length) [.i length x] x := by
    intro x hx
    rw [readTimeOffset_natCast]
    exact .heldSigned _ (hlegal.timeOffset x hx)
  unfold read ClockTimestamp.elements
  simp only [List.cons_append, List.nil_append, List.set_cons_succ, List.set_cons_zero]
  refine .cons (.bits _ (by decide) hscan) <| .cons (.flag _ _) <| .cons (.bits _ (by decide) hcode) ?_
  refine .cons (.flag _ _) <| .cons (.flag _ _) <| .cons (.flag _ _) ?_
  refine .cons (.u8 _ hlegal.frameNumber) <| .branch (ClockTime.readsBack hlegal.time) ?_
  refine .step (.ofExcept ((ClockTime.check_eq_ok_iff _).mpr hlegal.time)) ?_
  rw [natCast_bne_zero, htype, ScanType.ofCode_code]
  exact .of_append_nil (.bind (.optional hlegal.timeOffsetSent hoffset) (.pure _))

end ClockTimestamp

end H264
