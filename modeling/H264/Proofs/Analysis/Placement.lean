import H264.Proofs.Rbsp.Scan
import H264.Record

/-!
# Units apart from their places

What a unit holds depends on its bytes and not on where it stands: units with the same bytes decode
to the same record, or fail for the same reason (`Record.ofUnit_moved`). Only the offset in the
error of an illegal escape tells the places apart, and it moves with the unit (`OutcomeMoved`).
Where the offsets do not matter, errors are compared without them (`Error.unplaced`,
`Record.ofUnit_alike`).
-/

namespace H264

/-! ## Errors without offsets -/

namespace Error

/-- The error without the offset at which it was found. -/
def unplaced : Error → Error
  | framing _ fault => framing 0 fault
  | escape _ fault => escape 0 fault
  | error => error

theorem isBitstream_unplaced (error : Error) : error.unplaced.isBitstream = error.isBitstream := by
  cases error <;> rfl

end Error

variable {α β : Type}

/-- The same value, or errors that differ in their offsets at most. -/
def OutcomeAlike (first second : Except Error α) : Prop :=
  first.mapError Error.unplaced = second.mapError Error.unplaced

namespace OutcomeAlike

theorem refl (outcome : Except Error α) : OutcomeAlike outcome outcome :=
  rfl

/-- Outcomes that are alike are both values, and the same ones, or both errors. -/
theorem cases {first second : Except Error α} (h : OutcomeAlike first second) :
    (∃ value, first = .ok value ∧ second = .ok value) ∨
      ∃ error error', first = .error error ∧ second = .error error' ∧
        error.unplaced = error'.unplaced := by
  unfold OutcomeAlike at h
  cases first with
  | ok value =>
    cases second with
    | ok other =>
      cases h
      exact .inl ⟨value, rfl, rfl⟩
    | error error => cases h
  | error error =>
    cases second with
    | ok other => cases h
    | error error' => exact .inr ⟨error, error', rfl, rfl, Except.error.inj h⟩

end OutcomeAlike

/-! ## Outcomes at other places -/

/-- The same outcome, or the same illegal escape, as far behind one place as behind the other. -/
def OutcomeMoved (here there : Nat) (first second : Except Error α) : Prop :=
  first = second ∨ ∃ (behind : Nat) (fault : EscapeFault),
    first = .error (.escape (here + behind : Nat) fault) ∧
      second = .error (.escape (there + behind : Nat) fault)

namespace OutcomeMoved

variable {here there : Nat}

theorem refl (outcome : Except Error α) : OutcomeMoved here there outcome outcome :=
  .inl rfl

theorem bind {first second : Except Error α} {next next' : α → Except Error β}
    (h : OutcomeMoved here there first second)
    (hnext : ∀ value, OutcomeMoved here there (next value) (next' value)) :
    OutcomeMoved here there (first >>= next) (second >>= next') := by
  rcases h with rfl | ⟨behind, fault, rfl, rfl⟩
  · cases first with
    | ok value => exact hnext value
    | error error => exact refl _
  · exact .inr ⟨behind, fault, rfl, rfl⟩

theorem map {first second : Except Error α} (h : OutcomeMoved here there first second)
    (f : α → β) : OutcomeMoved here there (f <$> first) (f <$> second) := by
  rcases h with rfl | ⟨behind, fault, rfl, rfl⟩
  · exact refl _
  · exact .inr ⟨behind, fault, rfl, rfl⟩

theorem alike {first second : Except Error α} (h : OutcomeMoved here there first second) :
    OutcomeAlike first second := by
  rcases h with rfl | ⟨behind, fault, rfl, rfl⟩
  · exact .refl _
  · rfl

end OutcomeMoved

/-! ## Payloads -/

/-- An illegal escape is reported as far behind the beginning as it stands, wherever that is. -/
theorem Rbsp.unescape_placed (here there distance : Nat) (escaped : Bytes) :
    OutcomeMoved here there (unescape (here + distance) escaped)
      (unescape (there + distance) escaped) := by
  rw [unescape_moved 0 (here + distance), unescape_moved 0 (there + distance)]
  unfold unescape
  cases fault? 0 escaped with
  | none => exact .refl _
  | some found =>
    obtain ⟨place, fault⟩ := found
    refine .inr ⟨distance + place, fault, ?_, ?_⟩
    · refine congrArg Except.error (Error.movedBy_escape ?_ fault)
      omega
    · refine congrArg Except.error (Error.movedBy_escape ?_ fault)
      omega

namespace NalUnit

variable {first second : NalUnit}

/-- Where a unit stands does not matter to a function that does not look at it. -/
theorem eq_of_bytes (h : first.bytes = second.bytes) {f : NalUnit → α}
    (hf : ∀ unit, f unit = f { bytes := unit.bytes }) : f first = f second := by
  rw [hf first, hf second, h]

theorem checkedHeader_eq_of_bytes (h : first.bytes = second.bytes) :
    first.checkedHeader = second.checkedHeader :=
  eq_of_bytes h fun _ => rfl

theorem headerExtension_eq_of_bytes (h : first.bytes = second.bytes) :
    first.headerExtension = second.headerExtension :=
  eq_of_bytes h fun _ => rfl

theorem type?_eq_of_bytes (h : first.bytes = second.bytes) : first.type? = second.type? :=
  eq_of_bytes h fun _ => rfl

theorem rbsp_moved (h : first.bytes = second.bytes) :
    OutcomeMoved first.start second.start first.rbsp second.rbsp := by
  have hheader : first.headerBytes .byType = second.headerBytes .byType :=
    eq_of_bytes (f := fun unit => unit.headerBytes .byType) h fun _ => rfl
  unfold rbsp rbspAfter escapedPayload
  dsimp only
  rw [hheader, h]
  exact Rbsp.unescape_placed _ _ _ _

theorem readRbsp_moved (h : first.bytes = second.bytes) (action : Read α) :
    OutcomeMoved first.start second.start (first.readRbsp action) (second.readRbsp action) :=
  (rbsp_moved h).bind fun _ => .refl _

end NalUnit

/-! ## Records -/

variable {first second : NalUnit}

theorem SliceHeader.ofUnit_moved (h : first.bytes = second.bytes) (sets : ParamSets) :
    OutcomeMoved first.start second.start (ofUnit sets first) (ofUnit sets second) := by
  unfold ofUnit
  rw [NalUnit.checkedHeader_eq_of_bytes h, NalUnit.headerExtension_eq_of_bytes h]
  exact (NalUnit.rbsp_moved h).bind fun _ => .refl _

theorem SeiMessage.ofUnit_moved (h : first.bytes = second.bytes) :
    OutcomeMoved first.start second.start (ofUnit first) (ofUnit second) :=
  (NalUnit.rbsp_moved h).bind fun _ => .refl _

theorem PrefixUnit.ofUnit_moved (h : first.bytes = second.bytes) :
    OutcomeMoved first.start second.start (ofUnit first) (ofUnit second) := by
  unfold ofUnit
  rw [NalUnit.checkedHeader_eq_of_bytes h, NalUnit.headerExtension_eq_of_bytes h]
  refine (OutcomeMoved.refl _).bind fun header => (OutcomeMoved.refl _).bind fun extension => ?_
  -- only a scalable extension of a reference unit has a payload behind it
  match extension with
  | none => exact .refl _
  | some (.mvc fields) => exact .refl _
  | some (.svc fields) =>
    dsimp only
    by_cases href : header.nalRefIdc = 0
    · rw [if_pos href, if_pos href]
      exact .refl _
    · rw [if_neg href, if_neg href]
      exact (NalUnit.readRbsp_moved h _).bind fun _ => .refl _

namespace Record

theorem ofUnitAs_moved (h : first.bytes = second.bytes) (type : UnitType) (sets : ParamSets) :
    OutcomeMoved first.start second.start (ofUnitAs type sets first)
      (ofUnitAs type sets second) := by
  cases type with
  | seqParameterSet | picParameterSet | accessUnitDelimiter | seqParameterSetExtension
    | subsetSeqParameterSet => exact (NalUnit.readRbsp_moved h _).map _
  | nonIdrSlice | idrSlice | sliceExtension | sliceExtensionDepthView =>
    exact (SliceHeader.ofUnit_moved h sets).map _
  | sei => exact (SeiMessage.ofUnit_moved h).map _
  | prefixUnit => exact (PrefixUnit.ofUnit_moved h).map _
  | _ => exact .refl _

/-- **Units with the same bytes** hold the same, or fail for the same reason. -/
theorem ofUnit_moved (h : first.bytes = second.bytes) (sets : ParamSets) :
    OutcomeMoved first.start second.start (ofUnit sets first) (ofUnit sets second) := by
  unfold ofUnit
  rw [NalUnit.checkedHeader_eq_of_bytes h, h]
  exact (OutcomeMoved.refl _).bind fun header =>
    (ofUnitAs_moved h header.unitType sets).bind fun _ => .refl _

theorem ofUnit_alike (h : first.bytes = second.bytes) (sets : ParamSets) :
    OutcomeAlike (ofUnit sets first) (ofUnit sets second) :=
  (ofUnit_moved h sets).alike

end Record

end H264
