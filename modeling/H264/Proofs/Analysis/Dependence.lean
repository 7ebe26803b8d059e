import H264.Proofs.Analysis.StoredSets
import H264.Proofs.Pps.Reference

/-!
# What a parameter set is decoded from

A unit of a type that may hold a parameter set is decoded from its own bytes and, where it is a
picture parameter set with 8x8 scaling lists, from the sequence that it names. Nothing else that an
analysis knows has a part in it: `Record.ofUnit_congr`. A sequence depends on its bytes alone
(`Record.entry_ofUnit`), and no such unit stops an analysis (`Record.checked_ofUnit_of_mayStore`).
-/

namespace H264

instance (unit : NalUnit) : Decidable unit.MayStore :=
  inferInstanceAs (Decidable (∃ type ∈ unit.type?, type.code ∈ [7, 8, 15]))

/-- The sequence parameter set in a unit; the parameter sets before it have no part in it. -/
def NalUnit.sequence? (unit : NalUnit) : Option SeqParameterSet :=
  (Record.ofUnit {} unit).toOption.bind IdSpace.sequence.entry?

/-- A unit with a sequence parameter set of an identifier. -/
def NalUnit.HoldsSequence (unit : NalUnit) (spsId : Nat) : Prop :=
  ∃ sps, unit.sequence? = some sps ∧ sps.id = spsId

namespace Record

theorem ofUnit_of_header_error {unit : NalUnit} {error : Error}
    (h : unit.checkedHeader = .error error) (sets : ParamSets) :
    ofUnit sets unit = .error error := by
  unfold ofUnit
  rw [h]
  rfl

theorem ofUnit_of_header_ok {unit : NalUnit} {header : NalHeader}
    (h : unit.checkedHeader = .ok header) (sets : ParamSets) :
    ofUnit sets unit = (ofUnitAs header.unitType sets unit).map
      fun found => found.getD (undecoded header unit.bytes) := by
  unfold ofUnit
  rw [h, ok_bind]
  cases ofUnitAs header.unitType sets unit with
  | error error => rfl
  | ok found => cases found <;> rfl

/-- Only units of type 7 hold sequences. -/
theorem sequence_entry?_of_ofUnitAs {sets : ParamSets} {type : UnitType} {unit : NalUnit}
    {record : Record} (h : ofUnitAs type sets unit = .ok (some record))
    (htype : type ≠ .seqParameterSet) : IdSpace.sequence.entry? record = none := by
  cases type with
  | seqParameterSet => exact absurd rfl htype
  | picParameterSet | subsetSeqParameterSet | nonIdrSlice | idrSlice | sliceExtension
    | sliceExtensionDepthView | sei | accessUnitDelimiter | seqParameterSetExtension
    | prefixUnit =>
    obtain ⟨value, -, rfl⟩ := ParamSets.exists_of_map_eq_ok h
    rfl
  | _ => cases h

theorem entry_of_other_type {header : NalHeader} (htype : header.unitType ≠ .seqParameterSet)
    (sets : ParamSets) (unit : NalUnit) :
    ((ofUnitAs header.unitType sets unit).map fun found =>
      found.getD (undecoded header unit.bytes)).toOption.bind IdSpace.sequence.entry? = none := by
  cases hrecord : ofUnitAs header.unitType sets unit with
  | error error => rfl
  | ok found =>
    cases found with
    | none => rfl
    | some record => exact sequence_entry?_of_ofUnitAs hrecord htype

theorem entry_ofUnit (sets : ParamSets) (unit : NalUnit) :
    (ofUnit sets unit).toOption.bind IdSpace.sequence.entry? = unit.sequence? := by
  unfold NalUnit.sequence?
  cases hheader : unit.checkedHeader with
  | error error => rw [ofUnit_of_header_error hheader, ofUnit_of_header_error hheader]
  | ok header =>
    rw [ofUnit_of_header_ok hheader, ofUnit_of_header_ok hheader]
    by_cases htype : header.unitType = .seqParameterSet
    · rw [htype]
      rfl
    · rw [entry_of_other_type htype, entry_of_other_type htype]

/-- **What a parameter set is decoded from**: of the parameter sets before it, only the sequence that
it asks for. -/
theorem ofUnit_congr {sets other : ParamSets} {unit : NalUnit} (hstore : unit.MayStore)
    (h : ∀ spsId, unit.AsksFor spsId → sets.sps? spsId = other.sps? spsId) :
    ofUnit sets unit = ofUnit other unit := by
  cases hheader : unit.checkedHeader with
  | error error => rw [ofUnit_of_header_error hheader, ofUnit_of_header_error hheader]
  | ok header =>
    obtain ⟨type, htype, hcode⟩ := hstore
    have hunit := NalUnit.type?_of_checkedHeader hheader
    obtain rfl := Option.some.inj (htype.symm.trans hunit)
    have hsame : ofUnitAs header.unitType sets unit = ofUnitAs header.unitType other unit := by
      -- of the three types, only picture parameter sets are read against what is known
      cases hcase : header.unitType with
      | seqParameterSet | subsetSeqParameterSet => rfl
      | picParameterSet =>
        rw [hcase] at htype
        exact congrArg ((some ∘ pps) <$> ·) (PicParameterSet.ofUnit_congr htype h)
      | _ =>
        rw [hcase] at hcode
        exact absurd hcode (by decide)
    rw [ofUnit_of_header_ok hheader, ofUnit_of_header_ok hheader, hsame]

/-- Decoding a parameter set fails with errors that a stream can cause only. -/
theorem checked_ofUnit_of_mayStore {unit : NalUnit} (hstore : unit.MayStore) (sets : ParamSets) :
    CheckedOutcome (ofUnit sets unit) := by
  obtain ⟨type, htype, hcode⟩ := hstore
  refine .bind unit.checked_checkedHeader fun header hheader => .bind ?_ fun found _ => ?_
  · obtain rfl := Option.some.inj (htype.symm.trans (NalUnit.type?_of_checkedHeader hheader))
    refine checked_ofUnitAs ?_
    cases hcase : header.unitType with
    | nonIdrSlice | idrSlice | sliceExtension | sliceExtensionDepthView =>
      rw [hcase] at hcode
      exact absurd hcode (by decide)
    | _ => rfl
  · cases found with
    | some record => exact .ok record
    | none => exact .ok _

end Record

end H264
