import H264.AccessUnitDelimiter
import H264.PrefixUnit
import H264.Sei.Message
import H264.Slice.Header
import H264.SpsExtension

/-!
# Units decoded by type

A unit is decoded as its type says, against the parameter sets known so far. Units of the other
types are kept as they are.
-/

namespace H264

/-- What a unit holds. -/
inductive Record
  | sps (sps : SeqParameterSet)
  | pps (pps : PicParameterSet)
  | slice (header : SliceHeader)
  | sei (messages : List SeiMessage)
  | delimiter (delimiter : AccessUnitDelimiter)
  | spsExtension (extension : SpsExtension)
  | prefixUnit (unit : PrefixUnit)
  | subsetSps (subset : SubsetSps)
  | undecoded (header : NalHeader) (raw : Bytes)
deriving DecidableEq, Repr, Inhabited

namespace Record

/-- What a unit of a given type holds, whatever type its own header has. -/
def ofUnitAs (type : UnitType) (sets : ParamSets) (unit : NalUnit) :
    Except Error (Option Record) :=
  match type with
  | .seqParameterSet => (some ∘ sps) <$> SeqParameterSet.ofUnit unit
  | .picParameterSet => (some ∘ pps) <$> PicParameterSet.ofUnit sets.sps? unit
  | .nonIdrSlice | .idrSlice | .sliceExtension | .sliceExtensionDepthView =>
    (some ∘ slice) <$> SliceHeader.ofUnit sets unit
  | .sei => (some ∘ sei) <$> SeiMessage.ofUnit unit
  | .accessUnitDelimiter => (some ∘ delimiter) <$> AccessUnitDelimiter.ofUnit unit
  | .seqParameterSetExtension => (some ∘ spsExtension) <$> SpsExtension.ofUnit unit
  | .prefixUnit => (some ∘ prefixUnit) <$> PrefixUnit.ofUnit unit
  | .subsetSeqParameterSet => (some ∘ subsetSps) <$> SubsetSps.ofUnit unit
  | _ => .ok none

/-- What a unit holds, against the parameter sets known so far. -/
def ofUnit (sets : ParamSets) (unit : NalUnit) : Except Error Record := do
  let header ← unit.checkedHeader
  match ← ofUnitAs header.unitType sets unit with
  | some record => return record
  | none => return undecoded header unit.bytes

end Record

namespace ParamSets

/-- The sets with a record stored, if it is a parameter set. -/
def storeRecord (sets : ParamSets) : Record → ParamSets
  | .sps sps => sets.storeSps sps
  | .pps pps => sets.storePps pps
  | .subsetSps subset => sets.storeSubsetSps subset
  | _ => sets

/-- The sets that units give in order, each decoded against those before it. -/
def ofUnits (units : List NalUnit) : Except Error ParamSets :=
  units.foldlM (fun sets unit => return sets.storeRecord (← Record.ofUnit sets unit)) {}

end ParamSets

end H264
