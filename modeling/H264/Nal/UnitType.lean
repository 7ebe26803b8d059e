/-!
# NAL unit types

The 32 values of `nal_unit_type`, with their code, the symbol that names them in reports and a
description. Every number below 32 is the number of exactly one type: `ofCode_code` and
`code_ofCode`.
-/

namespace H264

/-- The type of a NAL unit, the low five bits of its first byte. -/
inductive UnitType
  | unspecified
  | nonIdrSlice
  | slicePartitionA
  | slicePartitionB
  | slicePartitionC
  | idrSlice
  | sei
  | seqParameterSet
  | picParameterSet
  | accessUnitDelimiter
  | endOfSequence
  | endOfStream
  | fillerData
  | seqParameterSetExtension
  | prefixUnit
  | subsetSeqParameterSet
  | depthParameterSet
  | reserved17
  | reserved18
  | sliceAuxiliary
  | sliceExtension
  | sliceExtensionDepthView
  | reserved22
  | reserved23
  | unspecified24
  | unspecified25
  | unspecified26
  | unspecified27
  | unspecified28
  | unspecified29
  | unspecified30
  | unspecified31
deriving DecidableEq, Repr, Inhabited

namespace UnitType

/-- The number of a type. -/
def code : UnitType → Nat
  | unspecified => 0
  | nonIdrSlice => 1
  | slicePartitionA => 2
  | slicePartitionB => 3
  | slicePartitionC => 4
  | idrSlice => 5
  | sei => 6
  | seqParameterSet => 7
  | picParameterSet => 8
  | accessUnitDelimiter => 9
  | endOfSequence => 10
  | endOfStream => 11
  | fillerData => 12
  | seqParameterSetExtension => 13
  | prefixUnit => 14
  | subsetSeqParameterSet => 15
  | depthParameterSet => 16
  | reserved17 => 17
  | reserved18 => 18
  | sliceAuxiliary => 19
  | sliceExtension => 20
  | sliceExtensionDepthView => 21
  | reserved22 => 22
  | reserved23 => 23
  | unspecified24 => 24
  | unspecified25 => 25
  | unspecified26 => 26
  | unspecified27 => 27
  | unspecified28 => 28
  | unspecified29 => 29
  | unspecified30 => 30
  | unspecified31 => 31

/-- The type with the number `number % 32`. -/
def ofCode (number : Nat) : UnitType :=
  match number % 32 with
  | 0 => unspecified
  | 1 => nonIdrSlice
  | 2 => slicePartitionA
  | 3 => slicePartitionB
  | 4 => slicePartitionC
  | 5 => idrSlice
  | 6 => sei
  | 7 => seqParameterSet
  | 8 => picParameterSet
  | 9 => accessUnitDelimiter
  | 10 => endOfSequence
  | 11 => endOfStream
  | 12 => fillerData
  | 13 => seqParameterSetExtension
  | 14 => prefixUnit
  | 15 => subsetSeqParameterSet
  | 16 => depthParameterSet
  | 17 => reserved17
  | 18 => reserved18
  | 19 => sliceAuxiliary
  | 20 => sliceExtension
  | 21 => sliceExtensionDepthView
  | 22 => reserved22
  | 23 => reserved23
  | 24 => unspecified24
  | 25 => unspecified25
  | 26 => unspecified26
  | 27 => unspecified27
  | 28 => unspecified28
  | 29 => unspecified29
  | 30 => unspecified30
  | _ => unspecified31

/-- The type that a unit's first byte gives. -/
def ofByte (byte : UInt8) : UnitType :=
  ofCode byte.toNat

@[simp] theorem ofCode_code (type : UnitType) : ofCode type.code = type := by
  cases type <;> rfl

theorem code_lt (type : UnitType) : type.code < 32 := by
  cases type <;> decide

theorem ofCode_mod (number : Nat) : ofCode (number % 32) = ofCode number := by
  simp [ofCode]

theorem code_ofCode (number : Nat) : (ofCode number).code = number % 32 := by
  have h : ∀ low < 32, (ofCode low).code = low := by decide
  rw [← ofCode_mod, h _ (Nat.mod_lt _ (by decide))]

/-- The symbol that names a type in reports. -/
def symbol : UnitType → String
  | unspecified => "UNSPECIFIED"
  | nonIdrSlice => "SLICE_NON_IDR"
  | slicePartitionA => "SLICE_PARTITION_A"
  | slicePartitionB => "SLICE_PARTITION_B"
  | slicePartitionC => "SLICE_PARTITION_C"
  | idrSlice => "SLICE_IDR"
  | sei => "SEI"
  | seqParameterSet => "SEQ_PARAMETER_SET"
  | picParameterSet => "PIC_PARAMETER_SET"
  | accessUnitDelimiter => "ACCESS_UNIT_DELIMITER"
  | endOfSequence => "END_OF_SEQUENCE"
  | endOfStream => "END_OF_STREAM"
  | fillerData => "FILLER_DATA"
  | seqParameterSetExtension => "SEQ_PARAMETER_SET_EXTENSION"
  | prefixUnit => "PREFIX_NAL"
  | subsetSeqParameterSet => "SUBSET_SEQ_PARAMETER_SET"
  | depthParameterSet => "DEPTH_PARAMETER_SET"
  | reserved17 => "RESERVED17"
  | reserved18 => "RESERVED18"
  | sliceAuxiliary => "SLICE_AUXILIARY"
  | sliceExtension => "SLICE_EXTENSION"
  | sliceExtensionDepthView => "SLICE_EXTENSION_DEPTH_VIEW"
  | reserved22 => "RESERVED22"
  | reserved23 => "RESERVED23"
  | unspecified24 => "UNSPECIFIED24"
  | unspecified25 => "UNSPECIFIED25"
  | unspecified26 => "UNSPECIFIED26"
  | unspecified27 => "UNSPECIFIED27"
  | unspecified28 => "UNSPECIFIED28"
  | unspecified29 => "UNSPECIFIED29"
  | unspecified30 => "UNSPECIFIED30"
  | unspecified31 => "UNSPECIFIED31"

/-- A description of a type for a reader; reserved and unspecified types show their number. -/
def description : UnitType → String
  | nonIdrSlice => "Coded slice of a non-IDR picture"
  | slicePartitionA => "Coded slice data partition A"
  | slicePartitionB => "Coded slice data partition B"
  | slicePartitionC => "Coded slice data partition C"
  | idrSlice => "Coded slice of an IDR picture"
  | sei => "Supplemental enhancement information (SEI)"
  | seqParameterSet => "Sequence Parameter Set (SPS)"
  | picParameterSet => "Picture Parameter Set (PPS)"
  | accessUnitDelimiter => "Access Unit Delimiter (AUD)"
  | endOfSequence => "End of sequence"
  | endOfStream => "End of stream"
  | fillerData => "Filler data"
  | seqParameterSetExtension => "Sequence parameter set extension"
  | prefixUnit => "Prefix NAL unit"
  | subsetSeqParameterSet => "Subset sequence parameter set"
  | depthParameterSet => "Depth parameter set"
  | sliceAuxiliary => "Coded slice of an auxiliary coded picture"
  | sliceExtension => "Coded slice extension"
  | sliceExtensionDepthView => "Coded slice extension for depth view components"
  | type => s!"Reserved/unspecified ({type.code})"

/-- Whether three further header bytes follow the first one. -/
def hasHeaderExtension : UnitType → Bool
  | prefixUnit | sliceExtension | sliceExtensionDepthView => true
  | _ => false

/-- The number of header bytes of a unit. -/
def headerLength (type : UnitType) : Nat :=
  if type.hasHeaderExtension then 4 else 1

end UnitType

end H264
