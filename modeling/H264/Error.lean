import H264.Nal.UnitType
import H264.Text.Value

/-!
# Errors

Everything that can go wrong, as causes. A `FieldFault` is a failure inside a syntax structure and
goes with the name of the syntax element; a `FramingFault` or an `EscapeFault` goes with a byte
offset; a `Misuse` is a bad argument of a caller and no property of a stream. The wording of each
stands in the `message` functions and nowhere else. `Error.isBitstream` marks the errors that a
stream can cause.
-/

namespace H264

/-! ## Faults of a syntax element -/

/-- Why an Exp-Golomb code or another value is beyond what can be represented. -/
inductive Overflow
  | longCode
  | unspecified
  | stated (text : String)
deriving DecidableEq, Repr

/-- A value as an error shows it; `written` is a value whose text is settled. -/
inductive Shown
  | number (value : Int)
  | symbol (name : String)
  | written (text : String)
deriving DecidableEq, Repr

/-- The rule that a decoded value breaks. -/
inductive Rule
  | unstated
  | atMost (maximum : Int)
  | within (least greatest : Int)
  | knownPicOrderCntType
  | intraInIdr
  | nothingAfterStopBit
  | nothingInPayload
  | nothingAfterPayloadEnd
  | keepsColumn (width : Nat)
  | keepsRow (height : Nat)
  | fitsPictureBuffer (profile level : String) (frames : Nat)
  | reordersWithinBuffer
  | countAtMost (limit : Nat) (what : String)
  | sliceQp (qp least : Int)
  | sliceQs (qs : Int)
  | stated (text : String)
deriving DecidableEq, Repr

/-- What is wrong at a syntax element. -/
inductive FieldFault
  | truncated
  | overflow (cause : Overflow)
  | illegal (value : Shown) (rule : Rule)
  | unresolved (id : Shown)
  | unsupported (what : String)
  | stated (text : String)
deriving DecidableEq, Repr

/-- The greatest quantiser of a slice. -/
def maxSliceQp : Int := 51

namespace Overflow

/-- The text of an overflow. -/
def message : Overflow → String
  | longCode => "Exp-Golomb prefix longer than 31 bits"
  | unspecified => "value exceeds representable range"
  | stated text => text

end Overflow

namespace Shown

/-- A value that a caller hands over. -/
def ofValue : Value → Shown
  | .number value => number value
  | .text content => symbol content
  | value => written value.shown

/-- Numbers are shown in decimal and symbols in quotation marks. -/
def text : Shown → String
  | number value => toString value
  | symbol name => Text.quoted name
  | written text => text

/-- The text where a symbol needs no quotation marks. -/
def plain : Shown → String
  | symbol name => name
  | value => value.text

end Shown

namespace Rule

/-- The text of a rule, empty where the element's name says enough. -/
def text : Rule → String
  | unstated => ""
  | atMost maximum => s!"maximum is {maximum}"
  | within least greatest => s!"allowed range is {least}..{greatest}"
  | knownPicOrderCntType => "must be 0, 1 or 2"
  | intraInIdr => "IDR slices must be I or SI"
  | nothingAfterStopBit => "data remains after the stop bit"
  | nothingInPayload => "data remains in SEI payload"
  | nothingAfterPayloadEnd => "data remains after the payload end bit"
  | keepsColumn width => s!"cropping removes all of the {width} columns"
  | keepsRow height => s!"cropping removes all of the {height} rows"
  | fitsPictureBuffer profile level frames =>
    s!"{profile} level {level} allows at most {frames}"
  | reordersWithinBuffer => "exceeds max_dec_frame_buffering"
  | countAtMost limit what => s!"more than {limit} {what}"
  | sliceQp qp least => s!"SliceQPY {qp} outside {least}..{maxSliceQp}"
  | sliceQs qs => s!"QSY {qs} outside 0..{maxSliceQp}"
  | stated text => text

end Rule

namespace FieldFault

/-- The text of a fault, without the name of the element. -/
def message : FieldFault → String
  | truncated => "bitstream ended before field was complete"
  | overflow cause => cause.message
  | illegal value rule =>
    let detail := rule.text
    if detail.isEmpty then s!"illegal value {value.text}"
    else s!"illegal value {value.text} ({detail})"
  | unresolved id => s!"references unknown parameter set {id.plain}"
  | unsupported what => what
  | stated text => text

end FieldFault

/-! ## Faults at a byte offset -/

/-- Why unit boundaries cannot be determined. -/
inductive FramingFault
  | dataBeforeStartCode
  | cutLengthField (left size : Nat)
  | unitExceedsSample (length left : Nat)
  | recordTooShort (needed found : Nat)
  | unknownConfigurationVersion (version : Nat)
  | emptyEntry (expected : UnitType)
  | wrongEntry (expected found : UnitType)
  | stated (text : String)
deriving DecidableEq, Repr

/-- Why a zero run is not legal where it occurs. -/
inductive EscapeFault
  | threeZeros
  | escapeBefore (byte : UInt8)
  | stated (text : String)
deriving DecidableEq, Repr

namespace FramingFault

/-- The text of a framing fault, without its offset. -/
def message : FramingFault → String
  | dataBeforeStartCode => "data before the first start code"
  | cutLengthField left size => s!"{left} bytes left for a {size}-byte length field"
  | unitExceedsSample length left =>
    s!"NAL length {length} exceeds the {left} bytes remaining"
  | recordTooShort needed found => s!"avcC needs {needed} bytes, got {found}"
  | unknownConfigurationVersion version => s!"unsupported configurationVersion {version}"
  | emptyEntry expected => s!"empty {expected.symbol} entry"
  | wrongEntry expected found => s!"expected {expected.symbol}, found {found.symbol}"
  | stated text => text

end FramingFault

namespace EscapeFault

/-- The text of an escape fault, without its offset. -/
def message : EscapeFault → String
  | threeZeros => "00 00 00 inside NAL unit payload"
  | escapeBefore byte => "emulation prevention byte followed by 0x" ++ Text.hex 2 byte.toNat
  | stated text => text

end EscapeFault

/-! ## Bad arguments -/

/-- An argument that an operation does not take. -/
inductive Misuse
  | readWidth (width : Int)
  | negativeWidth (width : Int)
  | noSignBit
  | doesNotFit (value width : Int)
  | doesNotFitSigned (value width : Int)
  | noExpGolombCode (value : Int)
  | outsideBuffer (start stop : Int) (size : Nat)
  | lengthFieldSize (size : Int)
  | unitTooLong (length size : Nat)
  | noSliceHeader (type : UnitType)
  | noHeaderExtension (type : UnitType)
  | wrongPayload (expected found : String)
  | noMember (value : Shown) (enumeration : String)
  | scanLength (found positions : Nat)
  | noByte
deriving DecidableEq, Repr

namespace Misuse

/-- The text of a bad argument. -/
def message : Misuse → String
  | readWidth width => s!"read_bits supports 0..32 bits, got {width}"
  | negativeWidth width => s!"bit count must be non-negative, got {width}"
  | noSignBit => "negative shift count"
  | doesNotFit value width => s!"{value} does not fit in {width} bits"
  | doesNotFitSigned value width => s!"{value} does not fit in {width} signed bits"
  | noExpGolombCode value => s!"ue(v) cannot encode {value}"
  | outsideBuffer start stop size => s!"range [{start}, {stop}) outside buffer of {size} bytes"
  | lengthFieldSize size => s!"Unsupported NALU length size: {size}"
  | unitTooLong length size => s!"{length}-byte NAL unit does not fit a {size}-byte length"
  | noSliceHeader type => s!"{type.symbol} does not carry a slice header"
  | noHeaderExtension type => s!"{type.symbol} slice header needs the NAL header extension"
  | wrongPayload expected found => s!"expected a {expected} message, got {found}"
  | noMember value enumeration => s!"{value.text} is not a valid {enumeration}"
  | scanLength found positions =>
    s!"shape mismatch: value array of shape ({found},) could not be broadcast to " ++
      s!"indexing result of shape ({positions},)"
  | noByte => "bytes must be in range(0, 256)"

end Misuse

/-! ## All errors -/

/-- The kinds of parameter sets, each with its own identifiers. -/
inductive ParamSetKind
  | sps
  | pps
  | subsetSps
  | named (name : String)
deriving DecidableEq, Repr

namespace ParamSetKind

/-- The name of a kind in errors. -/
def label : ParamSetKind → String
  | sps => "SPS"
  | pps => "PPS"
  | subsetSps => "subset SPS"
  | named name => name

end ParamSetKind

/-- Everything that can go wrong. -/
inductive Error
  | field (name : String) (fault : FieldFault)
  | framing (offset : Int) (fault : FramingFault)
  | escape (offset : Int) (fault : EscapeFault)
  | general (text : String)
  | notFound (kind : ParamSetKind) (id : Shown)
  | misuse (cause : Misuse)
  | wrongKey (expected found : String)
deriving DecidableEq, Repr

namespace Error

/-- The text of an error. -/
def message : Error → String
  | field name fault => s!"{name}: {fault.message}"
  | framing offset fault => s!"offset {offset}: {fault.message}"
  | escape offset fault => s!"offset {offset}: {fault.message}"
  | general text => text
  | notFound kind id => s!"no {kind.label} with id {id.plain}"
  | misuse cause => cause.message
  | wrongKey expected found => s!"expected a {expected}, got {found}"

/-- Whether a stream can cause the error; the others are a caller's. -/
def isBitstream : Error → Bool
  | field .. | framing .. | escape .. | general .. => true
  | notFound .. | misuse .. | wrongKey .. => false

/-- Whether the error is one of malformed framing; an illegal escape counts as one. -/
def isFraming : Error → Bool
  | framing .. | escape .. => true
  | _ => false

/-- The syntax element at which a structure failed. -/
def fieldName? : Error → Option String
  | field name _ => some name
  | _ => none

/-- A field for which not enough bits remain. -/
def truncated (name : String) : Error :=
  field name .truncated

/-- A field whose number breaks a rule. -/
def illegal (name : String) (value : Int) (rule : Rule) : Error :=
  field name (.illegal (.number value) rule)

/-- A field that names a parameter set that is not known. -/
def unresolved (name : String) (id : Int) : Error :=
  field name (.unresolved (.number id))

end Error

end H264
