import H264.Framing.LengthPrefixed
import H264.ParamSets

/-!
# Decoder configuration records

The record with which a file carries parameter sets apart from the stream (ISO/IEC 14496-15,
5.3.3). It is six header bytes, a list of sequence parameter sets, a count and a list of picture
parameter sets, and for some profiles a list of extensions. Each entry follows its length in two
bytes and has to be of the expected type. What follows is ignored.
-/

namespace H264

/-- The fields that some profiles add. -/
structure ConfigExtension where
  chromaFormat : Nat
  bitDepthLumaMinus8 : Nat
  bitDepthChromaMinus8 : Nat
  spsExtensions : List NalUnit
deriving DecidableEq, Repr, Inhabited

/-- A decoder configuration record. -/
structure DecoderConfig where
  version : Nat
  profileIdc : Nat
  compatibility : ConstraintFlags
  levelIdc : Nat
  lengthSizeMinusOne : Nat
  spsCount : Nat
  sps : List NalUnit
  pps : List NalUnit
  extension : Option ConfigExtension
deriving DecidableEq, Repr, Inhabited

namespace DecoderConfig

/-- The number of bytes before the first entry. -/
def headerLength : Nat := 6

/-- The profiles whose records have an extension: the high profiles and the withdrawn profile
144. -/
def extensionIdcs : List Nat := Profile.highIdcs ++ [144]

/-! ## Reading -/

/-- Bytes at a place in the data. -/
structure Cursor where
  offset : Nat
  rest : Bytes
deriving Repr

/-- The next `count` bytes and the place after them; `total` is the length of the data. -/
def take (total count : Nat) (cursor : Cursor) : Except Error (Bytes × Cursor) :=
  if cursor.rest.length < count then
    .error (.framing total (.recordTooShort (cursor.offset + count) total))
  else
    .ok (cursor.rest.take count,
      { offset := cursor.offset + count, rest := cursor.rest.drop count })

/-- One entry, of the expected type and not empty. -/
def readEntry (total : Nat) (expected : UnitType) (cursor : Cursor) :
    Except Error (NalUnit × Cursor) := do
  let (size, body) ← take total 2 cursor
  let (bytes, next) ← take total (Bytes.toNat size) body
  match bytes.head? with
  | none => throw (.framing cursor.offset (.emptyEntry expected))
  | some byte =>
    let found := UnitType.ofByte byte
    if found ≠ expected then throw (.framing body.offset (.wrongEntry expected found))
    return ({ start := body.offset, bytes }, next)

/-- A list of `count` entries. -/
def readEntries (total : Nat) (expected : UnitType) :
    (count : Nat) → Cursor → Except Error (List NalUnit × Cursor)
  | 0, cursor => return ([], cursor)
  | count + 1, cursor => do
    let (first, cursor) ← readEntry total expected cursor
    let (others, cursor) ← readEntries total expected count cursor
    return (first :: others, cursor)

/-- A byte of some bytes, by its index. -/
def byteAt (bytes : Bytes) (index : Nat) : Nat :=
  (bytes[index]?.map UInt8.toNat).getD 0

/-- The extension, where the profile has one and bytes remain. -/
def readExtension (total profileIdc : Nat) (cursor : Cursor) :
    Except Error (Option ConfigExtension) := do
  if !extensionIdcs.contains profileIdc || cursor.rest.isEmpty then return none
  let (fields, cursor) ← take total 4 cursor
  let (spsExtensions, _) ←
    readEntries total .seqParameterSetExtension (byteAt fields 3) cursor
  return some {
    chromaFormat := byteAt fields 0 % 4
    bitDepthLumaMinus8 := byteAt fields 1 % 8
    bitDepthChromaMinus8 := byteAt fields 2 % 8
    spsExtensions }

/-- The record in some bytes. -/
def ofBytes (data : Bytes) : Except Error DecoderConfig := do
  let total := data.length
  let (header, cursor) ← take total headerLength { offset := 0, rest := data }
  let version := byteAt header 0
  if version ≠ 1 then throw (.framing 0 (.unknownConfigurationVersion version))
  let profileIdc := byteAt header 1
  let spsCount := byteAt header 5 % 32
  let (sps, cursor) ← readEntries total .seqParameterSet spsCount cursor
  let (ppsCount, cursor) ← take total 1 cursor
  let (pps, cursor) ← readEntries total .picParameterSet (byteAt ppsCount 0) cursor
  let extension ← readExtension total profileIdc cursor
  return {
    version
    profileIdc
    compatibility := { value := byteAt header 2 }
    levelIdc := byteAt header 3
    lengthSizeMinusOne := byteAt header 4 % 4
    spsCount
    sps
    pps
    extension }

/-! ## Derived values -/

section Derived

variable (config : DecoderConfig)

/-- The profile. -/
def profile : Profile := .ofIdc config.profileIdc

/-- The level. -/
def level : Level := .select config.profileIdc config.compatibility config.levelIdc

/-- The extensions of sequence parameter sets. -/
def spsExtensions : List NalUnit :=
  (config.extension.map ConfigExtension.spsExtensions).getD []

/-- The size of the length fields in the samples that the record belongs to. -/
def lengthSize : Nat := config.lengthSizeMinusOne + 1

/-- The parameter sets of the record, decoded in order. -/
def paramSets : Except Error ParamSets := do
  let sets ← config.sps.foldlM
    (fun (sets : ParamSets) unit => return sets.storeSps (← SeqParameterSet.ofUnit unit)) {}
  config.pps.foldlM
    (fun (sets : ParamSets) unit =>
      return sets.storePps (← PicParameterSet.ofUnit sets.sps? unit)) sets

/-- The record in one line. -/
def summary : String :=
  s!"AvcDecoderConfigurationRecord(profile={config.profileIdc}, level={config.levelIdc}, " ++
    s!"sps={config.sps.length}, pps={config.pps.length})"

end Derived

end DecoderConfig

end H264
