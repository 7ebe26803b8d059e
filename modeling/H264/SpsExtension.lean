import H264.Sps.Basic

/-!
# Sequence parameter set extensions

The unit that describes auxiliary pictures of a sequence (7.3.2.1.2), such as an alpha plane.
-/

namespace H264

/-- The format of auxiliary pictures. -/
structure AuxFormatInfo where
  bitDepthMinus8 : Nat
  alphaIncrement : Bool
  opaqueValue : Nat
  transparentValue : Nat
deriving DecidableEq, Repr, Inhabited

/-- A sequence parameter set extension. -/
structure SpsExtension where
  spsId : Nat
  auxFormatIdc : Nat
  auxFormat : Option AuxFormatInfo
  additionalExtension : Bool
deriving DecidableEq, Repr, Inhabited

/-- The format of auxiliary pictures; its values have one bit more than its samples. -/
def AuxFormatInfo.read : Read AuxFormatInfo := do
  let bitDepthMinus8 ← Read.ueMax "bit_depth_aux_minus8" 4
  let alphaIncrement ← Read.flag "alpha_incr_flag"
  let width := bitDepthMinus8 + 9
  let opaqueValue ← Read.bits width "alpha_opaque_value"
  let transparentValue ← Read.bits width "alpha_transparent_value"
  return { bitDepthMinus8, alphaIncrement, opaqueValue, transparentValue }

namespace SpsExtension

/-- A whole sequence parameter set extension. -/
def read : Read SpsExtension := do
  let spsId ← readSpsId
  let auxFormatIdc ← Read.ueMax "aux_format_idc" 3
  let auxFormat ← Read.optional (auxFormatIdc != 0) AuxFormatInfo.read
  let additionalExtension ← Read.flag "additional_extension_flag"
  Read.finishRbsp
  return { spsId, auxFormatIdc, auxFormat, additionalExtension }

/-- The sequence parameter set extension in a unit. -/
def ofUnit (unit : NalUnit) : Except Error SpsExtension :=
  unit.readRbsp read

end SpsExtension

end H264
