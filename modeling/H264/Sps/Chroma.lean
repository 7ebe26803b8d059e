import H264.Scaling.Weights
import H264.Sps.Profile

/-!
# Chroma format and bit depths

The part of a sequence parameter set that only the high profiles carry; the other profiles have
4:2:0 chroma with eight bits per sample.
-/

namespace H264

/-- How chroma samples are laid out against luma samples. -/
inductive ChromaFormat
  | monochrome
  | yuv420
  | yuv422
  | yuv444
deriving DecidableEq, Repr, Inhabited

namespace ChromaFormat

/-- The `chroma_format_idc` of a format. -/
def idc : ChromaFormat → Nat
  | monochrome => 0
  | yuv420 => 1
  | yuv422 => 2
  | yuv444 => 3

/-- The format of a `chroma_format_idc` of at most 3. -/
def ofIdc : Nat → ChromaFormat
  | 0 => monochrome
  | 1 => yuv420
  | 2 => yuv422
  | _ => yuv444

/-- The format of a number that a caller gives, which has to be one of 0 to 3. -/
def ofNumber (number : Int) : Except Misuse ChromaFormat :=
  if 0 ≤ number ∧ number ≤ 3 then .ok (ofIdc number.toNat)
  else .error (.noMember (.number number) "ChromaFormat")

/-- The symbol that names a format in reports. -/
def symbol : ChromaFormat → String
  | monochrome => "MONOCHROME"
  | yuv420 => "YUV420"
  | yuv422 => "YUV422"
  | yuv444 => "YUV444"

/-- Luma samples per chroma sample, horizontally. -/
def subWidth : ChromaFormat → Nat
  | yuv420 | yuv422 => 2
  | monochrome | yuv444 => 1

/-- Luma samples per chroma sample, vertically. -/
def subHeight : ChromaFormat → Nat
  | yuv420 => 2
  | monochrome | yuv422 | yuv444 => 1

/-- The number of scaling lists of a sequence. -/
def scalingListCount (format : ChromaFormat) : Nat :=
  if format = yuv444 then 12 else 8

end ChromaFormat

/-- Chroma format, bit depths and scaling lists of a sequence. -/
structure ChromaInfo where
  format : ChromaFormat := .yuv420
  separateColourPlane : Bool := false
  bitDepthLumaMinus8 : Nat := 0
  bitDepthChromaMinus8 : Nat := 0
  qpprimeYZeroTransformBypass : Bool := false
  scalingMatrix : Option ScalingMatrix := none
deriving DecidableEq, Repr, Inhabited

namespace ChromaInfo

/-- The fields as the high profiles send them. -/
def readFields : Read ChromaInfo := do
  let format := ChromaFormat.ofIdc (← Read.ueMax "chroma_format_idc" 3)
  let separateColourPlane ←
    if format = .yuv444 then Read.flag "separate_colour_plane_flag" else pure false
  let bitDepthLumaMinus8 ← Read.ueMax "bit_depth_luma_minus8" 6
  let bitDepthChromaMinus8 ← Read.ueMax "bit_depth_chroma_minus8" 6
  let qpprimeYZeroTransformBypass ← Read.flag "qpprime_y_zero_transform_bypass_flag"
  let scalingMatrix ← Read.flagged "seq_scaling_matrix_present_flag"
    (ScalingMatrix.read format.scalingListCount)
  return { format, separateColourPlane, bitDepthLumaMinus8, bitDepthChromaMinus8,
           qpprimeYZeroTransformBypass, scalingMatrix }

/-- The fields of a sequence of a profile: sent by the high profiles, else the defaults. -/
def read (profileIdc : Nat) : Read ChromaInfo :=
  if Profile.highIdcs.contains profileIdc then readFields else return {}

/-- The elements that the high profiles send. -/
def fieldElements (info : ChromaInfo) : List Element :=
  .ue info.format.idc ::
  (if info.format = .yuv444 then [.flag info.separateColourPlane] else []) ++
  [.ue info.bitDepthLumaMinus8, .ue info.bitDepthChromaMinus8,
   .flag info.qpprimeYZeroTransformBypass] ++
  Element.flagged ScalingMatrix.elements info.scalingMatrix

/-- The elements of a sequence of a profile. -/
def elements (profileIdc : Nat) (info : ChromaInfo) : List Element :=
  if Profile.highIdcs.contains profileIdc then info.fieldElements else []

/-- `ChromaArrayType`: the format, unless the colour planes are coded apart. -/
def arrayType (info : ChromaInfo) : Nat :=
  if info.separateColourPlane then 0 else info.format.idc

/-- Whether a picture has chroma planes that are coded with its luma plane. -/
def hasPlanes (info : ChromaInfo) : Bool :=
  info.arrayType != 0

end ChromaInfo

end H264
