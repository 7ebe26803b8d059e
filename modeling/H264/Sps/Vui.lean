import H264.Sps.Hrd

/-!
# Video usability information

What a display needs to know of a sequence (Annex E): sample shape, signal type, timing, buffers.
Each part is sent after a flag that says whether it is present.
-/

namespace H264

/-! ## Sample shape -/

/-- The shape of a sample: an entry of Table E-1 or a ratio sent as such. -/
inductive AspectRatio
  | indexed (idc : Nat)
  | extended (width height : Nat)
deriving DecidableEq, Repr, Inhabited

namespace AspectRatio

/-- The index that announces a ratio sent as such. -/
def extendedIdc : Nat := 255

/-- The `aspect_ratio_idc` of a shape. -/
def idc : AspectRatio → Nat
  | indexed idc => idc
  | extended .. => extendedIdc

/-- Table E-1 from its index 1 on. -/
def table : List (Nat × Nat) :=
  [(1, 1), (12, 11), (10, 11), (16, 11), (40, 33), (24, 11), (20, 11), (32, 11),
   (80, 33), (18, 11), (15, 11), (64, 33), (160, 99), (4, 3), (3, 2), (2, 1)]

/-- The shape. -/
def read : Read AspectRatio := do
  let idc ← Read.u8 "aspect_ratio_idc"
  if idc = extendedIdc then
    return .extended (← Read.bits 16 "sar_width") (← Read.bits 16 "sar_height")
  return .indexed idc

/-- The elements of a shape. -/
def elements : AspectRatio → List Element
  | indexed idc => [.u 8 idc]
  | extended width height => [.u 8 extendedIdc, .u 16 width, .u 16 height]

/-- Width and height of a sample, where they are specified. -/
def ratio? : AspectRatio → Option (Nat × Nat)
  | extended width height => if width ≠ 0 ∧ height ≠ 0 then some (width, height) else none
  | indexed 0 => none
  | indexed (index + 1) => table[index]?

end AspectRatio

/-! ## Signal and sample location -/

/-- The colour space of a signal. -/
structure ColourDescription where
  primaries : Nat
  transferCharacteristics : Nat
  matrixCoefficients : Nat
deriving DecidableEq, Repr, Inhabited

/-- The kind of signal that the pictures came from. -/
structure VideoSignalType where
  format : Nat
  fullRange : Bool
  colour : Option ColourDescription
deriving DecidableEq, Repr, Inhabited

/-- Where chroma samples lie in each field. -/
structure ChromaLocation where
  topField : Nat
  bottomField : Nat
deriving DecidableEq, Repr, Inhabited

/-- The colour space. -/
def ColourDescription.read : Read ColourDescription :=
  return {
    primaries := ← Read.u8 "colour_primaries"
    transferCharacteristics := ← Read.u8 "transfer_characteristics"
    matrixCoefficients := ← Read.u8 "matrix_coefficients" }

/-- The kind of signal. -/
def VideoSignalType.read : Read VideoSignalType :=
  return {
    format := ← Read.bits 3 "video_format"
    fullRange := ← Read.flag "video_full_range_flag"
    colour := ← Read.flagged "colour_description_present_flag" ColourDescription.read }

/-- The elements of a colour space. -/
def ColourDescription.elements (colour : ColourDescription) : List Element :=
  [.u 8 colour.primaries, .u 8 colour.transferCharacteristics, .u 8 colour.matrixCoefficients]

/-- The elements of a kind of signal. -/
def VideoSignalType.elements (signal : VideoSignalType) : List Element :=
  [.u 3 signal.format, .flag signal.fullRange] ++
  Element.flagged ColourDescription.elements signal.colour

/-- The chroma sample locations. -/
def ChromaLocation.read : Read ChromaLocation :=
  return {
    topField := ← Read.ueMax "chroma_sample_loc_type_top_field" 5
    bottomField := ← Read.ueMax "chroma_sample_loc_type_bottom_field" 5 }

/-- The elements of the chroma sample locations. -/
def ChromaLocation.elements (location : ChromaLocation) : List Element :=
  [.ue location.topField, .ue location.bottomField]

/-! ## Timing -/

/-- The clock of a sequence. -/
structure TimingInfo where
  numUnitsInTick : Nat
  timeScale : Nat
  fixedFrameRate : Bool
deriving DecidableEq, Repr, Inhabited

namespace TimingInfo

/-- The clock. -/
def read : Read TimingInfo :=
  return {
    numUnitsInTick := ← Read.bits 32 "num_units_in_tick"
    timeScale := ← Read.bits 32 "time_scale"
    fixedFrameRate := ← Read.flag "fixed_frame_rate_flag" }

/-- The elements of a clock. -/
def elements (timing : TimingInfo) : List Element :=
  [.u 32 timing.numUnitsInTick, .u 32 timing.timeScale, .flag timing.fixedFrameRate]

/-- Frames per second in lowest terms, with two ticks for a frame. -/
def frameRate? (timing : TimingInfo) : Option (Nat × Nat) :=
  if timing.numUnitsInTick = 0 ∨ timing.timeScale = 0 then none
  else
    let divisor := Nat.gcd timing.timeScale (2 * timing.numUnitsInTick)
    some (timing.timeScale / divisor, 2 * timing.numUnitsInTick / divisor)

end TimingInfo

/-! ## Limits -/

/-- Limits that the coded pictures keep. -/
structure BitstreamRestrictions where
  motionVectorsOverPicBoundaries : Bool
  maxBytesPerPicDenom : Nat
  maxBitsPerMbDenom : Nat
  log2MaxMvLengthHorizontal : Nat
  log2MaxMvLengthVertical : Nat
  maxNumReorderFrames : Nat
  maxDecFrameBuffering : Nat
deriving DecidableEq, Repr, Inhabited

/-- The limits. -/
def BitstreamRestrictions.read : Read BitstreamRestrictions :=
  return {
    motionVectorsOverPicBoundaries := ← Read.flag "motion_vectors_over_pic_boundaries_flag"
    maxBytesPerPicDenom := ← Read.ue "max_bytes_per_pic_denom"
    maxBitsPerMbDenom := ← Read.ue "max_bits_per_mb_denom"
    log2MaxMvLengthHorizontal := ← Read.ue "log2_max_mv_length_horizontal"
    log2MaxMvLengthVertical := ← Read.ue "log2_max_mv_length_vertical"
    maxNumReorderFrames := ← Read.ue "max_num_reorder_frames"
    maxDecFrameBuffering := ← Read.ue "max_dec_frame_buffering" }

/-- The elements of the limits. -/
def BitstreamRestrictions.elements (limits : BitstreamRestrictions) : List Element :=
  [.flag limits.motionVectorsOverPicBoundaries, .ue limits.maxBytesPerPicDenom,
   .ue limits.maxBitsPerMbDenom, .ue limits.log2MaxMvLengthHorizontal,
   .ue limits.log2MaxMvLengthVertical, .ue limits.maxNumReorderFrames,
   .ue limits.maxDecFrameBuffering]

/-! ## All of it -/

/-- The usability information of a sequence. -/
structure VuiParameters where
  aspectRatio : Option AspectRatio := none
  overscanAppropriate : Option Bool := none
  videoSignalType : Option VideoSignalType := none
  chromaLocation : Option ChromaLocation := none
  timing : Option TimingInfo := none
  nalHrd : Option HrdParameters := none
  vclHrd : Option HrdParameters := none
  lowDelayHrd : Option Bool := none
  picStructPresent : Bool := false
  restrictions : Option BitstreamRestrictions := none
deriving DecidableEq, Repr, Inhabited

namespace VuiParameters

/-- The usability information. -/
def read : Read VuiParameters := do
  let aspectRatio ← Read.flagged "aspect_ratio_info_present_flag" AspectRatio.read
  let overscanAppropriate ←
    Read.flagged "overscan_info_present_flag" (Read.flag "overscan_appropriate_flag")
  let videoSignalType ← Read.flagged "video_signal_type_present_flag" VideoSignalType.read
  let chromaLocation ← Read.flagged "chroma_loc_info_present_flag" ChromaLocation.read
  let timing ← Read.flagged "timing_info_present_flag" TimingInfo.read
  let nalHrd ← Read.flagged "nal_hrd_parameters_present_flag" HrdParameters.read
  let vclHrd ← Read.flagged "vcl_hrd_parameters_present_flag" HrdParameters.read
  let lowDelayHrd ← Read.optional (nalHrd.isSome || vclHrd.isSome) (Read.flag "low_delay_hrd_flag")
  let picStructPresent ← Read.flag "pic_struct_present_flag"
  let restrictions ← Read.flagged "bitstream_restriction_flag" BitstreamRestrictions.read
  return { aspectRatio, overscanAppropriate, videoSignalType, chromaLocation, timing, nalHrd,
           vclHrd, lowDelayHrd, picStructPresent, restrictions }

/-- The elements of the usability information. -/
def elements (vui : VuiParameters) : List Element :=
  Element.flagged AspectRatio.elements vui.aspectRatio ++
  Element.flagged (fun appropriate => [.flag appropriate]) vui.overscanAppropriate ++
  Element.flagged VideoSignalType.elements vui.videoSignalType ++
  Element.flagged ChromaLocation.elements vui.chromaLocation ++
  Element.flagged TimingInfo.elements vui.timing ++
  Element.flagged HrdParameters.elements vui.nalHrd ++
  Element.flagged HrdParameters.elements vui.vclHrd ++
  Element.sent (fun lowDelay => [.flag lowDelay]) vui.lowDelayHrd ++
  [.flag vui.picStructPresent] ++
  Element.flagged BitstreamRestrictions.elements vui.restrictions

/-- The buffer parameters that timing messages follow: those of the whole stream first. -/
def hrd? (vui : VuiParameters) : Option HrdParameters :=
  vui.nalHrd <|> vui.vclHrd

end VuiParameters

end H264
