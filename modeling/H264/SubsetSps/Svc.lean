import H264.Sps.Basic

/-!
# Scalable extension of a sequence parameter set

The fields that the scalable profiles add (G.7.3.2.1.4). What is not sent has an inferred value.
-/

namespace H264

/-- The scalable extension. -/
structure SvcSpsExtension where
  interLayerDeblockingFilterControlPresent : Bool
  extendedSpatialScalabilityIdc : Nat
  chromaPhaseXPlus1 : Bool
  chromaPhaseYPlus1 : Nat
  refLayerChromaPhaseXPlus1 : Bool
  refLayerChromaPhaseYPlus1 : Nat
  scaledRefLayerLeftOffset : Int
  scaledRefLayerTopOffset : Int
  scaledRefLayerRightOffset : Int
  scaledRefLayerBottomOffset : Int
  tcoeffLevelPrediction : Bool
  adaptiveTcoeffLevelPrediction : Bool
  sliceHeaderRestriction : Bool
  vuiParametersPresent : Bool
deriving DecidableEq, Repr, Inhabited

namespace SvcSpsExtension

/-- Whether a chroma phase is sent horizontally for a `ChromaArrayType`. -/
def hasPhaseX (arrayType : Nat) : Bool :=
  arrayType == 1 || arrayType == 2

/-- Whether a chroma phase is sent vertically for a `ChromaArrayType`. -/
def hasPhaseY (arrayType : Nat) : Bool :=
  arrayType == 1

/-- The vertical phase where none is sent. -/
def inferredPhaseY (arrayType : Nat) : Nat :=
  if arrayType = 0 then 0 else 1

/-- The extension of a sequence with the given `ChromaArrayType`. -/
def read (arrayType : Nat) : Read SvcSpsExtension := do
  let interLayerDeblockingFilterControlPresent ←
    Read.flag "inter_layer_deblocking_filter_control_present_flag"
  let extendedSpatialScalabilityIdc ← Read.bits 2 "extended_spatial_scalability_idc"
  let phaseX (sent : Bool) (name : String) : Read Bool :=
    if sent && hasPhaseX arrayType then Read.flag name else return false
  let phaseY (sent : Bool) (name : String) : Read Nat :=
    if sent && hasPhaseY arrayType then Read.bits 2 name else return inferredPhaseY arrayType
  let chromaPhaseXPlus1 ← phaseX true "chroma_phase_x_plus1_flag"
  let chromaPhaseYPlus1 ← phaseY true "chroma_phase_y_plus1"
  let sent := extendedSpatialScalabilityIdc == 1
  let offset (name : String) : Read Int := if sent then Read.se name else return 0
  let refLayerChromaPhaseXPlus1 ← phaseX sent "seq_ref_layer_chroma_phase_x_plus1_flag"
  let refLayerChromaPhaseYPlus1 ← phaseY sent "seq_ref_layer_chroma_phase_y_plus1"
  let scaledRefLayerLeftOffset ← offset "seq_scaled_ref_layer_left_offset"
  let scaledRefLayerTopOffset ← offset "seq_scaled_ref_layer_top_offset"
  let scaledRefLayerRightOffset ← offset "seq_scaled_ref_layer_right_offset"
  let scaledRefLayerBottomOffset ← offset "seq_scaled_ref_layer_bottom_offset"
  let tcoeffLevelPrediction ← Read.flag "seq_tcoeff_level_prediction_flag"
  let adaptiveTcoeffLevelPrediction ←
    if tcoeffLevelPrediction then Read.flag "adaptive_tcoeff_level_prediction_flag"
    else pure false
  let sliceHeaderRestriction ← Read.flag "slice_header_restriction_flag"
  let vuiParametersPresent ← Read.flag "svc_vui_parameters_present_flag"
  return { interLayerDeblockingFilterControlPresent, extendedSpatialScalabilityIdc,
           chromaPhaseXPlus1, chromaPhaseYPlus1, refLayerChromaPhaseXPlus1,
           refLayerChromaPhaseYPlus1, scaledRefLayerLeftOffset, scaledRefLayerTopOffset,
           scaledRefLayerRightOffset, scaledRefLayerBottomOffset, tcoeffLevelPrediction,
           adaptiveTcoeffLevelPrediction, sliceHeaderRestriction, vuiParametersPresent }

/-- The elements of the chroma phases that are sent for a `ChromaArrayType`. -/
def phaseElements (arrayType : Nat) (phaseX : Bool) (phaseY : Nat) : List Element :=
  (if hasPhaseX arrayType then [.flag phaseX] else []) ++
  (if hasPhaseY arrayType then [.u 2 phaseY] else [])

/-- The elements of what a reference layer of another size adds. -/
def refLayerElements (arrayType : Nat) (fields : SvcSpsExtension) : List Element :=
  phaseElements arrayType fields.refLayerChromaPhaseXPlus1 fields.refLayerChromaPhaseYPlus1 ++
  [.se fields.scaledRefLayerLeftOffset, .se fields.scaledRefLayerTopOffset,
   .se fields.scaledRefLayerRightOffset, .se fields.scaledRefLayerBottomOffset]

/-- The elements of the extension of a sequence with the given `ChromaArrayType`. -/
def elements (arrayType : Nat) (fields : SvcSpsExtension) : List Element :=
  [.flag fields.interLayerDeblockingFilterControlPresent,
   .u 2 fields.extendedSpatialScalabilityIdc] ++
  phaseElements arrayType fields.chromaPhaseXPlus1 fields.chromaPhaseYPlus1 ++
  (if fields.extendedSpatialScalabilityIdc = 1 then refLayerElements arrayType fields else []) ++
  [.flag fields.tcoeffLevelPrediction] ++
  (if fields.tcoeffLevelPrediction then [.flag fields.adaptiveTcoeffLevelPrediction] else []) ++
  [.flag fields.sliceHeaderRestriction, .flag fields.vuiParametersPresent]

end SvcSpsExtension

end H264
