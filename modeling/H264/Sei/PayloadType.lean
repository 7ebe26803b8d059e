/-!
# Message types

The types of supplemental messages by number, with the symbols of those that Table D-1 names. Other
numbers are reserved and have none; a message in a payload never has a negative one.
-/

namespace H264

/-- The type of a supplemental message. -/
structure PayloadType where
  number : Int
deriving DecidableEq, Repr, Inhabited

namespace PayloadType

/-- Initial delays of the coded picture buffers. -/
def bufferingPeriod : PayloadType := ⟨0⟩

/-- Delays and clock times of a picture. -/
def picTiming : PayloadType := ⟨1⟩

/-- User data registered by Recommendation T.35. -/
def userDataRegistered : PayloadType := ⟨4⟩

/-- User data under an identifier of the user's own. -/
def userDataUnregistered : PayloadType := ⟨5⟩

/-- The symbol of a type that has one. -/
def symbol? (type : PayloadType) : Option String :=
  match type.number with
  | 0 => some "BUFFERING_PERIOD"
  | 1 => some "PIC_TIMING"
  | 2 => some "PAN_SCAN_RECT"
  | 3 => some "FILLER_PAYLOAD"
  | 4 => some "USER_DATA_REGISTERED_ITU_T_T35"
  | 5 => some "USER_DATA_UNREGISTERED"
  | 6 => some "RECOVERY_POINT"
  | 7 => some "DEC_REF_PIC_MARKING_REPETITION"
  | 8 => some "SPARE_PIC"
  | 9 => some "SCENE_INFO"
  | 10 => some "SUB_SEQ_INFO"
  | 11 => some "SUB_SEQ_LAYER_CHARACTERISTICS"
  | 12 => some "SUB_SEQ_CHARACTERISTICS"
  | 13 => some "FULL_FRAME_FREEZE"
  | 14 => some "FULL_FRAME_FREEZE_RELEASE"
  | 15 => some "FULL_FRAME_SNAPSHOT"
  | 16 => some "PROGRESSIVE_REFINEMENT_SEGMENT_START"
  | 17 => some "PROGRESSIVE_REFINEMENT_SEGMENT_END"
  | 18 => some "MOTION_CONSTRAINED_SLICE_GROUP_SET"
  | 19 => some "FILM_GRAIN_CHARACTERISTICS"
  | 20 => some "DEBLOCKING_FILTER_DISPLAY_PREFERENCE"
  | 21 => some "STEREO_VIDEO_INFO"
  | 22 => some "POST_FILTER_HINT"
  | 23 => some "TONE_MAPPING_INFO"
  | 24 => some "SCALABILITY_INFO"
  | 25 => some "SUB_PIC_SCALABLE_LAYER"
  | 26 => some "NON_REQUIRED_LAYER_REP"
  | 27 => some "PRIORITY_LAYER_INFO"
  | 28 => some "LAYERS_NOT_PRESENT"
  | 29 => some "LAYER_DEPENDENCY_CHANGE"
  | 30 => some "SCALABLE_NESTING"
  | 31 => some "BASE_LAYER_TEMPORAL_HRD"
  | 32 => some "QUALITY_LAYER_INTEGRITY_CHECK"
  | 33 => some "REDUNDANT_PIC_PROPERTY"
  | 34 => some "TL0_DEP_REP_INDEX"
  | 35 => some "TL_SWITCHING_POINT"
  | 36 => some "PARALLEL_DECODING_INFO"
  | 37 => some "MVC_SCALABLE_NESTING"
  | 38 => some "VIEW_SCALABILITY_INFO"
  | 39 => some "MULTIVIEW_SCENE_INFO"
  | 40 => some "MULTIVIEW_ACQUISITION_INFO"
  | 41 => some "NON_REQUIRED_VIEW_COMPONENT"
  | 42 => some "VIEW_DEPENDENCY_CHANGE"
  | 43 => some "OPERATION_POINTS_NOT_PRESENT"
  | 44 => some "BASE_VIEW_TEMPORAL_HRD"
  | 45 => some "FRAME_PACKING_ARRANGEMENT"
  | 46 => some "MULTIVIEW_VIEW_POSITION"
  | 47 => some "DISPLAY_ORIENTATION"
  | 48 => some "MVCD_SCALABLE_NESTING"
  | 49 => some "MVCD_VIEW_SCALABILITY_INFO"
  | 50 => some "DEPTH_REPRESENTATION_INFO"
  | 51 => some "THREE_DIMENSIONAL_REFERENCE_DISPLAYS_INFO"
  | 52 => some "DEPTH_TIMING"
  | 53 => some "DEPTH_SAMPLING_INFO"
  | 54 => some "CONSTRAINED_DEPTH_PARAMETER_SET_IDENTIFIER"
  | 56 => some "GREEN_METADATA"
  | 137 => some "MASTERING_DISPLAY_COLOUR_VOLUME"
  | 142 => some "COLOUR_REMAPPING_INFO"
  | 147 => some "ALTERNATIVE_TRANSFER_CHARACTERISTICS"
  | 188 => some "ALTERNATIVE_DEPTH_INFO"
  | _ => none

/-- The symbol of a type, or else its number. -/
def text (type : PayloadType) : String :=
  type.symbol?.getD (toString type.number)

end PayloadType

end H264
