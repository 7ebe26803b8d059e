/-!
# Profiles

The profiles of Annexes A, G and H by their `profile_idc`, and the groups of numbers on which the
syntax of a sequence parameter set depends. A number without a profile is `unknown`.
-/

namespace H264

/-- A coding profile. -/
inductive Profile
  | unknown
  | cavlc444Intra
  | baseline
  | main
  | scalableBaseline
  | scalableHigh
  | extended
  | high
  | high10
  | multiviewHigh
  | high422
  | stereoHigh
  | mfcHigh
  | mfcDepthHigh
  | multiviewDepthHigh
  | enhancedMultiviewDepthHigh
  | high444
deriving DecidableEq, Repr, Inhabited

namespace Profile

/-- The `profile_idc` of a profile; `unknown` has 0. -/
def idc : Profile → Nat
  | unknown => 0
  | cavlc444Intra => 44
  | baseline => 66
  | main => 77
  | scalableBaseline => 83
  | scalableHigh => 86
  | extended => 88
  | high => 100
  | high10 => 110
  | multiviewHigh => 118
  | high422 => 122
  | stereoHigh => 128
  | mfcHigh => 134
  | mfcDepthHigh => 135
  | multiviewDepthHigh => 138
  | enhancedMultiviewDepthHigh => 139
  | high444 => 244

/-- The profile that a `profile_idc` names. -/
def ofIdc : Nat → Profile
  | 44 => cavlc444Intra
  | 66 => baseline
  | 77 => main
  | 83 => scalableBaseline
  | 86 => scalableHigh
  | 88 => extended
  | 100 => high
  | 110 => high10
  | 118 => multiviewHigh
  | 122 => high422
  | 128 => stereoHigh
  | 134 => mfcHigh
  | 135 => mfcDepthHigh
  | 138 => multiviewDepthHigh
  | 139 => enhancedMultiviewDepthHigh
  | 244 => high444
  | _ => unknown

/-- The symbol that names a profile in reports. -/
def symbol : Profile → String
  | unknown => "UNKNOWN"
  | cavlc444Intra => "CAVLC444_INTRA"
  | baseline => "BASELINE"
  | main => "MAIN"
  | scalableBaseline => "SCALABLE_BASELINE"
  | scalableHigh => "SCALABLE_HIGH"
  | extended => "EXTENDED"
  | high => "HIGH"
  | high10 => "HIGH10"
  | multiviewHigh => "MULTIVIEW_HIGH"
  | high422 => "HIGH422"
  | stereoHigh => "STEREO_HIGH"
  | mfcHigh => "MFC_HIGH"
  | mfcDepthHigh => "MFC_DEPTH_HIGH"
  | multiviewDepthHigh => "MULTIVIEW_DEPTH_HIGH"
  | enhancedMultiviewDepthHigh => "ENHANCED_MULTIVIEW_DEPTH_HIGH"
  | high444 => "HIGH444"

/-! ## Groups of profile numbers -/

/-- The profiles whose parameter sets carry chroma format, bit depths and scaling lists. -/
def highIdcs : List Nat := [100, 110, 122, 244, 44, 83, 86, 118, 128, 138, 139, 134, 135]

/-- The profiles with an intra form, which `constraint_set3_flag` selects. -/
def intraIdcs : List Nat := [44, 86, 100, 110, 122, 244]

/-- The profiles of scalable video coding. -/
def scalableIdcs : List Nat := [83, 86]

/-- The profiles of multiview video coding. -/
def multiviewIdcs : List Nat := [118, 128, 134]

/-- The profiles of multiview coding with depth. -/
def depthIdcs : List Nat := [135, 138, 139]

/-- Whether the profile is one of `highIdcs`. -/
def isHigh (profile : Profile) : Bool :=
  highIdcs.contains profile.idc

end Profile

end H264
