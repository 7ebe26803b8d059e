import H264.Proofs.Bits.Accepted
import H264.Sps.Vui

/-!
# Valid usability information

For each part of the usability information its valid values, whose elements read back, and what is
accepted, which is just the writing of valid values. Main statements: `VuiParameters.readsBack` and
`VuiParameters.accepts`.
-/

namespace H264

/-! ## Sample shape -/

/-- Valid shapes: the index of a ratio sent as such is no other shape. -/
def AspectRatio.Valid : AspectRatio → Prop
  | indexed idc => idc < extendedIdc
  | extended width height => width < 2 ^ 16 ∧ height < 2 ^ 16

theorem AspectRatio.readsBack {shape : AspectRatio} (h : shape.Valid) :
    ReadsBack AspectRatio.read shape.elements shape := by
  unfold AspectRatio.read
  cases shape with
  | indexed idc =>
    refine .cons (.u8 _ (Nat.lt_trans h (by decide))) ?_
    rw [if_neg (Nat.ne_of_lt h)]
    exact .pure _
  | extended width height =>
    refine .cons (.u8 _ (by decide)) ?_
    rw [if_pos rfl]
    exact .cons (.bits _ (by decide) h.1) <| .cons (.bits _ (by decide) h.2) <| .pure _

theorem AspectRatio.accepts : Accepts AspectRatio.read Valid elements := by
  unfold AspectRatio.read
  refine .part (.u8 _) fun idc hidc => .ite (fun hextended => ?_) fun hindexed => ?_
  · refine .part (.bits _ _) fun width hwidth => .part (.bits _ _) fun height hheight => ?_
    rw [hextended]
    exact .pure ⟨⟨hwidth, hheight⟩, rfl⟩
  · exact .pure ⟨Nat.lt_of_le_of_ne (Nat.le_of_lt_succ hidc) hindexed, rfl⟩

/-! ## Signal and sample location -/

/-- A valid colour space. -/
structure ColourDescription.Valid (colour : ColourDescription) : Prop where
  primaries : colour.primaries < 256
  transferCharacteristics : colour.transferCharacteristics < 256
  matrixCoefficients : colour.matrixCoefficients < 256

theorem ColourDescription.readsBack {colour : ColourDescription} (h : colour.Valid) :
    ReadsBack ColourDescription.read colour.elements colour :=
  .cons (.u8 _ h.primaries) <| .cons (.u8 _ h.transferCharacteristics) <|
    .cons (.u8 _ h.matrixCoefficients) <| .pure _

theorem ColourDescription.accepts : Accepts ColourDescription.read Valid elements :=
  .part (.u8 _) fun _ hprimaries => .part (.u8 _) fun _ htransfer =>
    .part (.u8 _) fun _ hmatrix => .pure ⟨⟨hprimaries, htransfer, hmatrix⟩, rfl⟩

/-- A valid kind of signal. -/
structure VideoSignalType.Valid (signal : VideoSignalType) : Prop where
  format : signal.format < 2 ^ 3
  colour : ∀ colour ∈ signal.colour, colour.Valid

theorem VideoSignalType.readsBack {signal : VideoSignalType} (h : signal.Valid) :
    ReadsBack VideoSignalType.read signal.elements signal := by
  unfold VideoSignalType.read VideoSignalType.elements
  simp only [List.cons_append, List.nil_append]
  refine .cons (.bits _ (by decide) h.format) <| .cons (.flag _ _) <| .of_append_nil ?_
  exact .bind (.flagged _ fun x hx => ColourDescription.readsBack (h.colour x hx)) <| .pure _

theorem VideoSignalType.accepts : Accepts VideoSignalType.read Valid elements :=
  .part (.bits _ _) fun _ hformat => .part (.flag _) fun _ _ =>
    .part (.flagged ColourDescription.accepts _) fun _ hcolour =>
    .pure ⟨⟨hformat, hcolour⟩, by simp [elements]⟩

/-- Valid chroma sample locations. -/
structure ChromaLocation.Valid (location : ChromaLocation) : Prop where
  topField : location.topField ≤ 5
  bottomField : location.bottomField ≤ 5

theorem ChromaLocation.readsBack {location : ChromaLocation} (h : location.Valid) :
    ReadsBack ChromaLocation.read location.elements location :=
  .cons (.ueMax _ h.topField (by decide)) <| .cons (.ueMax _ h.bottomField (by decide)) <| .pure _

theorem ChromaLocation.accepts : Accepts ChromaLocation.read Valid elements :=
  .part (.ueMax _ 5) fun _ htop => .part (.ueMax _ 5) fun _ hbottom => .pure ⟨⟨htop, hbottom⟩, rfl⟩

/-! ## Timing and limits -/

/-- A valid clock. -/
structure TimingInfo.Valid (timing : TimingInfo) : Prop where
  numUnitsInTick : timing.numUnitsInTick < 2 ^ 32
  timeScale : timing.timeScale < 2 ^ 32

theorem TimingInfo.readsBack {timing : TimingInfo} (h : timing.Valid) :
    ReadsBack TimingInfo.read timing.elements timing :=
  .cons (.bits _ (by decide) h.numUnitsInTick) <| .cons (.bits _ (by decide) h.timeScale) <|
    .cons (.flag _ _) <| .pure _

theorem TimingInfo.accepts : Accepts TimingInfo.read Valid elements :=
  .part (.bits _ _) fun _ hunits => .part (.bits _ _) fun _ hscale =>
    .part (.flag _) fun _ _ => .pure ⟨⟨hunits, hscale⟩, rfl⟩

/-- Limits whose numbers have a code. -/
structure BitstreamRestrictions.Valid (limits : BitstreamRestrictions) : Prop where
  maxBytesPerPicDenom : limits.maxBytesPerPicDenom ≤ Codeword.maxCodeNumber
  maxBitsPerMbDenom : limits.maxBitsPerMbDenom ≤ Codeword.maxCodeNumber
  log2MaxMvLengthHorizontal : limits.log2MaxMvLengthHorizontal ≤ Codeword.maxCodeNumber
  log2MaxMvLengthVertical : limits.log2MaxMvLengthVertical ≤ Codeword.maxCodeNumber
  maxNumReorderFrames : limits.maxNumReorderFrames ≤ Codeword.maxCodeNumber
  maxDecFrameBuffering : limits.maxDecFrameBuffering ≤ Codeword.maxCodeNumber

theorem BitstreamRestrictions.readsBack {limits : BitstreamRestrictions} (h : limits.Valid) :
    ReadsBack BitstreamRestrictions.read limits.elements limits :=
  .cons (.flag _ _) <| .cons (.ue _ h.maxBytesPerPicDenom) <| .cons (.ue _ h.maxBitsPerMbDenom) <|
    .cons (.ue _ h.log2MaxMvLengthHorizontal) <| .cons (.ue _ h.log2MaxMvLengthVertical) <|
    .cons (.ue _ h.maxNumReorderFrames) <| .cons (.ue _ h.maxDecFrameBuffering) <| .pure _

theorem BitstreamRestrictions.accepts : Accepts BitstreamRestrictions.read Valid elements :=
  .part (.flag _) fun _ _ => .part (.ue _) fun _ hbytes => .part (.ue _) fun _ hbits =>
    .part (.ue _) fun _ hhorizontal => .part (.ue _) fun _ hvertical =>
    .part (.ue _) fun _ hreorder => .part (.ue _) fun _ hbuffering =>
    .pure ⟨⟨hbytes, hbits, hhorizontal, hvertical, hreorder, hbuffering⟩, rfl⟩

/-! ## Buffers -/

/-- A coded picture buffer whose numbers have a code. -/
structure CpbSpec.Valid (spec : CpbSpec) : Prop where
  bitRateValueMinus1 : spec.bitRateValueMinus1 ≤ Codeword.maxCodeNumber
  cpbSizeValueMinus1 : spec.cpbSizeValueMinus1 ≤ Codeword.maxCodeNumber

theorem CpbSpec.readsBack {spec : CpbSpec} (h : spec.Valid) :
    ReadsBack CpbSpec.read spec.elements spec :=
  .cons (.ue _ h.bitRateValueMinus1) <| .cons (.ue _ h.cpbSizeValueMinus1) <|
    .cons (.flag _ _) <| .pure _

theorem CpbSpec.accepts : Accepts CpbSpec.read Valid elements :=
  .part (.ue _) fun _ hrate => .part (.ue _) fun _ hsize =>
    .part (.flag _) fun _ _ => .pure ⟨⟨hrate, hsize⟩, rfl⟩

/-- Valid buffer parameters: one to 32 buffers. -/
structure HrdParameters.Valid (hrd : HrdParameters) : Prop where
  bitRateScale : hrd.bitRateScale < 2 ^ 4
  cpbSizeScale : hrd.cpbSizeScale < 2 ^ 4
  cpbCount : 1 ≤ hrd.cpbSpecs.length ∧ hrd.cpbSpecs.length ≤ 32
  cpbSpecs : ∀ spec ∈ hrd.cpbSpecs, spec.Valid
  initialCpbRemovalDelayLengthMinus1 : hrd.initialCpbRemovalDelayLengthMinus1 < 2 ^ 5
  cpbRemovalDelayLengthMinus1 : hrd.cpbRemovalDelayLengthMinus1 < 2 ^ 5
  dpbOutputDelayLengthMinus1 : hrd.dpbOutputDelayLengthMinus1 < 2 ^ 5
  timeOffsetLength : hrd.timeOffsetLength < 2 ^ 5

theorem HrdParameters.readsBack {hrd : HrdParameters} (h : hrd.Valid) :
    ReadsBack HrdParameters.read hrd.elements hrd := by
  obtain ⟨hpos, hmost⟩ := h.cpbCount
  have hcount : hrd.cpbSpecs.length - 1 ≤ 31 := by omega
  unfold HrdParameters.read HrdParameters.elements
  simp only [List.cons_append, List.nil_append]
  refine .cons (.ueMax _ hcount (by decide)) ?_
  refine .cons (.bits _ (by decide) h.bitRateScale) ?_
  refine .cons (.bits _ (by decide) h.cpbSizeScale) ?_
  refine .bind (.times (by omega) fun spec hspec => CpbSpec.readsBack (h.cpbSpecs spec hspec)) ?_
  exact .cons (.bits _ (by decide) h.initialCpbRemovalDelayLengthMinus1) <|
    .cons (.bits _ (by decide) h.cpbRemovalDelayLengthMinus1) <|
    .cons (.bits _ (by decide) h.dpbOutputDelayLengthMinus1) <|
    .cons (.bits _ (by decide) h.timeOffsetLength) <| .pure _

theorem HrdParameters.accepts : Accepts HrdParameters.read Valid elements := by
  unfold HrdParameters.read
  refine .part (.ueMax _ 31) fun count hcount => .part (.bits _ _) fun rateScale hrate => ?_
  refine .part (.bits _ _) fun sizeScale hsize => ?_
  refine .part (.times CpbSpec.accepts _) fun specs ⟨hlength, hspecs⟩ => ?_
  refine .part (.bits _ _) fun initial hinitial => .part (.bits _ _) fun removal hremoval => ?_
  refine .part (.bits _ _) fun output houtput => .part (.bits _ _) fun offset hoffset => ?_
  have hrange : 1 ≤ specs.length ∧ specs.length ≤ 32 := by omega
  have hminus : specs.length - 1 = count := by omega
  refine .pure ⟨⟨hrate, hsize, hrange, hspecs, hinitial, hremoval, houtput, hoffset⟩, ?_⟩
  simp [elements, hminus]

/-! ## All of it -/

/-- Valid usability information: a low delay is announced just where there are buffer parameters. -/
structure VuiParameters.Valid (vui : VuiParameters) : Prop where
  aspectRatio : ∀ shape ∈ vui.aspectRatio, shape.Valid
  videoSignalType : ∀ signal ∈ vui.videoSignalType, signal.Valid
  chromaLocation : ∀ location ∈ vui.chromaLocation, location.Valid
  timing : ∀ timing ∈ vui.timing, timing.Valid
  nalHrd : ∀ hrd ∈ vui.nalHrd, hrd.Valid
  vclHrd : ∀ hrd ∈ vui.vclHrd, hrd.Valid
  lowDelayHrd : vui.lowDelayHrd.isSome = (vui.nalHrd.isSome || vui.vclHrd.isSome)
  restrictions : ∀ limits ∈ vui.restrictions, limits.Valid

theorem VuiParameters.readsBack {vui : VuiParameters} (h : vui.Valid) :
    ReadsBack VuiParameters.read vui.elements vui := by
  unfold VuiParameters.read VuiParameters.elements
  simp only [List.append_assoc, List.singleton_append]
  refine .bind (.flagged _ fun x hx => AspectRatio.readsBack (h.aspectRatio x hx)) ?_
  refine .bind (.flagged _ fun x _ => .flag _ x) ?_
  refine .bind (.flagged _ fun x hx => VideoSignalType.readsBack (h.videoSignalType x hx)) ?_
  refine .bind (.flagged _ fun x hx => ChromaLocation.readsBack (h.chromaLocation x hx)) ?_
  refine .bind (.flagged _ fun x hx => TimingInfo.readsBack (h.timing x hx)) ?_
  refine .bind (.flagged _ fun x hx => HrdParameters.readsBack (h.nalHrd x hx)) ?_
  refine .bind (.flagged _ fun x hx => HrdParameters.readsBack (h.vclHrd x hx)) ?_
  refine .bind (.optional h.lowDelayHrd fun x _ => .flag _ x) ?_
  refine .cons (.flag _ _) <| .of_append_nil ?_
  exact .bind (.flagged _ fun x hx => BitstreamRestrictions.readsBack (h.restrictions x hx)) <|
    .pure _

theorem VuiParameters.accepts : Accepts VuiParameters.read Valid elements := by
  unfold VuiParameters.read
  refine .part (.flagged AspectRatio.accepts _) fun aspectRatio haspectRatio => ?_
  refine .part (.flagged (.flag _) _) fun overscan _ => ?_
  refine .part (.flagged VideoSignalType.accepts _) fun signal hsignal => ?_
  refine .part (.flagged ChromaLocation.accepts _) fun location hlocation => ?_
  refine .part (.flagged TimingInfo.accepts _) fun timing htiming => ?_
  refine .part (.flagged HrdParameters.accepts _) fun nalHrd hnalHrd => ?_
  refine .part (.flagged HrdParameters.accepts _) fun vclHrd hvclHrd => ?_
  refine .part (.optional (.flag _) _) fun lowDelay ⟨hlowDelay, _⟩ => ?_
  refine .part (.flag _) fun picStruct _ => ?_
  refine .part (.flagged BitstreamRestrictions.accepts _) fun limits hlimits => .pure ⟨?_, ?_⟩
  · exact ⟨haspectRatio, hsignal, hlocation, htiming, hnalHrd, hvclHrd, hlowDelay, hlimits⟩
  · simp [elements]

end H264
