import H264.Proofs.Config.Layout

/-!
# What decoder configuration records show

The units of a record are ranges of the data that lie behind one another, and its values are bytes
of the data: `ofBytes_iff_layout` says so of every record, and which data is one.
-/

namespace H264

/-- A part of some bytes is the unit of its range. -/
theorem NalUnit.ofRange_append (front bytes back : Bytes) :
    ofRange (front ++ (bytes ++ back)) front.length ↑(front.length + bytes.length) =
      .ok { start := front.length, bytes } := by
  have hinside : (0 : Int) ≤ front.length ∧
      (front.length : Int) ≤ ↑(front.length + bytes.length) ∧
      (↑(front.length + bytes.length) : Int) ≤ (front ++ (bytes ++ back)).length := by
    rw [List.length_append, List.length_append]
    omega
  rw [ofRange, if_pos hinside, Int.toNat_natCast, Int.toNat_natCast, slice,
    List.drop_left, Nat.add_sub_cancel_left, List.take_left]

namespace DecoderConfig

/-! ## Ranges of the data -/

/-- Units that are ranges of the data between `start` and `stop`, each behind the one before. -/
structure InOrder (data : Bytes) (start stop : Nat) (units : List NalUnit) : Prop where
  ranges : ∀ unit ∈ units, NalUnit.ofRange data unit.start unit.stop = .ok unit
  bounds : ∀ unit ∈ units, start ≤ unit.start ∧ unit.stop ≤ stop
  apart : units.Pairwise fun first second => first.stop ≤ second.start

namespace InOrder

variable {data : Bytes} {start middle stop : Nat} {units front back : List NalUnit}

theorem nil : InOrder data start stop [] :=
  ⟨nofun, nofun, .nil⟩

theorem widen {first last : Nat} (h : InOrder data start stop units) (hfirst : first ≤ start)
    (hlast : stop ≤ last) : InOrder data first last units where
  ranges := h.ranges
  bounds := by
    intro unit hunit
    have := h.bounds unit hunit
    omega
  apart := h.apart

theorem append (hfront : InOrder data start middle front) (hback : InOrder data middle stop back)
    (hstart : start ≤ middle) (hstop : middle ≤ stop) : InOrder data start stop (front ++ back) where
  ranges := by
    intro unit hunit
    rcases List.mem_append.mp hunit with hmem | hmem
    · exact hfront.ranges unit hmem
    · exact hback.ranges unit hmem
  bounds := by
    intro unit hunit
    rcases List.mem_append.mp hunit with hmem | hmem
    · exact (hfront.widen le_rfl hstop).bounds unit hmem
    · exact (hback.widen hstart le_rfl).bounds unit hmem
  apart := by
    refine List.pairwise_append.mpr ⟨hfront.apart, hback.apart, ?_⟩
    intro first hfirst second hsecond
    exact (hfront.bounds first hfirst).2.trans (hback.bounds second hsecond).1

theorem unit {expected : UnitType} (entry : Entry expected) (before after : Bytes) :
    InOrder (before ++ (entry.stored ++ after)) before.length
      (before.length + entry.stored.length) [entry.unit before.length] where
  ranges := by
    intro unit hunit
    obtain rfl := List.mem_singleton.mp hunit
    have hrange := NalUnit.ofRange_append (before ++ Bytes.ofNat 2 entry.bytes.length) entry.bytes after
    rw [List.append_assoc, ← List.append_assoc (Bytes.ofNat 2 _), List.length_append,
      Bytes.length_ofNat] at hrange
    exact hrange
  bounds := by
    intro unit hunit
    obtain rfl := List.mem_singleton.mp hunit
    exact ⟨Nat.le_add_right _ 2, (entry.stop_unit _).le⟩
  apart := List.pairwise_singleton _ _

/-- Entries that follow each other are ranges of the data that holds them. -/
theorem unitsFrom {expected : UnitType} (entries : List (Entry expected)) (before after : Bytes) :
    InOrder (before ++ (entries.flatMap Entry.stored ++ after)) before.length
      (before.length + (entries.flatMap Entry.stored).length)
      (unitsFrom before.length entries) := by
  induction entries generalizing before with
  | nil => exact .nil
  | cons entry others ih =>
    have hothers := ih (before ++ entry.stored)
    have hfirst := InOrder.unit entry before (others.flatMap Entry.stored ++ after)
    rw [List.append_assoc, List.length_append] at hothers
    rw [List.flatMap_cons, List.append_assoc, List.length_append, ← Nat.add_assoc]
    exact hfirst.append hothers (Nat.le_add_right _ _) (Nat.le_add_right _ _)

end InOrder

namespace RecordLayout

variable (layout : RecordLayout)

/-- The entries of extensions. -/
def spsExtensions : List (Entry .seqParameterSetExtension) :=
  (layout.extension.map ExtensionLayout.entries).getD []

/-- The data before the first picture parameter set. -/
def beforePps : Bytes :=
  layout.header ++ (layout.spsBytes ++ [layout.ppsCount])

/-- The data before the extension part, or before the tail. -/
def beforeExtension : Bytes :=
  layout.beforePps ++ layout.ppsBytes

theorem length_beforePps : layout.beforePps.length = layout.ppsStart := by
  rw [beforePps, List.length_append, List.length_append, ← Nat.add_assoc]
  rfl

theorem length_beforeExtension : layout.beforeExtension.length = layout.extensionStart := by
  rw [beforeExtension, List.length_append, length_beforePps, extensionStart]

theorem bytes_eq_beforePps : layout.bytes =
    layout.beforePps ++ (layout.ppsBytes ++ (layout.extensionBytes ++ layout.tail)) := by
  simp only [bytes, beforePps, List.append_assoc]

theorem bytes_eq_beforeExtension :
    layout.bytes = layout.beforeExtension ++ (layout.extensionBytes ++ layout.tail) := by
  rw [bytes_eq_beforePps, beforeExtension, List.append_assoc]

theorem extensionStart_le : layout.extensionStart ≤ layout.bytes.length := by
  rw [bytes_eq_beforeExtension, List.length_append, length_beforeExtension]
  exact Nat.le_add_right _ _

/-- Where there is an extension part, its bytes are in the data at its place. -/
theorem bytes_eq_of_extension {part : ExtensionLayout} (h : layout.extension = some part) :
    layout.bytes = (layout.beforeExtension ++ part.fields) ++
      (part.entries.flatMap Entry.stored ++ layout.tail) := by
  rw [bytes_eq_beforeExtension, extensionBytes, h, List.append_assoc]
  show _ ++ (part.bytes ++ _) = _
  rw [ExtensionLayout.bytes, List.append_assoc]

/-! ### The three lists -/

theorem inOrder_sps :
    InOrder layout.bytes headerLength (headerLength + layout.spsBytes.length) layout.config.sps :=
  InOrder.unitsFrom layout.sps layout.header _

theorem inOrder_pps :
    InOrder layout.bytes layout.ppsStart layout.extensionStart layout.config.pps := by
  rw [bytes_eq_beforePps, extensionStart, ← length_beforePps]
  have hpps := InOrder.unitsFrom layout.pps layout.beforePps (layout.extensionBytes ++ layout.tail)
  rw [length_beforePps] at hpps ⊢
  exact hpps

theorem inOrder_spsExtensions :
    InOrder layout.bytes layout.extensionStart layout.bytes.length layout.config.spsExtensions := by
  cases hpart : layout.extension with
  | none =>
    have hnone : layout.config.spsExtensions = [] := by
      rw [DecoderConfig.spsExtensions, config, hpart]
      rfl
    rw [hnone]
    exact .nil
  | some part =>
    have hsome : layout.config.spsExtensions =
        unitsFrom (layout.extensionStart + 4) part.entries := by
      rw [DecoderConfig.spsExtensions, config, hpart]
      rfl
    have hstart : (layout.beforeExtension ++ part.fields).length = layout.extensionStart + 4 := by
      rw [List.length_append, length_beforeExtension]
      rfl
    have hentries := InOrder.unitsFrom part.entries (layout.beforeExtension ++ part.fields)
      layout.tail
    rw [← layout.bytes_eq_of_extension hpart, hstart] at hentries
    have hstop : layout.extensionStart + 4 + (part.entries.flatMap Entry.stored).length ≤
        layout.bytes.length := by
      rw [layout.bytes_eq_of_extension hpart, List.length_append, hstart, List.length_append]
      omega
    rw [hsome]
    exact hentries.widen (Nat.le_add_right _ _) hstop

theorem inOrder : InOrder layout.bytes headerLength layout.bytes.length
    (layout.config.sps ++ layout.config.pps ++ layout.config.spsExtensions) := by
  have hsps : headerLength + layout.spsBytes.length ≤ layout.ppsStart := Nat.le_add_right _ 1
  have hpps : layout.ppsStart ≤ layout.extensionStart := Nat.le_add_right _ _
  have hsets := (layout.inOrder_sps.widen le_rfl hsps).append layout.inOrder_pps
    ((Nat.le_add_right _ _).trans hsps) hpps
  exact hsets.append layout.inOrder_spsExtensions
    (((Nat.le_add_right _ _).trans hsps).trans hpps) layout.extensionStart_le

theorem bytes_spsExtensions :
    layout.config.spsExtensions.map NalUnit.bytes = layout.spsExtensions.map Entry.bytes := by
  rw [DecoderConfig.spsExtensions, spsExtensions, config]
  cases layout.extension with
  | none => rfl
  | some part => exact bytes_unitsFrom _ part.entries

end RecordLayout

/-! ## What a record shows -/

/-- The values of a record are bytes of the data, or low bits of them; the extension part, if there
is one, is at `start`. -/
structure ShowsBytes (config : DecoderConfig) (data : Bytes) (start : Nat) : Prop where
  version : data[0]?.map UInt8.toNat = some config.version
  profileIdc : data[1]?.map UInt8.toNat = some config.profileIdc
  compatibility : data[2]?.map UInt8.toNat = some config.compatibility.value
  levelIdc : data[3]?.map UInt8.toNat = some config.levelIdc
  lengthSize : data[4]?.map (·.toNat % 4) = some config.lengthSizeMinusOne
  spsCount : data[5]?.map (·.toNat % 32) = some config.spsCount
  chromaFormat : ∀ part, config.extension = some part →
    data[start]?.map (·.toNat % 4) = some part.chromaFormat
  bitDepthLuma : ∀ part, config.extension = some part →
    data[start + 1]?.map (·.toNat % 8) = some part.bitDepthLumaMinus8
  bitDepthChroma : ∀ part, config.extension = some part →
    data[start + 2]?.map (·.toNat % 8) = some part.bitDepthChromaMinus8

theorem RecordLayout.showsBytes (layout : RecordLayout) :
    layout.config.ShowsBytes layout.bytes layout.extensionStart := by
  have hfields : ∀ shown, layout.config.extension = some shown →
      ∃ part, layout.extension = some part ∧ part.config layout.extensionStart = shown ∧
        ∀ index < 4, layout.bytes[layout.extensionStart + index]? = part.fields[index]? := by
    intro shown hshown
    obtain ⟨part, hpart, rfl⟩ := Option.map_eq_some_iff.mp hshown
    refine ⟨part, hpart, rfl, ?_⟩
    intro index hindex
    rw [layout.bytes_eq_of_extension hpart, ← layout.length_beforeExtension, List.append_assoc,
      List.getElem?_append_right (Nat.le_add_right _ _), Nat.add_sub_cancel_left,
      List.getElem?_append_left hindex]
  refine ⟨rfl, rfl, rfl, rfl, rfl, rfl, ?_, ?_, ?_⟩
  · intro shown hshown
    obtain ⟨part, -, rfl, hbyte⟩ := hfields shown hshown
    rw [← Nat.add_zero layout.extensionStart, hbyte 0 (by decide)]
    rfl
  · intro shown hshown
    obtain ⟨part, -, rfl, hbyte⟩ := hfields shown hshown
    rw [hbyte 1 (by decide)]
    rfl
  · intro shown hshown
    obtain ⟨part, -, rfl, hbyte⟩ := hfields shown hshown
    rw [hbyte 2 (by decide)]
    rfl

/-- **A record is accepted exactly where the data has its layout**, and everything else is an error
of framing. The record shows the entries of the layout, in order, as ranges of the data that lie
behind one another; the fields of the extension part are there exactly if the part is; and every
value is read at a place inside the data. -/
theorem ofBytes_iff_layout (data : Bytes) :
    ((∃ config, ofBytes data = .ok config) ↔ ∃ layout : RecordLayout, layout.bytes = data) ∧
      (∀ layout : RecordLayout, layout.bytes = data → ∃ config, ofBytes data = .ok config ∧
        config.sps.map NalUnit.bytes = layout.sps.map Entry.bytes ∧
        config.pps.map NalUnit.bytes = layout.pps.map Entry.bytes ∧
        config.spsExtensions.map NalUnit.bytes = layout.spsExtensions.map Entry.bytes ∧
        InOrder data headerLength data.length
          (config.sps ++ config.pps ++ config.spsExtensions) ∧
        (config.extension = none ↔ layout.extension = none) ∧
        config.ShowsBytes data layout.extensionStart) ∧
      ∀ error, ofBytes data = .error error → error.errorClass = .framing := by
  refine ⟨⟨?_, ?_⟩, ?_, ?_⟩
  · rintro ⟨config, hconfig⟩
    obtain ⟨layout, hdata, -⟩ := exists_layout hconfig
    exact ⟨layout, hdata⟩
  · rintro ⟨layout, rfl⟩
    exact ⟨layout.config, ofBytes_bytes layout⟩
  · rintro layout rfl
    exact ⟨layout.config, ofBytes_bytes layout, bytes_unitsFrom _ layout.sps,
      bytes_unitsFrom _ layout.pps, layout.bytes_spsExtensions, layout.inOrder,
      Option.map_eq_none_iff, layout.showsBytes⟩
  · intro error herror
    obtain ⟨layout, rfl⟩ | ⟨error', herror', hclass⟩ := ofBytes_cases data
    · rw [ofBytes_bytes layout] at herror
      cases herror
    · rw [herror'] at herror
      cases herror
      exact hclass

/-- A record with one entry of each type and a byte behind them. -/
def highProfileLayout : RecordLayout where
  profileIdc := 100
  compatibility := 0
  levelIdc := 30
  lengthSize := 255
  spsCount := 225
  sps := [⟨0x67, [100, 0, 30], by decide, by decide⟩]
  ppsCount := 1
  pps := [⟨0x68, [0xce], by decide, by decide⟩]
  extension := some ⟨0xfd, 0xfa, 0xf8, 1, [⟨0x6d, [0xd0], by decide, by decide⟩], rfl⟩
  tail := [0]
  spsCount_eq := rfl
  ppsCount_eq := rfl
  extended := fun _ => by decide
  unextended := nofun

theorem ofBytes_iff_layout_highProfile :
    (∃ config, ofBytes highProfileLayout.bytes = .ok config ∧ config.extension ≠ none ∧
        config.spsExtensions.map NalUnit.bytes = [[0x6d, 0xd0]] ∧
        config.ShowsBytes highProfileLayout.bytes 17) ∧
      ∃ error, ofBytes (highProfileLayout.bytes.take 20) = .error error ∧
        error.errorClass = .framing := by
  obtain ⟨-, hshown, -⟩ := ofBytes_iff_layout highProfileLayout.bytes
  obtain ⟨config, hconfig, -, -, hext, -, hnone, hbytes⟩ := hshown highProfileLayout rfl
  obtain ⟨-, -, herror⟩ := ofBytes_iff_layout (highProfileLayout.bytes.take 20)
  exact ⟨⟨config, hconfig, fun h => Option.some_ne_none _ (hnone.mp h), hext, hbytes⟩,
    _, rfl, herror _ rfl⟩

end DecoderConfig

end H264
