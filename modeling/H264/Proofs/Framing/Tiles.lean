import H264.Proofs.Framing.Protocol
import H264.Proofs.Framing.Repackaging

/-!
# Units and start codes tile a stream

A stream that is framed at once consists of its units, its start codes and zeros. `holders` counts
how many units and start codes hold a place; `TilesPart` says of a part of the stream that no place
is held twice and that places held by none are zeros. A stretch between start codes is such a part
(`tilesPart_stretch`), parts next to each other are one (`TilesPart.append`), and so is a whole
stream (`tilesPart_segments`). **Main statement** (`units_tile_stream`): the units are ranges in
order, each just behind a start code and without one inside, and every byte other than zero is in
one unit or is the last byte of one start code, and not both.
-/

namespace H264.Framing

open DecoderConfig (InOrder)

/-! ## Parts of a stream -/

/-- How many units and start codes hold a place. -/
def holders (codes : List Nat) (units : List NalUnit) (place : Nat) : Nat :=
  units.countP (fun unit => decide (unit.start ≤ place ∧ place < unit.stop)) +
    codes.countP fun code => decide (code ≤ place ∧ place < code + startCode.length)

theorem holders_append (codes others : List Nat) (units later : List NalUnit) (place : Nat) :
    holders (codes ++ others) (units ++ later) place =
      holders codes units place + holders others later place := by
  unfold holders
  rw [List.countP_append, List.countP_append]
  omega

/-- Units and start codes tile the part of a stream from `start` to before `stop`: each place is
held once at most, and only zeros are not held. -/
structure TilesPart (stream : Bytes) (start stop : Nat) (codes : List Nat)
    (units : List NalUnit) : Prop where
  inOrder : InOrder stream start stop units
  once : ∀ place, holders codes units place ≤ 1
  outside : ∀ place, place < start ∨ stop ≤ place → holders codes units place = 0
  gaps : ∀ place, start ≤ place → place < stop → holders codes units place = 0 →
    stream[place]? = some 0

theorem TilesPart.append {stream : Bytes} {start middle stop : Nat} {codes others : List Nat}
    {units later : List NalUnit} (hfront : TilesPart stream start middle codes units)
    (hback : TilesPart stream middle stop others later) (hstart : start ≤ middle)
    (hstop : middle ≤ stop) :
    TilesPart stream start stop (codes ++ others) (units ++ later) where
  inOrder := hfront.inOrder.append hback.inOrder hstart hstop
  once := by
    intro place
    rw [holders_append]
    -- only one of the two parts can hold the place
    rcases Nat.lt_or_ge place middle with hplace | hplace
    · rw [hback.outside place (.inl hplace)]
      exact hfront.once place
    · rw [hfront.outside place (.inr hplace), Nat.zero_add]
      exact hback.once place
  outside := by
    intro place hplace
    rw [holders_append, hfront.outside place (by omega), hback.outside place (by omega)]
  gaps := by
    intro place hfirst hlast hnone
    rw [holders_append] at hnone
    rcases Nat.lt_or_ge place middle with hplace | hplace
    · exact hfront.gaps place hfirst hplace (by omega)
    · exact hback.gaps place hplace hlast (by omega)

/-- A start code holds all of its places. -/
theorem tilesPart_code (stream : Bytes) (code : Nat) :
    TilesPart stream code (code + 3) [code] [] := by
  have hholders : ∀ place, holders [code] [] place =
      if code ≤ place ∧ place < code + 3 then 1 else 0 := by
    intro place
    unfold holders
    rw [List.countP_nil, Nat.zero_add, List.countP_singleton]
    simp [startCode]
  refine ⟨.nil, fun place => ?_, fun place hplace => ?_, fun place hfirst hlast hnone => ?_⟩
  · rw [hholders]
    split <;> omega
  · rw [hholders, if_neg (by omega)]
  · rw [hholders, if_pos ⟨hfirst, hlast⟩] at hnone
    cases hnone

/-! ## A stretch between start codes -/

/-- Trimming takes zeros off the end. -/
theorem exists_eq_trimZeros_append (bytes : Bytes) :
    ∃ count, bytes = trimZeros bytes ++ List.replicate count 0 := by
  have htail : bytes.rtakeWhile (· == 0) =
      List.replicate (bytes.rtakeWhile (· == 0)).length 0 := by
    refine List.eq_replicate_of_mem fun byte hbyte => ?_
    have hzero : (byte == 0) = true := List.mem_rtakeWhile_imp (p := (· == 0)) hbyte
    exact beq_iff_eq.mp hzero
  refine ⟨(bytes.rtakeWhile (· == 0)).length, ?_⟩
  rw [← htail]
  exact List.rdropWhile_append_rtakeWhile.symm

theorem getElem?_zeros {front after : Bytes} {count place : Nat} (hfirst : front.length ≤ place)
    (hlast : place < front.length + count) :
    (front ++ (List.replicate count 0 ++ after))[place]? = some 0 := by
  rw [List.getElem?_append_right hfirst, List.getElem?_append_left (by simp; omega),
    List.getElem?_replicate_of_lt (by omega)]

theorem unitsOf_singleton (start : Nat) (bytes : Bytes) :
    unitsOf [{ start, bytes }] =
      if trimZeros bytes = [] then [] else [{ start, bytes := trimZeros bytes }] := by
  unfold unitsOf
  rw [List.map_singleton]
  by_cases hempty : trimZeros bytes = []
  · simp [hempty]
  · simp [hempty]

theorem holders_unitsOf_singleton (start : Nat) (bytes : Bytes) (place : Nat) :
    holders [] (unitsOf [{ start, bytes }]) place =
      if start ≤ place ∧ place < start + (trimZeros bytes).length then 1 else 0 := by
  unfold holders
  rw [unitsOf_singleton]
  by_cases hempty : trimZeros bytes = []
  · simp [hempty]
  · rw [if_neg hempty, List.countP_nil, Nat.add_zero, List.countP_singleton]
    exact if_congr decide_eq_true_iff rfl rfl

/-- A stretch is one unit, or none, and zeros. -/
theorem tilesPart_stretch (before stretch after : Bytes) :
    TilesPart (before ++ (stretch ++ after)) before.length (before.length + stretch.length) []
      (unitsOf [{ start := before.length, bytes := stretch }]) := by
  obtain ⟨count, hstretch⟩ := exists_eq_trimZeros_append stretch
  have hlength : stretch.length = (trimZeros stretch).length + count := by
    have hlengths := congrArg List.length hstretch
    rwa [List.length_append, List.length_replicate] at hlengths
  have hwhole : before ++ (stretch ++ after) =
      before ++ (trimZeros stretch ++ (List.replicate count 0 ++ after)) := by
    rw [← List.append_assoc (trimZeros stretch), ← hstretch]
  refine ⟨?_, fun place => ?_, fun place hplace => ?_, fun place hfirst hlast hnone => ?_⟩
  · rw [unitsOf_singleton, hwhole]
    split
    · exact .nil
    · refine ⟨fun unit hunit => ?_, fun unit hunit => ?_, List.pairwise_singleton _ _⟩
      · obtain rfl := List.mem_singleton.mp hunit
        exact NalUnit.ofRange_append before _ _
      · obtain rfl := List.mem_singleton.mp hunit
        exact ⟨Nat.le_refl _, by show before.length + (trimZeros stretch).length ≤ _; omega⟩
  · rw [holders_unitsOf_singleton]
    split <;> omega
  · rw [holders_unitsOf_singleton, if_neg (by omega)]
  · rw [holders_unitsOf_singleton] at hnone
    have hbehind : before.length + (trimZeros stretch).length ≤ place := by
      by_contra hinside
      rw [if_pos ⟨hfirst, by omega⟩] at hnone
      cases hnone
    rw [hwhole, ← List.append_assoc]
    exact getElem?_zeros (by rwa [List.length_append]) (by rw [List.length_append]; omega)

/-! ## A whole stream -/

theorem unitsOf_cons (segment : NalUnit) (others : List NalUnit) :
    unitsOf (segment :: others) = unitsOf [segment] ++ unitsOf others := by
  unfold unitsOf
  rw [← List.singleton_append, List.map_append, List.filter_append]

/-- What follows some bytes is tiled by its units and start codes, in their places in the whole. -/
theorem tilesPart_segments (before rest : Bytes) :
    TilesPart (before ++ rest) before.length (before ++ rest).length
      ((startCodePlaces rest).map (· + before.length)) (unitsOf (segments before.length rest)) := by
  induction rest using cut_induction generalizing before with
  | none rest hcut =>
    have hstretch := tilesPart_stretch before rest []
    rw [List.append_nil] at hstretch
    rw [segments_of_none _ hcut, startCodePlaces_of_none hcut, List.length_append]
    exact hstretch
  | some rest stretch after hcut ih =>
    have hsplit : rest = stretch ++ (startCode ++ after) := by
      rw [eq_of_cutAtStartCode hcut, List.append_assoc]
    have hlater := ih (before ++ (stretch ++ startCode))
    have hfront : (before ++ (stretch ++ startCode)).length = before.length + stretch.length + 3 := by
      rw [List.length_append, List.length_append, Nat.add_assoc]
      rfl
    have hwhole : before ++ (stretch ++ startCode) ++ after = before ++ rest := by
      rw [hsplit, List.append_assoc, List.append_assoc]
    rw [hwhole, hfront] at hlater
    have hstretch := tilesPart_stretch before stretch (startCode ++ after)
    rw [← hsplit] at hstretch
    have hcode := tilesPart_code (before ++ rest) (before.length + stretch.length)
    have hlength : before.length + stretch.length + 3 ≤ (before ++ rest).length := by
      rw [← hwhole, List.length_append, hfront]
      omega
    have hplaces : (startCodePlaces rest).map (· + before.length) = [] ++
        ([before.length + stretch.length] ++
          (startCodePlaces after).map (· + (before.length + stretch.length + 3))) := by
      rw [startCodePlaces_of_some hcut, List.map_cons, List.map_map, List.nil_append,
        List.singleton_append, Nat.add_comm stretch.length]
      refine congrArg _ (List.map_congr_left fun place _ => ?_)
      show place + (stretch.length + 3) + before.length = _
      omega
    rw [segments_of_some _ hcut, unitsOf_cons, hplaces]
    exact hstretch.append (hcode.append hlater (by omega) hlength) (by omega) (by omega)

/-! ## Where units begin -/

/-- A stretch begins just behind the start code before it. -/
theorem map_start_segments (offset : Nat) (stream : Bytes) :
    (segments offset stream).map NalUnit.start =
      offset :: (startCodePlaces stream).map (· + (offset + 3)) := by
  induction stream using cut_induction generalizing offset with
  | none stream hcut => rw [segments_of_none _ hcut, startCodePlaces_of_none hcut]; rfl
  | some stream before after hcut ih =>
    rw [segments_of_some _ hcut, startCodePlaces_of_some hcut, List.map_cons, ih, List.map_cons,
      List.map_map]
    have hfirst : offset + before.length + 3 = before.length + (offset + 3) := by omega
    refine congrArg _ (congrArg₂ _ hfirst (List.map_congr_left fun place _ => ?_))
    show place + (offset + before.length + 3 + 3) = place + (before.length + 3) + (offset + 3)
    omega

/-- No start code is inside a stretch. -/
theorem not_infix_of_mem_stretches {stream stretch : Bytes} (h : stretch ∈ stretches stream) :
    ¬startCode <:+: stretch := by
  induction stream using cut_induction with
  | none stream hcut =>
    rw [stretches_of_none hcut] at h
    rw [List.mem_singleton.mp h]
    exact not_infix_of_cutAtStartCode hcut
  | some stream before after hcut ih =>
    rw [stretches_of_some hcut] at h
    rcases List.mem_cons.mp h with rfl | hlater
    · refine not_infix_of_cutAtStartCode ?_
      -- an earlier start code would be the first one of the whole
      cases hearlier : cutAtStartCode stretch with
      | none => rfl
      | some cut =>
        have hwhole := cutAtStartCode_append (startCode ++ after) hearlier
        rw [← List.append_assoc, ← eq_of_cutAtStartCode hcut, hcut] at hwhole
        have hsame : stretch = cut.1 := congrArg Prod.fst (Option.some.inj hwhole)
        have hshort := length_of_cutAtStartCode hearlier
        rw [← hsame] at hshort
        omega
    · exact ih hlater

theorem exists_of_mem_unitsOf {segments : List NalUnit} {unit : NalUnit}
    (h : unit ∈ unitsOf segments) : ∃ segment ∈ segments, unit.start = segment.start ∧
      unit.bytes = trimZeros segment.bytes ∧ unit.bytes ≠ [] := by
  obtain ⟨hmem, hfilled⟩ := List.mem_filter.mp h
  obtain ⟨segment, hsegment, rfl⟩ := List.mem_map.mp hmem
  exact ⟨segment, hsegment, rfl, rfl, by simpa using hfilled⟩

/-- A unit is without a start code inside and ends in a byte other than zero. -/
theorem streamable_of_mem_unitsOf {offset : Nat} {stream : Bytes} {unit : NalUnit}
    (h : unit ∈ unitsOf (segments offset stream)) : Streamable unit.bytes := by
  obtain ⟨segment, hsegment, -, hbytes, hfilled⟩ := exists_of_mem_unitsOf h
  have hstretch : segment.bytes ∈ stretches stream := by
    rw [← map_bytes_segments offset]
    exact List.mem_map_of_mem hsegment
  rw [hbytes] at hfilled ⊢
  refine ⟨fun hinside => ?_, getLast?_trimZeros hfilled⟩
  exact not_infix_of_mem_stretches hstretch
    (hinside.trans (isPrefix_trimZeros segment.bytes).isInfix)

/-! ## Bytes other than zero -/

theorem startCode_isPrefix_of_mem {stream : Bytes} {code : Nat} (h : code ∈ startCodePlaces stream) :
    startCode <+: stream.drop code :=
  List.isPrefixOf_iff_prefix.mp (List.mem_filter.mp h).2

/-- Of a start code, only the last byte is not zero. -/
theorem eq_of_mem_startCodePlaces {stream : Bytes} {code place : Nat} {byte : UInt8}
    (hcode : code ∈ startCodePlaces stream) (hbyte : stream[place]? = some byte) (hne : byte ≠ 0)
    (hfirst : code ≤ place) (hlast : place < code + startCode.length) : code + 2 = place := by
  obtain ⟨after, hafter⟩ := startCode_isPrefix_of_mem hcode
  obtain ⟨index, rfl⟩ : ∃ index, place = code + index := ⟨place - code, by omega⟩
  rw [← List.getElem?_drop, ← hafter] at hbyte
  have hindex : index < 3 := by simpa [startCode] using hlast
  obtain rfl | rfl | rfl : index = 0 ∨ index = 1 ∨ index = 2 := by omega
  · exact absurd (Option.some.inj hbyte).symm hne
  · exact absurd (Option.some.inj hbyte).symm hne
  · rfl

theorem count_trimZeros (bytes : Bytes) {byte : UInt8} (h : byte ≠ 0) :
    (trimZeros bytes).count byte = bytes.count byte := by
  obtain ⟨count, hbytes⟩ := exists_eq_trimZeros_append bytes
  conv => rhs; rw [hbytes]
  rw [List.count_append, List.count_replicate, if_neg (by simpa using h.symm), Nat.add_zero]

/-- Bytes other than zero are as many as in the units and at the ends of start codes. -/
theorem count_stretches (stream : Bytes) {byte : UInt8} (h : byte ≠ 0) :
    stream.count byte = (trimmed (stretches stream)).flatten.count byte +
      if byte = 1 then (startCodePlaces stream).length else 0 := by
  have hcons : ∀ stretch stretches, (trimmed (stretch :: stretches)).flatten.count byte =
      stretch.count byte + (trimmed stretches).flatten.count byte := by
    intro stretch stretches
    rw [trimmed_cons, ← count_trimZeros stretch h]
    split
    · rename_i hempty
      rw [hempty, List.count_nil, Nat.zero_add]
    · rw [List.flatten_cons, List.count_append]
  have hnil : (trimmed []).flatten.count byte = 0 := rfl
  induction stream using cut_induction with
  | none stream hcut =>
    rw [stretches_of_none hcut, startCodePlaces_of_none hcut, hcons, hnil]
    simp
  | some stream before after hcut ih =>
    have hcode : startCode.count byte = if byte = 1 then 1 else 0 := by
      have hzero : ¬(0 == byte) = true := fun heq => h (beq_iff_eq.mp heq).symm
      unfold startCode
      rw [List.count_cons, List.count_cons, List.count_singleton, if_neg hzero]
      exact if_congr (beq_iff_eq.trans eq_comm) rfl rfl
    rw [stretches_of_some hcut, startCodePlaces_of_some hcut, hcons]
    conv => lhs; rw [eq_of_cutAtStartCode hcut]
    rw [List.count_append, List.count_append, hcode, ih, List.length_cons, List.length_map]
    split <;> omega

/-! ## Framing at once -/

/-- Units and start codes tile a stream: the units are ranges of it in order, each just behind a
start code, without one inside and ending in a byte other than zero; no place is held by two of the
units and start codes, and all that none of them holds are zeros. -/
structure Tiles (stream : Bytes) (units : List NalUnit) : Prop where
  inOrder : InOrder stream 0 stream.length units
  behindCode : ∀ unit ∈ units, ∃ code ∈ startCodePlaces stream, unit.start = code + startCode.length
  streamable : ∀ unit ∈ units, Streamable unit.bytes
  once : ∀ place, holders (startCodePlaces stream) units place ≤ 1
  gaps : ∀ place byte, stream[place]? = some byte →
    holders (startCodePlaces stream) units place = 0 → byte = 0

/-- With nothing but zeros before the first start code, the units are those of all stretches. -/
theorem unitsAtOnce_eq_unitsOf {stream : Bytes} (h : ∀ byte ∈ Framer.lead stream, byte = 0) :
    unitsAtOnce stream = unitsOf (segments 0 stream) := by
  have hlead : ∀ bytes : Bytes, (∀ byte ∈ bytes, byte = 0) →
      unitsOf [{ start := 0, bytes }] = [] := by
    intro bytes hzeros
    rw [unitsOf_singleton, if_pos (trimZeros_eq_nil_iff.mpr hzeros)]
  unfold Framer.lead at h
  unfold unitsAtOnce
  cases hcut : cutAtStartCode stream with
  | none =>
    rw [hcut] at h
    rw [segments_of_none _ hcut, hlead stream h]
    rfl
  | some cut =>
    rw [hcut] at h
    have hsegments : segments 0 stream =
        { start := 0, bytes := cut.1 } :: segments (0 + cut.1.length + 3) cut.2 :=
      segments_of_some 0 hcut
    rw [hsegments, unitsOf_cons, hlead cut.1 h, Nat.zero_add]
    rfl

/-- Units framed at once begin behind start codes. -/
theorem behindCode_of_mem_unitsAtOnce {stream : Bytes} {unit : NalUnit}
    (h : unit ∈ unitsAtOnce stream) :
    ∃ code ∈ startCodePlaces stream, unit.start = code + startCode.length := by
  unfold unitsAtOnce at h
  cases hcut : cutAtStartCode stream with
  | none =>
    rw [hcut] at h
    cases h
  | some cut =>
    rw [hcut] at h
    obtain ⟨segment, hsegment, hstart, -⟩ := exists_of_mem_unitsOf h
    have hmem := List.mem_map_of_mem (f := NalUnit.start) hsegment
    rw [map_start_segments] at hmem
    rw [startCodePlaces_of_some hcut, hstart]
    rcases List.mem_cons.mp hmem with hfirst | hlater
    · exact ⟨_, List.mem_cons_self, hfirst⟩
    · obtain ⟨place, hplace, heq⟩ := List.mem_map.mp hlater
      refine ⟨_, List.mem_cons_of_mem _ (List.mem_map_of_mem hplace), ?_⟩
      rw [← heq]
      rfl

theorem tiles_unitsAtOnce {stream : Bytes} (h : ∀ byte ∈ Framer.lead stream, byte = 0) :
    Tiles stream (unitsAtOnce stream) := by
  have hpart := tilesPart_segments [] stream
  rw [List.nil_append, List.length_nil, List.map_congr_left fun place _ => Nat.add_zero place,
    List.map_id', ← unitsAtOnce_eq_unitsOf h] at hpart
  refine ⟨hpart.inOrder, fun unit => behindCode_of_mem_unitsAtOnce, fun unit hunit => ?_,
    hpart.once, fun place byte hbyte hnone => ?_⟩
  · rw [unitsAtOnce_eq_unitsOf h] at hunit
    exact streamable_of_mem_unitsOf hunit
  · obtain ⟨hlength, -⟩ := List.getElem?_eq_some_iff.mp hbyte
    rw [hpart.gaps place (Nat.zero_le place) hlength hnone] at hbyte
    exact (Option.some.inj hbyte).symm

/-- A byte other than zero is in one unit or the last byte of one start code. -/
theorem Tiles.exactly_one {stream : Bytes} {units : List NalUnit} (h : Tiles stream units)
    {place : Nat} {byte : UInt8} (hbyte : stream[place]? = some byte) (hne : byte ≠ 0) :
    units.countP (fun unit => decide (unit.start ≤ place ∧ place < unit.stop)) +
      (startCodePlaces stream).countP (fun code => decide (code + 2 = place)) = 1 := by
  have hcodes : (startCodePlaces stream).countP (fun code => decide (code + 2 = place)) =
      (startCodePlaces stream).countP
        fun code => decide (code ≤ place ∧ place < code + startCode.length) := by
    refine List.countP_congr fun code hcode => ?_
    rw [decide_eq_true_iff, decide_eq_true_iff]
    constructor
    · rintro rfl
      exact ⟨Nat.le_add_right code 2, Nat.lt_succ_self _⟩
    · rintro ⟨hfirst, hlast⟩
      exact eq_of_mem_startCodePlaces hcode hbyte hne hfirst hlast
  have honce := h.once place
  have hheld : holders (startCodePlaces stream) units place ≠ 0 :=
    fun hnone => hne (h.gaps place byte hbyte hnone)
  rw [hcodes]
  unfold holders at honce hheld
  omega

/-- **Units and start codes tile a stream** that is framed at once without an error. Every byte other
than zero is in exactly one unit or is the last one of exactly one start code, and not both; so each
value other than zero occurs as often as it does in the units, but for the start codes. -/
theorem units_tile_stream {stream : Bytes} {units : List NalUnit}
    (h : splitAnnexB stream = .ok units) :
    Tiles stream units ∧
    (∀ place byte, stream[place]? = some byte → byte ≠ 0 →
      units.countP (fun unit => decide (unit.start ≤ place ∧ place < unit.stop)) +
        (startCodePlaces stream).countP (fun code => decide (code + 2 = place)) = 1) ∧
    ∀ byte, byte ≠ 0 → stream.count byte = (units.flatMap NalUnit.bytes).count byte +
      if byte = 1 then (startCodePlaces stream).length else 0 := by
  have hsplit := splitAnnexB_eq stream
  rw [h] at hsplit
  have hunits : units = unitsAtOnce stream := by
    rw [splitAnnexB_eq_elim] at h
    cases hlead : (Framer.lead stream).findIdx? (· != 0) with
    | none =>
      rw [hlead] at h
      exact (Except.ok.inj h).symm
    | some offset =>
      rw [hlead] at h
      cases h
  have htiles : Tiles stream units := hunits ▸ tiles_unitsAtOnce hsplit.1
  refine ⟨htiles, fun place byte => htiles.exactly_one, fun byte hbyte => ?_⟩
  have hbytes : units.map NalUnit.bytes = trimmed (stretches stream) := by
    rw [hunits, unitsAtOnce_eq_unitsOf hsplit.1, map_bytes_unitsOf, map_bytes_segments]
  rw [List.flatMap_def, hbytes]
  exact count_stretches stream hbyte

/-- Two start codes in succession, zeros around them and inside a unit, and a last unit without an
end. -/
theorem units_tile_stream_successive :
    let stream : Bytes := [0, 0, 0, 1, 0, 0, 1, 0x41, 0, 2, 0, 0, 0, 1, 1]
    let units : List NalUnit := [{ start := 7, bytes := [0x41, 0, 2] }, { start := 14, bytes := [1] }]
    splitAnnexB stream = .ok units ∧ Tiles stream units ∧
      startCodePlaces stream = [1, 4, 11] ∧ stream.count 1 = 4 := by
  intro stream units
  have hsplit : splitAnnexB stream = .ok units := by cbv
  exact ⟨hsplit, (units_tile_stream hsplit).1, by decide, by decide⟩

end H264.Framing
