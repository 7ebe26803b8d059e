import H264.Proofs.Framing.Stretches

/-!
# Start codes by their places

A stream's units said by places alone: a start code begins at a place if the stream reads `00 00 01`
there, and a unit is the bytes from just after one start code up to the next, or to the end of the
stream, less the zeros at its end. `startCodePlaces_apart` says that start codes never overlap, so
the places are those of a search from left to right; `stretches_eq_extract` and `tail_stretches` say
that cutting at start codes one by one gives the same bytes.
-/

namespace H264.Framing

/-- The places at which a start code begins, in order. -/
def startCodePlaces (stream : Bytes) : List Nat :=
  (List.range stream.length).filter fun place => startCode.isPrefixOf (stream.drop place)

/-- The bytes from just after each start code up to the stop that goes with it. -/
def contents (stream : Bytes) (stops : List Nat) : List Bytes :=
  List.zipWith (fun place stop => stream.extract (place + startCode.length) stop)
    (startCodePlaces stream) stops

/-- Byte strings without the zeros at their ends, where something is left. -/
def trimmed (contents : List Bytes) : List Bytes :=
  (contents.map trimZeros).filter (· ≠ [])

/-- The units of a whole stream, the last of which ends with it. -/
def unitBytes (stream : Bytes) : List Bytes :=
  trimmed (contents stream ((startCodePlaces stream).tail ++ [stream.length]))

/-- The units of a stream that a later start code closes. -/
def closedUnitBytes (stream : Bytes) : List Bytes :=
  trimmed (contents stream (startCodePlaces stream).tail)

/-! ## Places by recursion on the stream -/

theorem startCodePlaces_cons (byte : UInt8) (rest : Bytes) :
    startCodePlaces (byte :: rest) =
      (if startCode <+: byte :: rest then [0] else []) ++ (startCodePlaces rest).map (· + 1) := by
  have hshift : (fun place => startCode.isPrefixOf ((byte :: rest).drop place)) ∘ Nat.succ =
      fun place => startCode.isPrefixOf (rest.drop place) := rfl
  rw [startCodePlaces, List.length_cons, List.range_succ_eq_map, List.filter_cons, List.drop_zero,
    List.filter_map, hshift, ← startCodePlaces]
  by_cases h : startCode <+: byte :: rest
  · rw [if_pos (List.isPrefixOf_iff_prefix.mpr h), if_pos h]
    rfl
  · rw [if_neg (fun hmatch => h (List.isPrefixOf_iff_prefix.mp hmatch)), if_neg h]
    rfl

theorem startCodePlaces_of_none {stream : Bytes} (h : cutAtStartCode stream = none) :
    startCodePlaces stream = [] := by
  induction stream with
  | nil => rfl
  | cons byte rest ih =>
    have hnot : ¬startCode <+: byte :: rest := by
      rintro ⟨tail, htail⟩
      rw [← htail, cutAtStartCode_startCode] at h
      exact absurd h (by simp)
    rw [cutAtStartCode_cons hnot] at h
    rw [startCodePlaces_cons, if_neg hnot, ih (Option.map_eq_none_iff.mp h)]
    rfl

/-- The first place is where the cut is; the others are those of the rest. -/
theorem startCodePlaces_of_some {stream before after : Bytes}
    (h : cutAtStartCode stream = some (before, after)) :
    startCodePlaces stream =
      before.length :: (startCodePlaces after).map (· + (before.length + 3)) := by
  fun_induction cutAtStartCode stream generalizing before after with
  | case1 rest =>
    obtain ⟨rfl, rfl⟩ := Prod.mk.inj (Option.some.inj h)
    -- a start code begins at the first of these three bytes only
    have hfirst : startCode <+: 0 :: 0 :: 1 :: rest := List.prefix_append startCode rest
    have hsecond : ¬startCode <+: 0 :: 1 :: rest := by simp [startCode]
    have hthird : ¬startCode <+: 1 :: rest := by simp [startCode]
    rw [startCodePlaces_cons, startCodePlaces_cons, startCodePlaces_cons,
      if_pos hfirst, if_neg hsecond, if_neg hthird]
    simp
  | case2 byte rest hnot ih =>
    obtain ⟨⟨front, back⟩, hcut, heq⟩ := Option.map_eq_some_iff.mp h
    obtain ⟨rfl, rfl⟩ := Prod.mk.inj heq
    have hstarts : ¬startCode <+: byte :: rest := by
      rintro ⟨tail, htail⟩
      obtain ⟨rfl, rfl⟩ := List.cons.inj htail
      exact hnot tail rfl rfl
    rw [startCodePlaces_cons, if_neg hstarts, ih hcut]
    simp only [List.nil_append, List.map_cons, List.map_map, List.length_cons, List.cons.injEq,
      true_and]
    refine List.map_congr_left fun place _ => ?_
    show place + (front.length + 3) + 1 = place + (front.length + 1 + 3)
    omega
  | case3 => exact absurd h (by simp)

/-- Start codes do not overlap. -/
theorem startCodePlaces_apart (stream : Bytes) :
    (startCodePlaces stream).Pairwise fun earlier later => earlier + startCode.length ≤ later := by
  induction stream using cut_induction with
  | none stream hcut =>
    rw [startCodePlaces_of_none hcut]
    exact List.Pairwise.nil
  | some stream before after hcut ih =>
    rw [startCodePlaces_of_some hcut]
    refine List.pairwise_cons.mpr ⟨?_, ?_⟩
    · intro later hlater
      obtain ⟨place, _, rfl⟩ := List.mem_map.mp hlater
      show before.length + 3 ≤ place + (before.length + 3)
      omega
    · refine ih.map _ fun earlier later hle => ?_
      show earlier + (before.length + 3) + startCode.length ≤ later + (before.length + 3)
      omega

/-! ## The stretches by places -/

/-- A part of what follows a start code, by its places in the whole. -/
theorem extract_after (before after : Bytes) (first last : Nat) :
    (before ++ startCode ++ after).extract (first + (before.length + 3))
      (last + (before.length + 3)) = after.extract first last := by
  have hlen : (before ++ startCode).length = before.length + 3 := by
    simp [startCode]
  rw [List.extract_eq_take_drop, List.extract_eq_take_drop, Nat.add_sub_add_right,
    Nat.add_comm first, ← List.drop_drop, List.drop_left' hlen]

/-- The stretches lie between the beginning, the start codes and the end. -/
theorem stretches_eq_extract (stream : Bytes) :
    stretches stream = List.zipWith (fun first last => stream.extract first last)
      (0 :: (startCodePlaces stream).map (· + startCode.length))
      (startCodePlaces stream ++ [stream.length]) := by
  induction stream using cut_induction with
  | none stream hcut => simp [stretches_of_none hcut, startCodePlaces_of_none hcut]
  | some stream before after hcut ih =>
    have heq := eq_of_cutAtStartCode hcut
    have hlen : stream.length = after.length + (before.length + 3) := by
      rw [length_of_cutAtStartCode hcut]
      omega
    -- both bounds are those of the rest, moved behind the first start code
    have hstarts : (startCodePlaces stream).map (· + startCode.length) =
        (0 :: (startCodePlaces after).map (· + startCode.length)).map
          (· + (before.length + 3)) := by
      rw [startCodePlaces_of_some hcut]
      simp only [List.map_cons, List.map_map, List.cons.injEq]
      refine ⟨by simp [startCode], List.map_congr_left fun place _ => ?_⟩
      show place + (before.length + 3) + startCode.length =
        place + startCode.length + (before.length + 3)
      omega
    have hstops : startCodePlaces stream ++ [stream.length] =
        before.length :: (startCodePlaces after ++ [after.length]).map
          (· + (before.length + 3)) := by
      rw [startCodePlaces_of_some hcut, hlen]
      simp
    have hfirst : stream.extract 0 before.length = before := by
      rw [heq]
      simp
    have hshift : ∀ first last, stream.extract (first + (before.length + 3))
        (last + (before.length + 3)) = after.extract first last := by
      rw [heq]
      exact extract_after before after
    rw [stretches_of_some hcut, hstarts, hstops, List.zipWith_cons_cons, hfirst, List.zipWith_map,
      ih]
    simp only [hshift]

/-- The units of a stream are its stretches but for what comes before the first start code. -/
theorem tail_stretches (stream : Bytes) :
    (stretches stream).tail =
      contents stream ((startCodePlaces stream).tail ++ [stream.length]) := by
  rw [stretches_eq_extract, contents]
  cases startCodePlaces stream with
  | nil => rfl
  | cons place places =>
    rw [List.cons_append, List.zipWith_cons_cons, List.tail_cons, List.tail_cons,
      List.zipWith_map_left]

/-- The closed ones leave out the last stretch. -/
theorem dropLast_tail_stretches (stream : Bytes) :
    (stretches stream).tail.dropLast = contents stream (startCodePlaces stream).tail := by
  rw [tail_stretches, contents, contents]
  cases startCodePlaces stream with
  | nil => rfl
  | cons place places =>
    have hmin : min (place :: places).length places.length = places.length := by simp
    conv => rhs; rw [List.zipWith_eq_zipWith_take_min, List.tail_cons, hmin, List.take_length]
    rw [List.tail_cons, List.dropLast_eq_take, List.take_zipWith]
    simp

end H264.Framing
