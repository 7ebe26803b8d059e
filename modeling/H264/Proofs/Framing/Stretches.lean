import H264.Framing.StartCode
import Mathlib.Data.List.DropRight

/-!
# The stretches of a stream

`stretches` cuts a stream at every start code: what comes before the first one, then what follows
each. Three facts carry all of framing:

* **places**: the stretches are the bytes between the places at which a start code occurs
  (`stretches_eq_extract`), so the cutting says nothing that the occurrences do not;
* **more bytes**: bytes that arrive later change the last stretch only (`stretches_append`);
* **a short tail**: of bytes without a start code the last two are enough to go on with
  (`cutFrom_append`).
-/

namespace H264.Framing

/-! ## Cutting at one start code -/

theorem cutAtStartCode_startCode (rest : Bytes) :
    cutAtStartCode (startCode ++ rest) = some ([], rest) := by
  simp [startCode, cutAtStartCode]

/-- Where no start code begins, the cut passes over the byte. -/
theorem cutAtStartCode_cons {byte : UInt8} {rest : Bytes} (h : ¬startCode <+: byte :: rest) :
    cutAtStartCode (byte :: rest) =
      (cutAtStartCode rest).map fun (before, after) => (byte :: before, after) := by
  rw [cutAtStartCode.eq_def]
  split
  · rename_i later heq
    exact absurd (heq ▸ List.prefix_append startCode later) h
  · rename_i heq
    obtain ⟨rfl, rfl⟩ := List.cons.inj heq
    rfl
  · rename_i heq
    exact absurd heq (List.cons_ne_nil _ _)

/-- The first start code stays the first one when more bytes arrive. -/
theorem cutAtStartCode_append {bytes before after : Bytes} (later : Bytes)
    (h : cutAtStartCode bytes = some (before, after)) :
    cutAtStartCode (bytes ++ later) = some (before, after ++ later) := by
  fun_induction cutAtStartCode bytes generalizing before after with
  | case1 rest =>
    obtain ⟨rfl, rfl⟩ := Prod.mk.inj (Option.some.inj h)
    exact cutAtStartCode_startCode (rest ++ later)
  | case2 byte rest hnot ih =>
    obtain ⟨⟨front, back⟩, hcut, heq⟩ := Option.map_eq_some_iff.mp h
    obtain ⟨rfl, rfl⟩ := Prod.mk.inj heq
    have hstarts : ¬startCode <+: byte :: (rest ++ later) := by
      -- a start code is three bytes long, and `rest` has that many at least
      have hlen := length_of_cutAtStartCode hcut
      rcases rest with _ | ⟨first, _ | ⟨second, rest⟩⟩
      · simp at hlen
      · simp at hlen
      · rintro ⟨tail, htail⟩
        simp only [startCode, List.cons_append, List.nil_append, List.cons.injEq] at htail
        obtain ⟨rfl, rfl, rfl, _⟩ := htail
        exact hnot rest rfl rfl
    rw [List.cons_append, cutAtStartCode_cons hstarts, ih hcut]
    rfl
  | case3 => exact absurd h (by simp)

/-- Bytes without a start code have none before their last two bytes once more bytes arrive. -/
theorem cutAtStartCode_append_of_tail {front tail : Bytes} (later : Bytes)
    (h : cutAtStartCode (front ++ tail) = none) (htail : front = [] ∨ 2 ≤ tail.length) :
    cutAtStartCode (front ++ (tail ++ later)) =
      (cutAtStartCode (tail ++ later)).map fun (before, after) => (front ++ before, after) := by
  induction front with
  | nil => simp
  | cons byte front ih =>
    have hlen : 2 ≤ tail.length := by
      rcases htail with h | h
      · exact absurd h (List.cons_ne_nil _ _)
      · exact h
    have hstarts : ∀ more : Bytes, startCode <+: byte :: (front ++ tail ++ more) →
        startCode <+: byte :: (front ++ tail) := by
      intro more hmore
      rw [← List.cons_append] at hmore
      refine List.prefix_of_prefix_length_le hmore (List.prefix_append _ _) ?_
      simp [startCode]
      omega
    have hnot : ¬startCode <+: byte :: (front ++ tail) := by
      rintro ⟨rest, hrest⟩
      rw [List.cons_append, ← hrest, cutAtStartCode_startCode] at h
      exact absurd h (by simp)
    have hnone : cutAtStartCode (front ++ tail) = none := by
      rw [List.cons_append, cutAtStartCode_cons hnot] at h
      exact Option.map_eq_none_iff.mp h
    have hcons : ¬startCode <+: byte :: (front ++ (tail ++ later)) := by
      rw [← List.append_assoc]
      exact fun hmore => hnot (hstarts later hmore)
    rw [List.cons_append, cutAtStartCode_cons hcons, ih hnone (.inr hlen)]
    cases cutAtStartCode (tail ++ later) with
    | none => rfl
    | some cut => rfl

/-- So the search for the next start code may go on from any place up to the last two bytes. -/
theorem cutFrom_append {bytes : Bytes} {place : Nat} (later : Bytes)
    (h : cutAtStartCode bytes = none) (hplace : place ≤ bytes.length - (startCode.length - 1)) :
    cutFrom place (bytes ++ later) = cutAtStartCode (bytes ++ later) := by
  have hlen : startCode.length = 3 := rfl
  have hle : place ≤ bytes.length := hplace.trans (Nat.sub_le _ _)
  have htail : bytes.take place = [] ∨ 2 ≤ (bytes.drop place).length := by
    rw [List.length_drop]
    by_cases hlong : 2 ≤ bytes.length
    · right
      omega
    · left
      rw [show place = 0 from by omega, List.take_zero]
  rw [← List.take_append_drop place bytes] at h
  rw [cutFrom, List.drop_append_of_le_length hle, List.take_append_of_le_length hle,
    ← cutAtStartCode_append_of_tail later h htail, ← List.append_assoc, List.take_append_drop]

/-- Where the cut finds no start code there is none. -/
theorem not_infix_of_cutAtStartCode {bytes : Bytes} (h : cutAtStartCode bytes = none) :
    ¬startCode <:+: bytes := by
  rintro ⟨front, back, rfl⟩
  induction front with
  | nil =>
    rw [List.nil_append, cutAtStartCode_startCode] at h
    cases h
  | cons byte front ih =>
    by_cases hhere : startCode <+: byte :: (front ++ startCode ++ back)
    · obtain ⟨rest, hrest⟩ := hhere
      rw [List.cons_append, List.cons_append, ← hrest, cutAtStartCode_startCode] at h
      cases h
    · rw [List.cons_append, List.cons_append, cutAtStartCode_cons hhere,
        Option.map_eq_none_iff] at h
      exact ih h

/-- Bytes that are too short for a start code have none. -/
theorem cutAtStartCode_of_length_lt {bytes : Bytes} (h : bytes.length < startCode.length) :
    cutAtStartCode bytes = none := by
  rw [Option.eq_none_iff_forall_ne_some]
  intro cut hcut
  have hlen := length_of_cutAtStartCode hcut
  rw [show startCode.length = 3 from rfl] at h
  omega

/-! ## Cutting at all of them -/

/-- Induction on a stream by its first start code. -/
theorem cut_induction {motive : Bytes → Prop}
    (none : ∀ stream, cutAtStartCode stream = none → motive stream)
    (some : ∀ stream before after, cutAtStartCode stream = some (before, after) →
      motive after → motive stream) (stream : Bytes) : motive stream := by
  induction hlen : stream.length using Nat.strongRecOn generalizing stream with
  | ind n ih =>
    cases hcut : cutAtStartCode stream with
    | none => exact none stream hcut
    | some cut =>
      have hshort := length_of_cutAtStartCode hcut
      exact some stream cut.1 cut.2 hcut (ih cut.2.length (by omega) cut.2 rfl)

theorem segments_of_none {stream : Bytes} (offset : Nat) (h : cutAtStartCode stream = none) :
    segments offset stream = [{ start := offset, bytes := stream }] := by
  rw [segments]
  split
  · rfl
  · rename_i hcut
    rw [h] at hcut
    exact absurd hcut (by simp)

theorem segments_of_some {stream before after : Bytes} (offset : Nat)
    (h : cutAtStartCode stream = some (before, after)) :
    segments offset stream =
      { start := offset, bytes := before } :: segments (offset + before.length + 3) after := by
  rw [segments]
  split
  · rename_i hcut
    rw [h] at hcut
    exact absurd hcut (by simp)
  · rename_i hcut
    obtain ⟨rfl, rfl⟩ := Prod.mk.inj (Option.some.inj (h.symm.trans hcut))
    rfl

/-- Segments are the same wherever the search begins that finds the first of their start codes. -/
theorem segmentsFrom_eq {place : Nat} {bytes : Bytes}
    (h : cutFrom place bytes = cutAtStartCode bytes) :
    segmentsFrom place bytes = segments 0 bytes := by
  rw [segmentsFrom, h]
  cases hcut : cutAtStartCode bytes with
  | none => rw [segments_of_none 0 hcut]
  | some cut => rw [segments_of_some 0 hcut, Nat.zero_add]

/-- What comes before the first start code, then what follows each, up to the next one or the end. -/
def stretches (stream : Bytes) : List Bytes :=
  (segments 0 stream).map NalUnit.bytes

/-- The offset at which segments begin does not show in their bytes. -/
theorem map_bytes_segments (offset : Nat) (stream : Bytes) :
    (segments offset stream).map NalUnit.bytes = stretches stream := by
  suffices h : ∀ offset other, (segments offset stream).map NalUnit.bytes =
      (segments other stream).map NalUnit.bytes from h offset 0
  induction stream using cut_induction with
  | none stream hcut =>
    intro offset other
    rw [segments_of_none offset hcut, segments_of_none other hcut]
    rfl
  | some stream before after hcut ih =>
    intro offset other
    rw [segments_of_some offset hcut, segments_of_some other hcut, List.map_cons, List.map_cons,
      ih _ (other + before.length + 3)]

theorem stretches_of_none {stream : Bytes} (h : cutAtStartCode stream = none) :
    stretches stream = [stream] := by
  rw [stretches, segments_of_none 0 h]
  rfl

theorem stretches_of_some {stream before after : Bytes}
    (h : cutAtStartCode stream = some (before, after)) :
    stretches stream = before :: stretches after := by
  rw [stretches, segments_of_some 0 h, List.map_cons, map_bytes_segments]

theorem stretches_ne_nil (stream : Bytes) : stretches stream ≠ [] := by
  cases hcut : cutAtStartCode stream with
  | none => simp [stretches_of_none hcut]
  | some cut => simp [stretches_of_some hcut]

/-- What follows the last start code, or all of a stream that has none. -/
def lastStretch (stream : Bytes) : Bytes :=
  (stretches stream).getLast (stretches_ne_nil stream)

theorem lastStretch_of_none {stream : Bytes} (h : cutAtStartCode stream = none) :
    lastStretch stream = stream := by
  simp only [lastStretch, stretches_of_none h, List.getLast_singleton]

theorem lastStretch_of_some {stream before after : Bytes}
    (h : cutAtStartCode stream = some (before, after)) :
    lastStretch stream = lastStretch after := by
  simp only [lastStretch, stretches_of_some h, List.getLast_cons (stretches_ne_nil after)]

/-- No start code is left in the last stretch. -/
theorem cutAtStartCode_lastStretch (stream : Bytes) :
    cutAtStartCode (lastStretch stream) = none := by
  induction stream using cut_induction with
  | none stream hcut => rw [lastStretch_of_none hcut, hcut]
  | some stream before after hcut ih => rw [lastStretch_of_some hcut, ih]

/-- Later bytes change the last stretch only. -/
theorem stretches_append (stream later : Bytes) :
    stretches (stream ++ later) =
      (stretches stream).dropLast ++ stretches (lastStretch stream ++ later) := by
  induction stream using cut_induction with
  | none stream hcut => simp [stretches_of_none hcut, lastStretch_of_none hcut]
  | some stream before after hcut ih =>
    rw [stretches_of_some (cutAtStartCode_append later hcut), stretches_of_some hcut,
      lastStretch_of_some hcut, List.dropLast_cons_of_ne_nil (stretches_ne_nil after),
      List.cons_append, ih]

theorem lastStretch_append (stream later : Bytes) :
    lastStretch (stream ++ later) = lastStretch (lastStretch stream ++ later) := by
  induction stream using cut_induction with
  | none stream hcut => rw [lastStretch_of_none hcut]
  | some stream before after hcut ih =>
    rw [lastStretch_of_some (cutAtStartCode_append later hcut), lastStretch_of_some hcut, ih]

end H264.Framing
