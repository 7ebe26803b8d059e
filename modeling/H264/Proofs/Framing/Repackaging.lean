import H264.Proofs.Framing.SampleBreaks
import H264.Proofs.Framing.Streams

/-!
# From samples to streams and back

Units that a stream carries as they are (`Streamable`) come back from the stream that is written of
them: the zero byte before each start code is trimmed from the unit before it, and no start code is
found but those that were written (`unitBytes_joinAnnexB`). A sample without empty entries is the
one of its units (`joinSample_of_splitSample`). Main statement: **`repackaging_lossless`**.
-/

namespace H264.Framing

/-! ## Units in a stream -/

/-- Bytes that a stream carries as they are: no start code inside, and a last byte other than
zero. -/
structure Streamable (bytes : Bytes) : Prop where
  apart : ¬startCode <:+: bytes
  last : ∃ byte, bytes.getLast? = some byte ∧ byte ≠ 0

theorem Streamable.trimZeros_eq {bytes : Bytes} (h : Streamable bytes) :
    trimZeros bytes = bytes := by
  obtain ⟨byte, hlast, hbyte⟩ := h.last
  obtain ⟨front, rfl⟩ := List.getLast?_eq_some_iff.mp hlast
  exact Rbsp.trimZeros_concat_of_ne_zero front hbyte

theorem Streamable.ne_nil {bytes : Bytes} (h : Streamable bytes) : bytes ≠ [] := by
  rintro rfl
  obtain ⟨byte, hlast, -⟩ := h.last
  cases hlast

variable {units : List Bytes}

theorem trimmed_of_streamable (h : ∀ unit ∈ units, Streamable unit) : trimmed units = units := by
  have htrim : units.map trimZeros = units :=
    (List.map_congr_left fun unit hunit => (h unit hunit).trimZeros_eq).trans (List.map_id' units)
  unfold trimmed
  rw [htrim, List.filter_eq_self]
  intro unit hunit
  exact decide_eq_true (h unit hunit).ne_nil

theorem joinAnnexB_eq_streamOf (units : List Bytes) :
    joinAnnexB units = streamOf (units.map fun unit => (true, unit)) := by
  unfold joinAnnexB streamOf
  rw [List.flatMap_map]
  rfl

theorem unitBytes_joinAnnexB (h : ∀ unit ∈ units, Streamable unit) :
    unitBytes (joinAnnexB units) = units := by
  have hapart : ∀ sent ∈ units.map (fun unit => (true, unit)), ¬startCode <:+: sent.2 := by
    intro sent hsent
    obtain ⟨unit, hunit, rfl⟩ := List.mem_map.mp hsent
    exact (h unit hunit).apart
  rw [joinAnnexB_eq_streamOf, unitBytes_streamOf hapart, List.map_map]
  show trimmed (units.map id) = units
  rw [List.map_id, trimmed_of_streamable h]

theorem lead_joinAnnexB (units : List Bytes) :
    ∀ byte ∈ Framer.lead (joinAnnexB units), byte = 0 := by
  rw [joinAnnexB_eq_streamOf]
  exact lead_streamOf _

/-- A stream of units is split into these units. -/
theorem exists_splitAnnexB_joinAnnexB (h : ∀ unit ∈ units, Streamable unit) :
    ∃ framed, splitAnnexB (joinAnnexB units) = .ok framed ∧ framed.map NalUnit.bytes = units := by
  have hsplit := splitAnnexB_eq (joinAnnexB units)
  cases hresult : splitAnnexB (joinAnnexB units) with
  | ok framed =>
    rw [hresult] at hsplit
    exact ⟨framed, rfl, hsplit.2.trans (unitBytes_joinAnnexB h)⟩
  | error error =>
    rw [hresult] at hsplit
    exact absurd (lead_joinAnnexB units) hsplit.1

/-- However a stream of units is cut into chunks, they are framed and nothing is discarded. -/
theorem frame_joinAnnexB {chunks : List Bytes} (hchunks : chunks.flatten = joinAnnexB units)
    (h : ∀ unit ∈ units, Streamable unit) :
    (Framer.frame {} chunks).1.map NalUnit.bytes = units ∧
      (Framer.frame {} chunks).2.discarded = 0 := by
  constructor
  · rw [Framer.map_bytes_frame, hchunks, unitBytes_joinAnnexB h]
  · rw [Framer.discarded_frame_eq_zero_iff, hchunks]
    exact lead_joinAnnexB units

/-! ## Samples without empty entries -/

variable {size : LengthSize} {sample : Bytes} {framed : List NalUnit}

/-- Behind some entries of a sample stands one of length zero. -/
def HasEmptyEntry (size : LengthSize) (sample : Bytes) : Prop :=
  ∃ (before : List Bytes) (after : Bytes), (∀ unit ∈ before, unit.length < 256 ^ size.bytes) ∧
    sample = before.flatMap (entry size) ++ (entry size [] ++ after)

theorem BreaksAfter.hasEmptyEntry_iff {rest : Bytes} (h : BreaksAfter size sample units rest) :
    HasEmptyEntry size sample ↔ [] ∈ units := by
  constructor
  · rintro ⟨before, after, hbefore, hsample⟩
    have hempty : ([] : Bytes).length < 256 ^ size.bytes := Nat.pow_pos (by decide)
    have hothers : ∀ unit ∈ before ++ [[]], unit.length < 256 ^ size.bytes := by
      intro unit hunit
      rcases List.mem_append.mp hunit with hmem | hmem
      · exact hbefore unit hmem
      · rw [List.mem_singleton.mp hmem]
        exact hempty
    have hbegins : (before ++ [[]]).flatMap (entry size) <+: sample := by
      refine ⟨after, ?_⟩
      rw [hsample, List.flatMap_append, List.flatMap_singleton, List.append_assoc]
    exact (h.isPrefix hothers hbegins).subset (List.mem_append_right _ (List.mem_singleton.mpr rfl))
  · intro hmem
    obtain ⟨before, after, rfl⟩ := List.append_of_mem hmem
    refine ⟨before, after.flatMap (entry size) ++ rest, ?_, ?_⟩
    · intro unit hunit
      exact h.fits unit (List.mem_append_left _ hunit)
    · rw [h.sample_eq, List.flatMap_append, List.flatMap_cons, List.append_assoc,
        List.append_assoc]

/-- A sample that is framed without an error, and has no empty entry, is the one of its units. -/
theorem joinSample_of_splitSample (hframed : splitSample size sample = .ok framed)
    (hentries : ¬HasEmptyEntry size sample) :
    joinSample size (framed.map NalUnit.bytes) = .ok sample := by
  rw [splitSample_eq_ok_iff] at hframed
  obtain ⟨units, rest, hbreak⟩ := exists_breaksAfter size sample
  rw [hbreak.hasEmptyEntry_iff] at hentries
  have hjoined := hbreak.framedToBreak.rejoined
  rw [hframed] at hjoined
  exact hjoined rfl hentries

/-! ## Repackaging -/

/-- **Repackaging is lossless.** A sample that is framed without an error, has no empty entry and
whose units a stream carries as they are is written as a stream, framed at once or in any chunks, and
written as a sample again: this is the sample. The units of such a stream are those that it was
written from. -/
theorem repackaging_lossless (hframed : splitSample size sample = .ok framed)
    (hentries : ¬HasEmptyEntry size sample) (hunits : ∀ unit ∈ framed, Streamable unit.bytes) :
    (∃ reframed, splitAnnexB (joinAnnexB (framed.map NalUnit.bytes)) = .ok reframed ∧
      joinSample size (reframed.map NalUnit.bytes) = .ok sample) ∧
    (∀ chunks : List Bytes, chunks.flatten = joinAnnexB (framed.map NalUnit.bytes) →
      joinSample size ((Framer.frame {} chunks).1.map NalUnit.bytes) = .ok sample ∧
        (Framer.frame {} chunks).2.discarded = 0) ∧
    ∀ units : List Bytes, (∀ unit ∈ units, Streamable unit) →
      ∃ reframed, splitAnnexB (joinAnnexB units) = .ok reframed ∧
        reframed.map NalUnit.bytes = units := by
  have hsample := joinSample_of_splitSample hframed hentries
  have hstreamable : ∀ unit ∈ framed.map NalUnit.bytes, Streamable unit := by
    intro bytes hbytes
    obtain ⟨unit, hunit, rfl⟩ := List.mem_map.mp hbytes
    exact hunits unit hunit
  refine ⟨?_, ?_, ?_⟩
  · obtain ⟨reframed, hsplit, hback⟩ := exists_splitAnnexB_joinAnnexB hstreamable
    exact ⟨reframed, hsplit, by rw [hback, hsample]⟩
  · intro chunks hchunks
    obtain ⟨hback, hdiscarded⟩ := frame_joinAnnexB hchunks hstreamable
    exact ⟨by rw [hback, hsample], hdiscarded⟩
  · intro units hall
    exact exists_splitAnnexB_joinAnnexB hall

/-- Two units, one with zeros inside, whose stream is cut inside its start codes. -/
theorem repackaging_lossless_cutStartCodes :
    let size : LengthSize := ⟨1, by decide, by decide⟩
    let sample : Bytes := [2, 0x67, 0x42, 3, 0x68, 0, 1]
    let framed : List NalUnit :=
      [{ start := 1, bytes := [0x67, 0x42] }, { start := 4, bytes := [0x68, 0, 1] }]
    let chunks : List Bytes := [[0, 0, 0], [1, 0x67, 0x42, 0], [0, 0, 1, 0x68, 0], [1]]
    splitSample size sample = .ok framed ∧ ¬HasEmptyEntry size sample ∧
      (∀ unit ∈ framed, Streamable unit.bytes) ∧
      chunks.flatten = joinAnnexB (framed.map NalUnit.bytes) ∧
      joinSample size ((Framer.frame {} chunks).1.map NalUnit.bytes) = .ok sample := by
  intro size sample framed chunks
  have hframed : splitSample size sample = .ok framed := by cbv
  have hbreak : BreaksAfter size sample [[0x67, 0x42], [0x68, 0, 1]] [] := by
    refine ⟨by decide, by decide, ?_⟩
    rw [exists_entry_isPrefix_iff]
    decide
  have hentries : ¬HasEmptyEntry size sample := by
    rw [hbreak.hasEmptyEntry_iff]
    decide
  have hunits : ∀ unit ∈ framed, Streamable unit.bytes := by
    have hfirst : Streamable [0x67, 0x42] := ⟨by decide, 0x42, rfl, by decide⟩
    have hsecond : Streamable [0x68, 0, 1] := ⟨by decide, 1, rfl, by decide⟩
    simp [framed, hfirst, hsecond]
  have hchunks : chunks.flatten = joinAnnexB (framed.map NalUnit.bytes) := by decide
  obtain ⟨-, hchunked, -⟩ := repackaging_lossless hframed hentries hunits
  exact ⟨hframed, hentries, hunits, hchunks, (hchunked chunks hchunks).1⟩

end H264.Framing
