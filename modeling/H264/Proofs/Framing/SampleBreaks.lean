import H264.Proofs.Config.Ranges
import H264.Proofs.Framing.Samples

/-!
# Where samples break off

A sample begins with as many entries as are whole, and breaks off where no further entry follows:
`BreaksAfter` says so of the units in these entries and of what is left behind them.

* `exists_breaksAfter`, `BreaksAfter.isPrefix` — every sample breaks off in just one place, behind
  the longest sequence of whole entries that it begins with;
* `sampleUnits_eq` — framing gives the units of these entries, each in its place, and reports the
  break where it is;
* **`samples_framed_to_break`** — what framing gives for every sample.
-/

namespace H264.Framing

open DecoderConfig (InOrder)

variable {size : LengthSize}

/-! ## Entries at the beginning -/

/-- An entry tells where it ends. -/
theorem entry_append_inj {first second front back : Bytes}
    (hfirst : first.length < 256 ^ size.bytes) (hsecond : second.length < 256 ^ size.bytes)
    (h : entry size first ++ front = entry size second ++ back) : first = second ∧ front = back := by
  unfold entry at h
  rw [List.append_assoc, List.append_assoc] at h
  obtain ⟨hfield, hbody⟩ := List.append_inj h (by simp)
  have hlength : first.length = second.length := by
    rw [← Bytes.toNat_ofNat hfirst, hfield, Bytes.toNat_ofNat hsecond]
  exact List.append_inj hbody hlength

/-- Bytes begin with an entry just if they hold a length and as many bytes behind it. -/
theorem exists_entry_isPrefix_iff {bytes : Bytes} :
    (∃ unit : Bytes, unit.length < 256 ^ size.bytes ∧ entry size unit <+: bytes) ↔
      size.bytes ≤ bytes.length ∧
        Bytes.toNat (bytes.take size.bytes) ≤ (bytes.drop size.bytes).length := by
  constructor
  · rintro ⟨unit, hfits, rest, rfl⟩
    have hfield : (Bytes.ofNat size.bytes unit.length).length = size.bytes :=
      Bytes.length_ofNat size.bytes unit.length
    unfold entry
    rw [List.append_assoc, List.take_left' hfield, List.drop_left' hfield, Bytes.toNat_ofNat hfits]
    simp
  · rintro ⟨hfield, hbody⟩
    have hsize : (bytes.take size.bytes).length = size.bytes := List.length_take_of_le hfield
    have hlength : ((bytes.drop size.bytes).take (Bytes.toNat (bytes.take size.bytes))).length =
        Bytes.toNat (bytes.take size.bytes) := List.length_take_of_le hbody
    have hwritten : Bytes.ofNat size.bytes (Bytes.toNat (bytes.take size.bytes)) =
        bytes.take size.bytes := by
      have hback := Bytes.ofNat_toNat (bytes.take size.bytes)
      rwa [hsize] at hback
    refine ⟨(bytes.drop size.bytes).take (Bytes.toNat (bytes.take size.bytes)), ?_, ?_⟩
    · rw [hlength]
      have hlt := Bytes.toNat_lt (bytes.take size.bytes)
      rwa [hsize] at hlt
    · unfold entry
      rw [hlength, hwritten]
      refine ⟨(bytes.drop size.bytes).drop (Bytes.toNat (bytes.take size.bytes)), ?_⟩
      rw [List.append_assoc, List.take_append_drop, List.take_append_drop]

/-- The sample is the entries of the units and then a rest that begins with no entry. -/
structure BreaksAfter (size : LengthSize) (sample : Bytes) (units : List Bytes) (rest : Bytes) :
    Prop where
  fits : ∀ unit ∈ units, unit.length < 256 ^ size.bytes
  sample_eq : sample = units.flatMap (entry size) ++ rest
  broken : ¬∃ unit : Bytes, unit.length < 256 ^ size.bytes ∧ entry size unit <+: rest

theorem exists_breaksAfter (size : LengthSize) (sample : Bytes) :
    ∃ units rest, BreaksAfter size sample units rest := by
  induction hlength : sample.length using Nat.strong_induction_on generalizing sample with
  | _ length ih =>
    by_cases hentry : ∃ unit : Bytes, unit.length < 256 ^ size.bytes ∧ entry size unit <+: sample
    · obtain ⟨unit, hfits, later, rfl⟩ := hentry
      have hshorter : later.length < length := by
        have := size.pos
        rw [← hlength, entry]
        simp only [List.length_append, Bytes.length_ofNat]
        omega
      obtain ⟨units, rest, hlater⟩ := ih later.length hshorter later rfl
      refine ⟨unit :: units, rest, ?_, ?_, hlater.broken⟩
      · exact List.forall_mem_cons.mpr ⟨hfits, hlater.fits⟩
      · rw [List.flatMap_cons, List.append_assoc, ← hlater.sample_eq]
    · refine ⟨[], sample, ?_, rfl, hentry⟩
      intro unit hunit
      cases hunit

/-- A sequence of whole entries at the beginning of a sample is a part of the longest one. -/
theorem BreaksAfter.isPrefix {sample rest : Bytes} {units others : List Bytes}
    (h : BreaksAfter size sample units rest)
    (hothers : ∀ unit ∈ others, unit.length < 256 ^ size.bytes)
    (hbegins : others.flatMap (entry size) <+: sample) : others <+: units := by
  induction others generalizing sample units with
  | nil => exact List.nil_prefix
  | cons other others ih =>
    obtain ⟨hother, hlater⟩ := List.forall_mem_cons.mp hothers
    obtain ⟨back, hback⟩ := hbegins
    rw [List.flatMap_cons, List.append_assoc, h.sample_eq] at hback
    cases units with
    | nil => exact absurd ⟨other, hother, _, hback⟩ h.broken
    | cons unit units =>
      obtain ⟨hunit, hunits⟩ := List.forall_mem_cons.mp h.fits
      rw [List.flatMap_cons, List.append_assoc] at hback
      -- both sequences begin with the same entry, so they are compared from there on
      obtain ⟨rfl, hrest⟩ := entry_append_inj hother hunit hback
      have htail := ih ⟨hunits, rfl, h.broken⟩ hlater ⟨back, hrest⟩
      exact List.cons_prefix_cons.mpr ⟨rfl, htail⟩

/-! ## Units in their places -/

/-- The units of entries that follow each other from `offset` on, less the empty ones. -/
def unitsFrom (size : LengthSize) (offset : Nat) : List Bytes → List NalUnit
  | [] => []
  | unit :: units =>
    (if unit = [] then [] else [{ start := offset + size.bytes, bytes := unit }]) ++
      unitsFrom size (offset + (entry size unit).length) units

theorem length_entry (size : LengthSize) (unit : Bytes) :
    (entry size unit).length = size.bytes + unit.length := by
  rw [entry, List.length_append, Bytes.length_ofNat]

theorem map_bytes_unitsFrom (offset : Nat) (units : List Bytes) :
    (unitsFrom size offset units).map NalUnit.bytes = units.filter (· ≠ []) := by
  induction units generalizing offset with
  | nil => rfl
  | cons unit units ih =>
    rw [unitsFrom, List.map_append, ih]
    by_cases hunit : unit = []
    · simp [hunit]
    · simp [hunit]

/-- Entries that follow each other are ranges of the sample that holds them. -/
theorem inOrder_unitsFrom (before after : Bytes) (units : List Bytes) :
    InOrder (before ++ (units.flatMap (entry size) ++ after)) before.length
      (before.length + (units.flatMap (entry size)).length)
      (unitsFrom size before.length units) := by
  induction units generalizing before with
  | nil => exact .nil
  | cons unit units ih =>
    have hothers := ih (before ++ entry size unit)
    rw [List.append_assoc, List.length_append] at hothers
    rw [List.flatMap_cons, List.append_assoc, List.length_append, ← Nat.add_assoc, unitsFrom]
    refine InOrder.append ?_ hothers (Nat.le_add_right _ _) (Nat.le_add_right _ _)
    by_cases hunit : unit = []
    · rw [if_pos hunit]
      exact .nil
    · rw [if_neg hunit]
      have hrange := NalUnit.ofRange_append (before ++ Bytes.ofNat size.bytes unit.length) unit
        (units.flatMap (entry size) ++ after)
      rw [List.append_assoc, ← List.append_assoc (Bytes.ofNat size.bytes unit.length),
        List.length_append, Bytes.length_ofNat] at hrange
      refine ⟨?_, ?_, List.pairwise_singleton _ _⟩
      · intro placed hplaced
        rw [List.mem_singleton.mp hplaced]
        exact hrange
      · intro placed hplaced
        rw [List.mem_singleton.mp hplaced, length_entry, NalUnit.stop]
        dsimp only
        omega

/-! ## What is framed -/

/-- Where no entry begins a sample ends, or else it is broken there. -/
theorem sampleUnits_of_broken {rest : Bytes} (offset : Nat)
    (h : ¬∃ unit : Bytes, unit.length < 256 ^ size.bytes ∧ entry size unit <+: rest) :
    rest = [] ∧ sampleUnits size offset rest = ([], none) ∨
      rest ≠ [] ∧ ∃ cause, sampleUnits size offset rest = ([], some (.framing offset cause)) := by
  rw [exists_entry_isPrefix_iff] at h
  by_cases hempty : rest = []
  · subst hempty
    exact .inl ⟨rfl, sampleUnits_of_end rfl⟩
  have hsome : ¬rest.isEmpty := mt List.isEmpty_iff.mp hempty
  refine .inr ⟨hempty, ?_⟩
  by_cases hfield : rest.length < size.bytes
  · have hcut : takeEntry size offset rest =
        .error (.framing offset (.cutLengthField rest.length size.bytes)) := by
      rw [takeEntry, if_neg hsome, if_pos hfield]
    exact ⟨_, sampleUnits_of_error hcut⟩
  · have hbody : (rest.drop size.bytes).length < Bytes.toNat (rest.take size.bytes) := by
      omega
    have hcut : takeEntry size offset rest = .error (.framing offset (.unitExceedsSample
        (Bytes.toNat (rest.take size.bytes)) (rest.drop size.bytes).length)) := by
      rw [takeEntry, if_neg hsome, if_neg hfield]
      exact if_pos hbody
    exact ⟨_, sampleUnits_of_error hcut⟩

theorem sampleUnits_flatMap_append {units : List Bytes}
    (h : ∀ unit ∈ units, unit.length < 256 ^ size.bytes) (offset : Nat) (rest : Bytes) :
    sampleUnits size offset (units.flatMap (entry size) ++ rest) =
      (unitsFrom size offset units ++
          (sampleUnits size (offset + (units.flatMap (entry size)).length) rest).1,
        (sampleUnits size (offset + (units.flatMap (entry size)).length) rest).2) := by
  induction units generalizing offset with
  | nil => rfl
  | cons unit units ih =>
    obtain ⟨hunit, hunits⟩ := List.forall_mem_cons.mp h
    rw [List.flatMap_cons, List.append_assoc,
      sampleUnits_of_entry (takeEntry_entry_append hunit _ _), Nat.add_assoc offset,
      ← length_entry, ih hunits, unitsFrom, List.append_assoc, List.length_append, Nat.add_assoc]

/-- Framing gives the units of the entries that are whole, and the break where it is. -/
theorem sampleUnits_eq {sample rest : Bytes} {units : List Bytes}
    (h : BreaksAfter size sample units rest) :
    rest = [] ∧ sampleUnits size 0 sample = (unitsFrom size 0 units, none) ∨
      rest ≠ [] ∧ ∃ cause, sampleUnits size 0 sample =
        (unitsFrom size 0 units, some (.framing (units.flatMap (entry size)).length cause)) := by
  have hframed := sampleUnits_flatMap_append h.fits 0 rest
  rw [← h.sample_eq, Nat.zero_add] at hframed
  rcases sampleUnits_of_broken (units.flatMap (entry size)).length h.broken with
    ⟨hempty, hend⟩ | ⟨hmore, cause, hend⟩
  · rw [hend, List.append_nil] at hframed
    exact .inl ⟨hempty, hframed⟩
  · rw [hend, List.append_nil] at hframed
    exact .inr ⟨hmore, cause, hframed⟩

/-- What framing gives for a sample whose longest sequence of whole entries is that of `units`. -/
structure FramedToBreak (size : LengthSize) (sample : Bytes) (units : List Bytes) : Prop where
  fits : ∀ unit ∈ units, unit.length < 256 ^ size.bytes
  begins : units.flatMap (entry size) <+: sample
  longest : ∀ others : List Bytes, (∀ unit ∈ others, unit.length < 256 ^ size.bytes) →
    others.flatMap (entry size) <+: sample → others <+: units
  framed : (sampleUnits size 0 sample).1.map NalUnit.bytes = units.filter (· ≠ [])
  ranges : InOrder sample 0 (units.flatMap (entry size)).length (sampleUnits size 0 sample).1
  ends : (sampleUnits size 0 sample).2 = none ↔ units.flatMap (entry size) = sample
  breaks : units.flatMap (entry size) ≠ sample → ∃ cause, (sampleUnits size 0 sample).2 =
    some (.framing (units.flatMap (entry size)).length cause)
  rejoined : (sampleUnits size 0 sample).2 = none → [] ∉ units →
    joinSample size ((sampleUnits size 0 sample).1.map NalUnit.bytes) = .ok sample

theorem BreaksAfter.framedToBreak {sample rest : Bytes} {units : List Bytes}
    (h : BreaksAfter size sample units rest) : FramedToBreak size sample units := by
  have hwhole : units.flatMap (entry size) = sample ↔ rest = [] := by
    rw [h.sample_eq, List.self_eq_append_right]
  have hframed : (sampleUnits size 0 sample).1 = unitsFrom size 0 units := by
    rcases sampleUnits_eq h with ⟨-, hrun⟩ | ⟨-, cause, hrun⟩
    · rw [hrun]
    · rw [hrun]
  have hends : (sampleUnits size 0 sample).2 = none ↔ rest = [] := by
    rcases sampleUnits_eq h with ⟨hempty, hrun⟩ | ⟨hmore, cause, hrun⟩
    · simp [hrun, hempty]
    · simp [hrun, hmore]
  have hbytes : (sampleUnits size 0 sample).1.map NalUnit.bytes = units.filter (· ≠ []) := by
    rw [hframed, map_bytes_unitsFrom]
  constructor
  case fits => exact h.fits
  case begins => exact ⟨rest, h.sample_eq.symm⟩
  case longest =>
    intro others hothers hbegins
    exact h.isPrefix hothers hbegins
  case framed => exact hbytes
  case ranges =>
    have hranges := @inOrder_unitsFrom size [] rest units
    rw [List.nil_append, ← h.sample_eq, List.length_nil, Nat.zero_add] at hranges
    rw [hframed]
    exact hranges
  case ends => rw [hends, hwhole]
  case breaks =>
    intro hbroken
    rcases sampleUnits_eq h with ⟨hempty, -⟩ | ⟨-, cause, hrun⟩
    · exact absurd (hwhole.mpr hempty) hbroken
    · exact ⟨cause, by rw [hrun]⟩
  case rejoined =>
    intro hend hnonempty
    have hall : units.filter (· ≠ []) = units := by
      rw [List.filter_eq_self]
      intro unit hunit
      exact decide_eq_true fun hempty => hnonempty (hempty ▸ hunit)
    rw [hbytes, hall, joinSample_eq h.fits, hwhole.mpr (hends.mp hend)]

theorem splitSample_eq_ok_iff {sample : Bytes} {units : List NalUnit} :
    splitSample size sample = .ok units ↔ sampleUnits size 0 sample = (units, none) := by
  unfold splitSample
  rcases sampleUnits size 0 sample with ⟨framed, _ | error⟩
  · simp
  · simp

/-- **Samples are framed up to their breaks.** The sample of units whose lengths fit gives back
those that are not empty. Every sample gives the units of the longest sequence of whole entries that
it begins with, less the empty ones, as ranges of the sample behind one another; it ends without an
error just if this is all of it, and else the error is at the end of this sequence. Without empty
entries a sample that ends without an error is the one of its units. -/
theorem samples_framed_to_break (size : LengthSize) :
    (∀ units : List Bytes, (∀ unit ∈ units, unit.length < 256 ^ size.bytes) →
      ∃ sample framed, joinSample size units = .ok sample ∧
        splitSample size sample = .ok framed ∧
        framed.map NalUnit.bytes = units.filter (· ≠ [])) ∧
    ∀ sample : Bytes, ∃ units, FramedToBreak size sample units := by
  constructor
  · intro units hfits
    obtain ⟨hframed, hend⟩ := sampleUnits_entries hfits 0
    refine ⟨_, (sampleUnits size 0 (units.flatMap (entry size))).1, joinSample_eq hfits, ?_, hframed⟩
    rw [splitSample_eq_ok_iff, ← hend]
  · intro sample
    obtain ⟨units, rest, h⟩ := exists_breaksAfter size sample
    exact ⟨units, h.framedToBreak⟩

/-- An entry of two bytes, an empty one, and one that is cut after the first of its three bytes. -/
theorem samples_framed_to_break_cutUnit :
    let size : LengthSize := ⟨2, by decide, by decide⟩
    let units : List Bytes := [[0x67, 0x42], []]
    let cut : Bytes := [0, 2, 0x67, 0x42, 0, 0, 0, 3, 0x68]
    (∀ unit ∈ units, unit.length < 256 ^ size.bytes) ∧
      (∃ sample framed, joinSample size units = .ok sample ∧ splitSample size sample = .ok framed ∧
        framed.map NalUnit.bytes = [[0x67, 0x42]]) ∧
      ∃ whole, FramedToBreak size cut whole ∧ units <+: whole := by
  intro size units cut
  have hfits : ∀ unit ∈ units, unit.length < 256 ^ size.bytes := by decide
  obtain ⟨whole, hwhole⟩ := (samples_framed_to_break size).2 cut
  refine ⟨hfits, (samples_framed_to_break size).1 units hfits, whole, hwhole, ?_⟩
  exact hwhole.longest units hfits ⟨[0, 3, 0x68], by decide⟩

end H264.Framing
