import H264.Framing.LengthPrefixed
import H264.Proofs.Bits.View

/-!
# Samples of units

A sample that was written from units is read back as the units that are not empty, each of them
after the length field that told its size: `sampleUnits_entries`. A length field holds every length
below `256 ^ size` (`Bytes.toNat_ofNat`). What breaks a sample off is an error of framing
(`isFraming_of_sampleUnits`).
-/

namespace H264

/-! ## Numbers in bytes -/

namespace Bytes

@[simp] theorem length_ofNat (size value : Nat) : (ofNat size value).length = size := by
  induction size with
  | zero => rfl
  | succ size ih => rw [ofNat, List.length_cons, ih]

theorem two_pow_eight_mul (size : Nat) : 2 ^ (8 * size) = 256 ^ size :=
  Nat.pow_mul 2 8 size

theorem toNat_cons (byte : UInt8) (data : Bytes) :
    toNat (byte :: data) = byte.toNat * 256 ^ data.length + toNat data := by
  rw [toNat_eq_bits, bits_cons, Bits.toNat_append, toNat_octet, length_bits, two_pow_eight_mul,
    ← toNat_eq_bits]

/-- Reading back a number of fixed size gives its low bytes. -/
theorem toNat_ofNat_mod (size value : Nat) : toNat (ofNat size value) = value % 256 ^ size := by
  induction size with
  | zero => rw [Nat.pow_zero, Nat.mod_one]; rfl
  | succ size ih =>
    rw [ofNat, toNat_cons, length_ofNat, ih, UInt8.toNat_ofNat', Nat.shiftRight_eq_div_pow,
      two_pow_eight_mul, Nat.mul_comm, Nat.add_comm]
    exact Nat.mod_pow_succ.symm

theorem toNat_ofNat {size value : Nat} (h : value < 256 ^ size) :
    toNat (ofNat size value) = value := by
  rw [toNat_ofNat_mod, Nat.mod_eq_of_lt h]

theorem toNat_lt (data : Bytes) : toNat data < 256 ^ data.length := by
  rw [toNat_eq_bits, ← two_pow_eight_mul, ← length_bits]
  exact Bits.toNat_lt (bits data)

/-- Bytes are the writing of the number that they stand for. -/
theorem ofNat_toNat (data : Bytes) : ofNat data.length (toNat data) = data := by
  -- the induction needs a number above the bytes, of which a shorter field keeps nothing
  suffices h : ∀ high, ofNat data.length (high * 256 ^ data.length + toNat data) = data by
    simpa using h 0
  induction data with
  | nil => exact fun high => rfl
  | cons byte data ih =>
    intro high
    have hsplit : high * 256 ^ (byte :: data).length + toNat (byte :: data) =
        (high * 256 + byte.toNat) * 256 ^ data.length + toNat data := by
      rw [toNat_cons, List.length_cons, Nat.pow_succ, Nat.add_mul, Nat.mul_comm (256 ^ data.length),
        Nat.mul_assoc, Nat.add_assoc]
    have hbyte : ((high * 256 + byte.toNat) * 256 ^ data.length + toNat data) >>>
        (8 * data.length) = high * 256 + byte.toNat := by
      rw [Nat.shiftRight_eq_div_pow, two_pow_eight_mul, Nat.mul_comm,
        Nat.mul_add_div (Nat.pow_pos (by decide)), Nat.div_eq_of_lt (toNat_lt data), Nat.add_zero]
    rw [hsplit, List.length_cons, ofNat, ih, hbyte, ← UInt8.ofNat_mod_size]
    congr 1
    rw [show (high * 256 + byte.toNat) % 2 ^ 8 = byte.toNat from by
      have := byte.toNat_lt
      omega]
    exact UInt8.ofNat_toNat

end Bytes

namespace Framing

/-! ## Entries -/

/-- A unit after its length. -/
def entry (size : LengthSize) (unit : Bytes) : Bytes :=
  Bytes.ofNat size.bytes unit.length ++ unit

/-- Units whose lengths fit have a sample. -/
theorem joinSample_eq {size : LengthSize} {units : List Bytes}
    (h : ∀ unit ∈ units, unit.length < 256 ^ size.bytes) :
    joinSample size units = .ok (units.flatMap (entry size)) := by
  induction units with
  | nil => rfl
  | cons unit units ih =>
    have hfits : ¬1 <<< (8 * size.bytes) ≤ unit.length := by
      rw [Nat.one_shiftLeft, Bytes.two_pow_eight_mul]
      exact Nat.not_le.mpr (h unit List.mem_cons_self)
    rw [joinSample, if_neg hfits, ih fun later hmem => h later (List.mem_cons_of_mem _ hmem)]
    rfl

theorem joinSamples_eq {size : LengthSize} {groups : List (List Bytes)}
    (h : ∀ group ∈ groups, ∀ unit ∈ group, unit.length < 256 ^ size.bytes) :
    groups.mapM (joinSample size) = .ok (groups.map fun group => group.flatMap (entry size)) := by
  induction groups with
  | nil => rfl
  | cons group groups ih =>
    rw [List.mapM_cons, joinSample_eq (h group List.mem_cons_self),
      ih fun later hmem => h later (List.mem_cons_of_mem _ hmem)]
    rfl

/-- An entry at the beginning of a sample is taken off it. -/
theorem takeEntry_entry_append {size : LengthSize} {unit : Bytes}
    (h : unit.length < 256 ^ size.bytes) (offset : Nat) (rest : Bytes) :
    takeEntry size offset (entry size unit ++ rest) = .ok (some (unit, rest)) := by
  have hfield : (Bytes.ofNat size.bytes unit.length).length = size.bytes :=
    Bytes.length_ofNat size.bytes unit.length
  have hbody : (entry size unit ++ rest).drop size.bytes = unit ++ rest := by
    rw [entry, List.append_assoc, List.drop_left' hfield]
  have hlength : Bytes.toNat ((entry size unit ++ rest).take size.bytes) = unit.length := by
    rw [entry, List.append_assoc, List.take_left' hfield, Bytes.toNat_ofNat h]
  have hsize : (entry size unit ++ rest).length = size.bytes + unit.length + rest.length := by
    rw [entry, List.length_append, List.length_append, hfield]
  -- the field is there, and behind it as many bytes as it says
  have hsome : ¬(entry size unit ++ rest).isEmpty := by
    rw [List.isEmpty_iff, ← List.length_eq_zero_iff, hsize]
    have := size.pos
    omega
  have hlong : ¬(entry size unit ++ rest).length < size.bytes := by omega
  have hwhole : ¬(unit ++ rest).length < unit.length := by
    rw [List.length_append]
    omega
  rw [takeEntry, if_neg hsome, if_neg hlong]
  dsimp only
  rw [hbody, hlength, if_neg hwhole, List.drop_left, List.take_left]

section

variable {size : LengthSize} {offset : Nat} {sample : Bytes}

theorem sampleUnits_of_end (h : takeEntry size offset sample = .ok none) :
    sampleUnits size offset sample = ([], none) := by
  rw [sampleUnits]
  split
  · rfl
  all_goals cases h.symm.trans ‹_›

theorem sampleUnits_of_error {error : Error} (h : takeEntry size offset sample = .error error) :
    sampleUnits size offset sample = ([], some error) := by
  rw [sampleUnits]
  split
  · cases h.symm.trans ‹_›
  · cases h.symm.trans ‹_›
    rfl
  · cases h.symm.trans ‹_›

/-- Where an entry is taken its unit is framed, unless it is empty, and then the units behind it. -/
theorem sampleUnits_of_entry {unit rest : Bytes}
    (h : takeEntry size offset sample = .ok (some (unit, rest))) :
    sampleUnits size offset sample =
      ((if unit = [] then [] else [{ start := offset + size.bytes, bytes := unit }]) ++
          (sampleUnits size (offset + size.bytes + unit.length) rest).1,
        (sampleUnits size (offset + size.bytes + unit.length) rest).2) := by
  rw [sampleUnits]
  split
  · cases h.symm.trans ‹_›
  · cases h.symm.trans ‹_›
  · cases h.symm.trans ‹_›
    dsimp only
    by_cases hunit : unit = []
    · rw [if_pos hunit, if_pos (List.isEmpty_iff.mpr hunit)]
      rfl
    · rw [if_neg hunit, if_neg (mt List.isEmpty_iff.mp hunit)]
      rfl

theorem isFraming_of_takeEntry {error : Error} (h : takeEntry size offset sample = .error error) :
    error.isFraming = true := by
  unfold takeEntry at h
  split at h
  · cases h
  · split at h
    · cases h
      rfl
    · dsimp only at h
      split at h
      · cases h
        rfl
      · cases h

/-- A sample breaks off with an error of framing. -/
theorem isFraming_of_sampleUnits {error : Error}
    (h : (sampleUnits size offset sample).2 = some error) : error.isFraming = true := by
  fun_induction sampleUnits size offset sample with
  | case1 offset sample hend => cases h
  | case2 offset sample broken hbroken =>
    cases h
    exact isFraming_of_takeEntry hbroken
  | case3 offset sample unit rest _ units broken hrest _ ih =>
    rw [hrest] at ih
    exact ih h
  | case4 offset sample unit rest _ units broken hrest _ ih =>
    rw [hrest] at ih
    exact ih h

end

/-- **The units of a sample** are those that it was written from, less the empty ones, and it does
not break off. -/
theorem sampleUnits_entries {size : LengthSize} {units : List Bytes}
    (h : ∀ unit ∈ units, unit.length < 256 ^ size.bytes) (offset : Nat) :
    (sampleUnits size offset (units.flatMap (entry size))).1.map NalUnit.bytes =
        units.filter (· ≠ []) ∧
      (sampleUnits size offset (units.flatMap (entry size))).2 = none := by
  induction units generalizing offset with
  | nil =>
    rw [List.flatMap_nil, sampleUnits_of_end rfl]
    exact ⟨rfl, rfl⟩
  | cons unit units ih =>
    obtain ⟨hunits, hend⟩ := ih (fun later hmem => h later (List.mem_cons_of_mem _ hmem))
      (offset + size.bytes + unit.length)
    rw [List.flatMap_cons,
      sampleUnits_of_entry (takeEntry_entry_append (h unit List.mem_cons_self) _ _)]
    refine ⟨?_, hend⟩
    rw [List.map_append, hunits]
    by_cases hunit : unit = []
    · rw [if_pos hunit, List.filter_cons_of_neg (by simpa using hunit)]
      rfl
    · rw [if_neg hunit, List.filter_cons_of_pos (by simpa using hunit)]
      rfl

/-- The units of samples that were written from groups of units. -/
theorem flatMap_sampleUnits_entries {size : LengthSize} {groups : List (List Bytes)}
    (h : ∀ group ∈ groups, ∀ unit ∈ group, unit.length < 256 ^ size.bytes) :
    ((groups.map fun group => group.flatMap (entry size)).flatMap fun sample =>
      (sampleUnits size 0 sample).1).map NalUnit.bytes = groups.flatten.filter (· ≠ []) := by
  induction groups with
  | nil => rfl
  | cons group groups ih =>
    rw [List.map_cons, List.flatMap_cons, List.map_append,
      (sampleUnits_entries (h group List.mem_cons_self) 0).1,
      ih fun later hmem => h later (List.mem_cons_of_mem _ hmem), List.flatten_cons,
      List.filter_append]

end Framing

end H264
