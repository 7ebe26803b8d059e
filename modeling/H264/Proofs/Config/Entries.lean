import H264.DecoderConfig
import H264.ErrorClass
import H264.Proofs.Faults.Checked
import H264.Proofs.Framing.Samples

/-!
# Entries of decoder configuration records

An `Entry` is a unit of a type that a record can hold: it has a first byte, which says the type, and
its length fits a field of two bytes. Counted entries are read wherever they stand
(`readEntries_stored`), and what does not begin with that many entries is an error of framing
(`readEntries_cases`).
-/

namespace H264

namespace DecoderConfig

/-! ## Entries -/

/-- What an entry of a type holds: bytes, at least one, that say the type first, and not more than
a length field of two bytes can tell. -/
structure Entry (expected : UnitType) where
  first : UInt8
  others : Bytes
  first_type : first.toNat % 32 = expected.code
  length_lt : (first :: others).length < 65536

namespace Entry

variable {expected : UnitType} (entry : Entry expected)

/-- The bytes of the unit. -/
def bytes : Bytes :=
  entry.first :: entry.others

/-- The unit behind its length. -/
def stored : Bytes :=
  Bytes.ofNat 2 entry.bytes.length ++ entry.bytes

/-- The unit of an entry that stands at `offset`. -/
def unit (offset : Nat) : NalUnit where
  start := offset + 2
  bytes := entry.bytes

theorem length_stored : entry.stored.length = 2 + entry.bytes.length := by
  rw [stored, List.length_append, Bytes.length_ofNat]

theorem stop_unit (offset : Nat) : (entry.unit offset).stop = offset + entry.stored.length := by
  rw [length_stored, ← Nat.add_assoc]
  rfl

theorem ofByte_first : UnitType.ofByte entry.first = expected := by
  rw [UnitType.ofByte, ← UnitType.ofCode_mod, entry.first_type, UnitType.ofCode_code]

theorem toNat_lengthField : Bytes.toNat (Bytes.ofNat 2 entry.bytes.length) = entry.bytes.length :=
  Bytes.toNat_ofNat entry.length_lt

end Entry

/-- The units of entries that follow each other from `offset` on. -/
def unitsFrom {expected : UnitType} (offset : Nat) : List (Entry expected) → List NalUnit
  | [] => []
  | entry :: others => entry.unit offset :: unitsFrom (offset + entry.stored.length) others

theorem bytes_unitsFrom {expected : UnitType} (offset : Nat) (entries : List (Entry expected)) :
    (unitsFrom offset entries).map NalUnit.bytes = entries.map Entry.bytes := by
  induction entries generalizing offset with
  | nil => rfl
  | cons entry others ih =>
    rw [unitsFrom, List.map_cons, ih]
    rfl

theorem type?_of_mem_unitsFrom {expected : UnitType} {offset : Nat}
    {entries : List (Entry expected)} {unit : NalUnit} (h : unit ∈ unitsFrom offset entries) :
    unit.type? = some expected := by
  induction entries generalizing offset with
  | nil => cases h
  | cons entry others ih =>
    rcases List.mem_cons.mp h with rfl | hmem
    · exact congrArg some entry.ofByte_first
    · exact ih hmem

/-! ## Reading one part -/

/-- An outcome that is an error of framing. -/
def Misframed {α : Type} (outcome : Except Error α) : Prop :=
  ∃ error, outcome = .error error ∧ error.errorClass = .framing

theorem Misframed.bind {α β : Type} {outcome : Except Error α} (h : Misframed outcome)
    (next : α → Except Error β) : Misframed (outcome >>= next) := by
  obtain ⟨error, rfl, hclass⟩ := h
  exact ⟨error, rfl, hclass⟩

variable (total : Nat) (expected : UnitType)

theorem take_append (bytes rest : Bytes) (offset : Nat) :
    take total bytes.length ⟨offset, bytes ++ rest⟩ = .ok (bytes, ⟨offset + bytes.length, rest⟩) := by
  have hlong : ¬(bytes ++ rest).length < bytes.length := by
    rw [List.length_append]
    omega
  rw [take, if_neg hlong]
  dsimp only
  rw [List.take_left, List.drop_left]

theorem take_cases (count offset : Nat) (data : Bytes) :
    (∃ bytes rest, bytes.length = count ∧ data = bytes ++ rest ∧
        take total count ⟨offset, data⟩ = .ok (bytes, ⟨offset + count, rest⟩)) ∨
      Misframed (take total count ⟨offset, data⟩) := by
  by_cases hshort : data.length < count
  · rw [take, if_pos hshort]
    exact .inr ⟨_, rfl, rfl⟩
  · have hlength : (data.take count).length = count := by
      rw [List.length_take]
      omega
    have htaken := take_append total (data.take count) (data.drop count) offset
    rw [List.take_append_drop, hlength] at htaken
    exact .inl ⟨_, _, hlength, (List.take_append_drop count data).symm, htaken⟩

/-- An entry is read wherever it stands and whatever follows. -/
theorem readEntry_stored (entry : Entry expected) (offset : Nat) (rest : Bytes) :
    readEntry total expected ⟨offset, entry.stored ++ rest⟩ =
      .ok (entry.unit offset, ⟨offset + entry.stored.length, rest⟩) := by
  have hfield := take_append total (Bytes.ofNat 2 entry.bytes.length) (entry.bytes ++ rest) offset
  have hbody := take_append total entry.bytes rest (offset + 2)
  rw [Bytes.length_ofNat, ← List.append_assoc] at hfield
  rw [← entry.toNat_lengthField] at hbody
  rw [readEntry, Entry.stored, hfield]
  show (take total (Bytes.toNat (Bytes.ofNat 2 entry.bytes.length)) _ >>= _) = _
  rw [hbody]
  show (if UnitType.ofByte entry.first ≠ expected then _ else _ : Except Error _) = _
  rw [if_neg (not_not.mpr entry.ofByte_first), entry.toNat_lengthField, ← Entry.stored,
    entry.length_stored, ← Nat.add_assoc]
  rfl

/-- Where no entry is, reading one is an error. -/
theorem readEntry_cases (cursor : Cursor) :
    (∃ (entry : Entry expected) (rest : Bytes), cursor.rest = entry.stored ++ rest) ∨
      Misframed (readEntry total expected cursor) := by
  obtain ⟨offset, data⟩ := cursor
  -- the length, then as many bytes, then their first: each may fail
  obtain ⟨field, body, hfield, rfl, hread⟩ | hshort := take_cases total 2 offset data
  swap
  · exact .inr (hshort.bind _)
  rw [readEntry, hread]
  obtain ⟨bytes, rest, hbytes, rfl, hunit⟩ | hshort :=
    take_cases total (Bytes.toNat field) (offset + 2) body
  swap
  · exact .inr (hshort.bind _)
  show _ ∨ Misframed (take total (Bytes.toNat field) _ >>= _)
  rw [hunit]
  cases bytes with
  | nil => exact .inr ⟨_, rfl, rfl⟩
  | cons first others =>
    show _ ∨ Misframed (if UnitType.ofByte first ≠ expected then _ else _)
    by_cases htype : UnitType.ofByte first = expected
    · have hfirst : first.toNat % 32 = expected.code := by
        rw [← UnitType.code_ofCode, ← UnitType.ofByte, htype]
      have hlt : (first :: others).length < 65536 := by
        have := Bytes.toNat_lt field
        rw [hfield] at this
        exact hbytes ▸ this
      refine .inl ⟨⟨first, others, hfirst, hlt⟩, rest, ?_⟩
      show field ++ (first :: others ++ rest) =
        (Bytes.ofNat 2 (first :: others).length ++ first :: others) ++ rest
      rw [hbytes, ← hfield, Bytes.ofNat_toNat, List.append_assoc]
    · rw [if_pos htype]
      exact .inr ⟨_, rfl, rfl⟩

/-- Entries that follow each other are all read. -/
theorem readEntries_stored (entries : List (Entry expected)) (offset : Nat) (rest : Bytes) :
    readEntries total expected entries.length ⟨offset, entries.flatMap Entry.stored ++ rest⟩ =
      .ok (unitsFrom offset entries, ⟨offset + (entries.flatMap Entry.stored).length, rest⟩) := by
  induction entries generalizing offset with
  | nil => rfl
  | cons entry others ih =>
    rw [List.length_cons, readEntries, List.flatMap_cons, List.append_assoc, readEntry_stored]
    show (readEntries total expected others.length _ >>= _) = _
    rw [ih, List.length_append, ← Nat.add_assoc]
    rfl

/-- Where fewer entries are than the count, reading them is an error. -/
theorem readEntries_cases (count : Nat) (cursor : Cursor) :
    (∃ (entries : List (Entry expected)) (rest : Bytes),
        entries.length = count ∧ cursor.rest = entries.flatMap Entry.stored ++ rest) ∨
      Misframed (readEntries total expected count cursor) := by
  induction count generalizing cursor with
  | zero => exact .inl ⟨[], cursor.rest, rfl, rfl⟩
  | succ count ih =>
    obtain ⟨offset, data⟩ := cursor
    obtain ⟨entry, rest, rfl⟩ | hbad := readEntry_cases total expected ⟨offset, data⟩
    swap
    · exact .inr (hbad.bind _)
    rw [readEntries, readEntry_stored]
    obtain ⟨others, rest, rfl, rfl⟩ | hbad := ih ⟨offset + entry.stored.length, rest⟩
    · refine .inl ⟨entry :: others, rest, rfl, ?_⟩
      rw [List.flatMap_cons, List.append_assoc]
    · exact .inr (hbad.bind _)

end DecoderConfig

end H264
