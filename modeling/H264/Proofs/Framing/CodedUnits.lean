import H264.Proofs.Framing.Streams

/-!
# Units from payload to payload

A payload is escaped, put after a header and a start code, sent as a part of a stream, cut into
chunks with it, framed, trimmed, freed of its header and unescaped. What arrives is the payload,
less its last byte where it ends in an odd number of zeros:
**`coded_units_arrive`**.

* no start code begins inside a unit that is sent (`startCode_not_infix_bytes`), so the units of the
  stream are these (`unitBytes_stream`);
* the zero before a start code and the zero that may end a unit are trimmed, and nothing else is
  (`trimZeros_bytes`).
-/

namespace H264.Framing

open Rbsp

/-! ## Units that are sent -/

/-- A unit header behind which an escaped payload is safe: one byte, or four with a last byte that
is not zero and without a start code. -/
inductive SafeHeader
  | short (byte : UInt8) (ne_zero : byte ≠ 0)
    (type : (UnitType.ofByte byte).hasHeaderExtension = false)
  | extended (byte first second third : UInt8)
    (type : (UnitType.ofByte byte).hasHeaderExtension = true) (ne_zero : third ≠ 0)
    (apart : [first, second, third] ≠ startCode)

/-- A unit that is sent, with a start code of four bytes or of three. -/
structure CodedUnit where
  header : SafeHeader
  payload : Bytes
  longStartCode : Bool

/-- The bytes of a header. -/
def SafeHeader.bytes : SafeHeader → Bytes
  | short byte .. => [byte]
  | extended byte first second third .. => [byte, first, second, third]

namespace CodedUnit

/-- The bytes of a unit. -/
def bytes (unit : CodedUnit) : Bytes :=
  unit.header.bytes ++ escape unit.payload

/-- The zero before the start code of a unit, where there is one. -/
def padding (unit : CodedUnit) : Bytes :=
  if unit.longStartCode then [0] else []

/-- The stream of some units. -/
def stream (units : List CodedUnit) : Bytes :=
  units.flatMap fun unit => unit.padding ++ startCode ++ unit.bytes

end CodedUnit

/-! ## No start code inside -/

theorem startCode_not_infix_cons {byte : UInt8} {rest : Bytes} (hbyte : byte ≠ 0)
    (h : ¬startCode <:+: rest) : ¬startCode <:+: byte :: rest := by
  intro hoccurs
  rcases List.infix_cons_iff.mp hoccurs with hhere | hlater
  · exact hbyte (List.cons_prefix_cons.mp hhere).1.symm
  · exact h hlater

namespace SafeHeader

theorem ne_zero_of_hasHeaderExtension {byte : UInt8}
    (h : (UnitType.ofByte byte).hasHeaderExtension = true) : byte ≠ 0 := by
  rintro rfl
  cases h

theorem startCode_not_infix (header : SafeHeader) {escaped : Bytes} (h : EmulationFree escaped) :
    ¬startCode <:+: header.bytes ++ escaped := by
  have hescaped : ¬startCode <:+: escaped := h.no_low 1 (by decide)
  cases header with
  | short byte ne_zero type => exact startCode_not_infix_cons ne_zero hescaped
  | extended byte first second third type ne_zero apart =>
    refine startCode_not_infix_cons (ne_zero_of_hasHeaderExtension type) ?_
    have hthird := startCode_not_infix_cons ne_zero hescaped
    show ¬startCode <:+: first :: second :: third :: escaped
    intro hoccurs
    rcases List.infix_cons_iff.mp hoccurs with hhere | hlater
    · -- all of it in the extension
      simp only [startCode, List.cons_prefix_cons, List.nil_prefix, and_true] at hhere
      obtain ⟨rfl, rfl, rfl⟩ := hhere
      exact apart rfl
    · rcases List.infix_cons_iff.mp hlater with hhere | hlater
      · have := (List.cons_prefix_cons.mp (List.cons_prefix_cons.mp hhere).2).1
        exact ne_zero this.symm
      · exact hthird hlater

theorem bytes_ne_nil (header : SafeHeader) : header.bytes ≠ [] := by
  cases header <;> simp [bytes]

theorem trimZeros_bytes_append (header : SafeHeader) (rest : Bytes) :
    trimZeros (header.bytes ++ rest) = header.bytes ++ trimZeros rest := by
  -- only that the last byte of a header is not zero matters
  have hlast : ∃ front last, header.bytes = front ++ [last] ∧ last ≠ 0 := by
    cases header with
    | short byte ne_zero type => exact ⟨[], byte, rfl, ne_zero⟩
    | extended byte first second third type ne_zero apart =>
      exact ⟨[byte, first, second], third, rfl, ne_zero⟩
  obtain ⟨front, last, hheader, hne⟩ := hlast
  rw [hheader]
  induction rest using List.reverseRecOn with
  | nil =>
    rw [List.append_nil, trimZeros_concat_of_ne_zero front hne]
    exact (List.append_nil _).symm
  | append_singleton rest byte ih =>
    rw [← List.append_assoc]
    by_cases hbyte : byte = 0
    · rw [hbyte, trimZeros_concat_zero, trimZeros_concat_zero, ih]
    · rw [trimZeros_concat_of_ne_zero _ hbyte, trimZeros_concat_of_ne_zero _ hbyte,
        List.append_assoc]

theorem headerBytes_eq (header : SafeHeader) (start : Nat) (rest : Bytes) :
    NalUnit.headerBytes { start, bytes := header.bytes ++ rest } .byType = header.bytes.length := by
  cases header with
  | short byte ne_zero type =>
    show (UnitType.ofByte byte).headerLength = 1
    unfold UnitType.headerLength
    rw [type]
    rfl
  | extended byte first second third type ne_zero apart =>
    show (UnitType.ofByte byte).headerLength = 4
    unfold UnitType.headerLength
    rw [type]
    rfl

end SafeHeader

/-! ## The units of a stream -/

namespace CodedUnit

theorem startCode_not_infix_bytes (unit : CodedUnit) : ¬startCode <:+: unit.bytes :=
  unit.header.startCode_not_infix (emulationFree_escape unit.payload)

theorem trimZeros_bytes (unit : CodedUnit) :
    trimZeros unit.bytes = unit.header.bytes ++ escape (afterTrim unit.payload) := by
  rw [bytes, SafeHeader.trimZeros_bytes_append, trimZeros_escape]

theorem trimZeros_bytes_ne_nil (unit : CodedUnit) : trimZeros unit.bytes ≠ [] := by
  rw [trimZeros_bytes]
  exact List.append_ne_nil_of_left_ne_nil unit.header.bytes_ne_nil _

theorem stream_eq (units : List CodedUnit) :
    stream units = streamOf (units.map fun unit => (unit.longStartCode, unit.bytes)) := by
  unfold stream streamOf
  rw [List.flatMap_map]
  rfl

theorem unitBytes_stream (units : List CodedUnit) :
    unitBytes (stream units) = units.map fun unit => trimZeros unit.bytes := by
  have hapart : ∀ unit ∈ units.map (fun unit => (unit.longStartCode, unit.bytes)),
      ¬startCode <:+: unit.2 := by
    intro pair hmem
    obtain ⟨unit, -, rfl⟩ := List.mem_map.mp hmem
    exact unit.startCode_not_infix_bytes
  rw [stream_eq, unitBytes_streamOf hapart]
  unfold trimmed
  rw [List.map_map, List.map_map]
  refine List.filter_eq_self.mpr fun bytes hmem => ?_
  obtain ⟨unit, -, rfl⟩ := List.mem_map.mp hmem
  exact decide_eq_true unit.trimZeros_bytes_ne_nil

theorem lead_stream (units : List CodedUnit) : ∀ byte ∈ Framer.lead (stream units), byte = 0 := by
  rw [stream_eq]
  exact lead_streamOf _

theorem rbsp_of_bytes {received : NalUnit} {unit : CodedUnit}
    (h : received.bytes = trimZeros unit.bytes) :
    received.rbsp = .ok (afterTrim unit.payload) := by
  rw [trimZeros_bytes] at h
  obtain ⟨start, bytes⟩ := received
  subst h
  exact Rbsp.rbsp_of_bytes rfl (SafeHeader.headerBytes_eq _ _ _)

theorem map_rbsp_of_map_bytes {received : List NalUnit} {units : List CodedUnit}
    (h : received.map NalUnit.bytes = units.map fun unit => trimZeros unit.bytes) :
    received.map NalUnit.rbsp = units.map fun unit => .ok (afterTrim unit.payload) := by
  induction units generalizing received with
  | nil =>
    rw [List.map_eq_nil_iff.mp h]
    rfl
  | cons unit units ih =>
    cases received with
    | nil => cases h
    | cons first received =>
      obtain ⟨hfirst, hrest⟩ := List.cons.inj h
      rw [List.map_cons, List.map_cons, rbsp_of_bytes hfirst, ih hrest]

end CodedUnit

/-! ## From payload to payload -/

/-- **Coded units arrive.** However a stream of units is cut into chunks, framing gives just these
units, passes nothing over, and each payload is what was sent, without its last zero where it ends
in an odd number of them. -/
theorem coded_units_arrive (units : List CodedUnit) {chunks : List Bytes}
    (h : chunks.flatten = CodedUnit.stream units) :
    (Framer.frame {} chunks).1.map NalUnit.rbsp =
        units.map (fun unit => .ok
          (if endingZeros unit.payload % 2 = 0 then unit.payload else unit.payload.dropLast)) ∧
      (Framer.frame {} chunks).2.discarded = 0 := by
  refine ⟨?_, ?_⟩
  · have hbytes := Framer.map_bytes_frame chunks
    rw [h, CodedUnit.unitBytes_stream] at hbytes
    exact CodedUnit.map_rbsp_of_map_bytes hbytes
  · rw [Framer.discarded_frame_eq_zero_iff, h]
    exact CodedUnit.lead_stream units

/-- A payload that ends in three zeros, then one with an escape, both start codes cut. -/
theorem coded_units_arrive_cut :
    (Framer.frame {} [[0, 0], [0, 1, 101, 1, 0, 0, 3, 0, 0], [], [0, 1, 110, 0, 0],
        [7, 0, 0, 3, 1]]).1.map NalUnit.rbsp = [.ok [1, 0, 0], .ok [0, 0, 1]] ∧
      (Framer.frame {} [[0, 0], [0, 1, 101, 1, 0, 0, 3, 0, 0], [], [0, 1, 110, 0, 0],
        [7, 0, 0, 3, 1]]).2.discarded = 0 := by
  let slice : CodedUnit :=
    { header := .short 101 (by decide) (by decide), payload := [1, 0, 0, 0], longStartCode := true }
  let prefixed : CodedUnit :=
    { header := .extended 110 0 0 7 (by decide) (by decide) (by decide), payload := [0, 0, 1],
      longStartCode := false }
  have hstream : [[0, 0], [0, 1, 101, 1, 0, 0, 3, 0, 0], [], [0, 1, 110, 0, 0],
      [7, 0, 0, 3, 1]].flatten = CodedUnit.stream [slice, prefixed] := by decide
  have hslice : afterTrim slice.payload = [1, 0, 0] := by decide
  have hprefixed : afterTrim prefixed.payload = [0, 0, 1] := by decide
  obtain ⟨hrbsp, hdiscarded⟩ := coded_units_arrive [slice, prefixed] hstream
  refine ⟨?_, hdiscarded⟩
  rw [hrbsp, ← hslice, ← hprefixed]
  rfl

end H264.Framing
