import H264.Proofs.Framing.Chunks
import H264.Proofs.Rbsp.EndingZeros

/-!
# Streams of units

A stream is written by putting a start code of four bytes or of three before each unit. Where no
start code occurs inside a unit, framing finds the units again, less the zeros at their ends:
`unitBytes_streamOf`. The zero before a long start code is no part of the unit before it, for it is
trimmed as well.

A `SentUnit` has no zeros at its end to lose, so it arrives as it is (`SentUnit.unitBytes_stream`).
-/

namespace H264.Framing

open Rbsp

/-! ## No start code inside -/

theorem cutAtStartCode_eq_none {bytes : Bytes} (h : ¬startCode <:+: bytes) :
    cutAtStartCode bytes = none := by
  cases hcut : cutAtStartCode bytes with
  | none => rfl
  | some cut =>
    obtain ⟨before, after⟩ := cut
    exact absurd ⟨before, after, (eq_of_cutAtStartCode hcut).symm⟩ h

/-- Bytes without a start code end at the next one, zeros before it included. -/
theorem cutAtStartCode_append_startCode {bytes : Bytes} (h : ¬startCode <:+: bytes)
    (later : Bytes) :
    cutAtStartCode (bytes ++ (startCode ++ later)) = some (bytes, later) := by
  induction bytes with
  | nil => exact cutAtStartCode_startCode later
  | cons byte rest ih =>
    have hrest : ¬startCode <:+: rest := fun hoccurs => h (List.infix_cons hoccurs)
    have hhere : ¬startCode <+: byte :: (rest ++ (startCode ++ later)) := by
      intro hstarts
      -- the last byte of a start code is not zero, so it would stand before the next one
      match rest, h, hstarts with
      | [], _, hstarts => simp [startCode] at hstarts
      | [second], _, hstarts => simp [startCode] at hstarts
      | second :: third :: rest, h, hstarts =>
        simp only [startCode, List.cons_append, List.cons_prefix_cons, List.nil_prefix,
          and_true] at hstarts
        obtain ⟨rfl, rfl, rfl⟩ := hstarts
        exact h ⟨[], rest, rfl⟩
    rw [List.cons_append, cutAtStartCode_cons hhere, ih hrest]
    rfl

theorem startCode_not_infix_concat_zero {bytes : Bytes} (h : ¬startCode <:+: bytes) :
    ¬startCode <:+: bytes ++ [0] := by
  intro hoccurs
  rcases List.infix_concat_iff.mp hoccurs with ⟨front, hfront⟩ | hbefore
  · have hlast := congrArg List.getLast? hfront
    simp [startCode] at hlast
  · exact h hbefore

/-! ## Units after start codes -/

/-- The zero that makes a start code a long one. -/
def padding (long : Bool) : Bytes :=
  if long then [0] else []

/-- The stream of some byte strings, each after a long start code or a short one. -/
def streamOf (units : List (Bool × Bytes)) : Bytes :=
  units.flatMap fun (long, bytes) => padding long ++ startCode ++ bytes

theorem streamOf_cons (long : Bool) (bytes : Bytes) (units : List (Bool × Bytes)) :
    streamOf ((long, bytes) :: units) =
      padding long ++ (startCode ++ (bytes ++ streamOf units)) := by
  simp only [streamOf, List.flatMap_cons, List.append_assoc]

theorem trimZeros_append_padding (bytes : Bytes) (long : Bool) :
    trimZeros (bytes ++ padding long) = trimZeros bytes := by
  cases long with
  | false => exact congrArg trimZeros (List.append_nil bytes)
  | true => exact trimZeros_concat_zero bytes

theorem startCode_not_infix_append_padding {bytes : Bytes} (h : ¬startCode <:+: bytes)
    (long : Bool) : ¬startCode <:+: bytes ++ padding long := by
  cases long with
  | false =>
    show ¬startCode <:+: bytes ++ []
    rw [List.append_nil]
    exact h
  | true => exact startCode_not_infix_concat_zero h

theorem cutAtStartCode_padding (long : Bool) (later : Bytes) :
    cutAtStartCode (padding long ++ (startCode ++ later)) = some (padding long, later) := by
  have hnone : ¬startCode <:+: padding long := by cases long <;> decide
  exact cutAtStartCode_append_startCode hnone later

/-- The stretches of a stream from inside a unit on, trimmed. -/
theorem stretches_append_streamOf {bytes : Bytes} (h : ¬startCode <:+: bytes)
    {units : List (Bool × Bytes)} (hunits : ∀ unit ∈ units, ¬startCode <:+: unit.2) :
    (stretches (bytes ++ streamOf units)).map trimZeros =
      trimZeros bytes :: units.map fun unit => trimZeros unit.2 := by
  induction units generalizing bytes with
  | nil =>
    have hnone : cutAtStartCode (bytes ++ streamOf []) = none := by
      rw [streamOf, List.flatMap_nil, List.append_nil]
      exact cutAtStartCode_eq_none h
    rw [stretches_of_none hnone, streamOf, List.flatMap_nil, List.append_nil]
    rfl
  | cons unit units ih =>
    obtain ⟨long, following⟩ := unit
    have hfollowing : ¬startCode <:+: following := hunits _ List.mem_cons_self
    have hlater : ∀ unit ∈ units, ¬startCode <:+: unit.2 :=
      fun unit hmem => hunits unit (List.mem_cons_of_mem _ hmem)
    have hcut := cutAtStartCode_append_startCode (startCode_not_infix_append_padding h long)
      (following ++ streamOf units)
    rw [streamOf_cons, ← List.append_assoc, stretches_of_some hcut, List.map_cons,
      ih hfollowing hlater, trimZeros_append_padding]
    rfl

/-- **The units of a stream** are the byte strings that it was written from, trimmed. -/
theorem unitBytes_streamOf {units : List (Bool × Bytes)}
    (h : ∀ unit ∈ units, ¬startCode <:+: unit.2) :
    unitBytes (streamOf units) = trimmed (units.map Prod.snd) := by
  have hnone : ¬startCode <:+: ([] : Bytes) := by decide
  have hstretches := stretches_append_streamOf hnone h
  rw [List.nil_append] at hstretches
  unfold unitBytes trimmed
  rw [← tail_stretches, List.map_tail, hstretches, List.tail_cons, List.map_map]
  rfl

/-- Nothing but zeros stands before the first start code. -/
theorem lead_streamOf (units : List (Bool × Bytes)) :
    ∀ byte ∈ Framer.lead (streamOf units), byte = 0 := by
  cases units with
  | nil =>
    intro byte hmem
    cases hmem
  | cons unit units =>
    obtain ⟨long, bytes⟩ := unit
    unfold Framer.lead
    rw [streamOf_cons, cutAtStartCode_padding]
    intro byte hmem
    cases long with
    | false => cases hmem
    | true => exact List.mem_singleton.mp hmem

/-! ## Units without zeros at their ends -/

/-- A unit that is sent as it is, after a start code of four bytes or of three: not empty, without a
start code inside, and not ending in a zero. -/
structure SentUnit where
  bytes : Bytes
  longStartCode : Bool
  ne_nil : bytes ≠ []
  apart : ¬startCode <:+: bytes
  getLast_ne_zero : bytes.getLast ne_nil ≠ 0

namespace SentUnit

/-- The stream of some units. -/
def stream (units : List SentUnit) : Bytes :=
  streamOf (units.map fun unit => (unit.longStartCode, unit.bytes))

theorem trimZeros_bytes (unit : SentUnit) : trimZeros unit.bytes = unit.bytes := by
  rw [← List.dropLast_append_getLast unit.ne_nil]
  exact trimZeros_concat_of_ne_zero _ unit.getLast_ne_zero

theorem trimmed_map_bytes (units : List SentUnit) :
    trimmed (units.map bytes) = units.map bytes := by
  unfold trimmed
  have htrim : (units.map bytes).map trimZeros = units.map bytes := by
    rw [List.map_map]
    exact List.map_congr_left fun unit _ => unit.trimZeros_bytes
  rw [htrim, List.filter_eq_self]
  intro bytes hmem
  obtain ⟨unit, -, rfl⟩ := List.mem_map.mp hmem
  exact decide_eq_true unit.ne_nil

/-- Units that are sent arrive as they are. -/
theorem unitBytes_stream (units : List SentUnit) : unitBytes (stream units) = units.map bytes := by
  have hapart : ∀ unit ∈ units.map (fun unit => (unit.longStartCode, unit.bytes)),
      ¬startCode <:+: unit.2 := by
    intro pair hmem
    obtain ⟨unit, -, rfl⟩ := List.mem_map.mp hmem
    exact unit.apart
  have hbytes : (units.map fun unit => (unit.longStartCode, unit.bytes)).map Prod.snd =
      units.map bytes := by
    rw [List.map_map]
    rfl
  rw [stream, unitBytes_streamOf hapart, hbytes, trimmed_map_bytes]

end SentUnit

end H264.Framing
