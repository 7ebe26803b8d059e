import H264.Bits.Reader
import H264.Proofs.Bits.Numbers
import H264.Proofs.Runs

/-!
# A reader through its view

What each step of a reader does to the bits that remain, `Reader.rest`. A reader stands at a byte
and a bit of it, which are the quotient and the remainder of its position by eight
(`byteOffset_eq`, `bitOffset_eq`, `ofPos_pos`); from there on only the position matters.

Main statements: `peek_eq` says that the number in the next bits is the one these bits write,
`bits_eq_ok` and `bits_eq_error` that a fixed-width field takes just them or fails without moving,
`lastOne?_eq_some` that the last one bit has only zeros after it, and `hasMore_eq` that more is left
when a one bit is left after the next bit.
-/

namespace H264

namespace Bytes

theorem toNat_octet (byte : UInt8) : Bits.toNat (octet byte) = byte.toNat :=
  Bits.toNat_ofNat byte.toNat_lt

/-- The big-endian number of some bytes is the number that their bits write. -/
theorem toNat_eq_bits (data : Bytes) : toNat data = Bits.toNat (bits data) := by
  suffices h : ∀ start, data.foldl (fun value byte => 256 * value + byte.toNat) start =
      start * 2 ^ (bits data).length + Bits.toNat (bits data) by
    simpa [toNat] using h 0
  induction data with
  | nil => simp [bits, Bits.toNat]
  | cons byte data ih =>
    intro start
    have hcons : bits (byte :: data) = octet byte ++ bits data := List.flatMap_cons
    rw [List.foldl_cons, ih, hcons, Bits.toNat_append, toNat_octet, List.length_append,
      length_octet, Nat.pow_add, Nat.add_mul]
    have hmul : 256 * start * 2 ^ (bits data).length =
        start * (2 ^ 8 * 2 ^ (bits data).length) := by
      have hpow : 2 ^ 8 = 256 := rfl
      rw [hpow, Nat.mul_comm 256 start, Nat.mul_assoc]
    omega

theorem bits_cons (byte : UInt8) (data : Bytes) : bits (byte :: data) = octet byte ++ bits data :=
  List.flatMap_cons

theorem bits_drop (data : Bytes) (count : Nat) :
    bits (data.drop count) = (bits data).drop (8 * count) := by
  induction data generalizing count with
  | nil => simp [bits]
  | cons byte data ih =>
    cases count with
    | zero => simp
    | succ count =>
      have hlong : (octet byte).drop (8 * (count + 1)) = [] :=
        List.drop_eq_nil_of_le (by rw [length_octet]; omega)
      have hrest : 8 * (count + 1) - (octet byte).length = 8 * count := by
        rw [length_octet]
        omega
      rw [List.drop_succ_cons, ih, bits_cons, List.drop_append, hlong, hrest, List.nil_append]

theorem bits_take (data : Bytes) (count : Nat) :
    bits (data.take count) = (bits data).take (8 * count) := by
  induction data generalizing count with
  | nil => simp [bits]
  | cons byte data ih =>
    cases count with
    | zero => simp [bits]
    | succ count =>
      have hwhole : (octet byte).take (8 * (count + 1)) = octet byte :=
        List.take_of_length_le (by rw [length_octet]; omega)
      have hrest : 8 * (count + 1) - (octet byte).length = 8 * count := by
        rw [length_octet]
        omega
      rw [List.take_succ_cons, bits_cons, ih, bits_cons, List.take_append, hwhole, hrest]

theorem any_octet_drop (byte : UInt8) (count : Nat) :
    ((octet byte).drop count).any id = (byte.toNat % 1 <<< (8 - count) != 0) := by
  rw [Nat.one_shiftLeft, octet, Bits.drop_ofNat, Bits.any_eq_toNat, Bits.toNat_ofNat_mod]

theorem any_bits (data : Bytes) : (bits data).any id = data.any (· != 0) := by
  induction data with
  | nil => rfl
  | cons byte data ih =>
    have hbyte : (octet byte).any id = (byte != 0) := by
      rw [Bits.any_eq_toNat, toNat_octet, Bool.eq_iff_iff, bne_iff_ne, bne_iff_ne, ne_eq, ne_eq,
        ← UInt8.toNat_inj]
      rfl
    rw [bits_cons, List.any_append, hbyte, ih, List.any_cons]

end Bytes

namespace Reader

/-! ## The two offsets -/

/-- The byte and the bit are those of the position. -/
theorem byteOffset_eq (r : Reader) : r.byteOffset = r.pos / 8 := by
  have := r.bitOffset.isLt
  unfold pos
  omega

theorem bitOffset_eq (r : Reader) : r.bitOffset.val = r.pos % 8 := by
  have := r.bitOffset.isLt
  unfold pos
  omega

theorem byteOffset_ofPos (data : Bytes) (pos : Nat) : (ofPos data pos).byteOffset = pos / 8 :=
  Nat.shiftRight_eq_div_pow pos 3

theorem bitOffset_ofPos (data : Bytes) (pos : Nat) :
    (ofPos data pos).bitOffset.val = pos % 8 :=
  Nat.and_two_pow_sub_one_eq_mod pos 3

/-- Splitting a position into its two offsets and putting these together gives it again, -/
@[simp] theorem pos_ofPos (data : Bytes) (pos : Nat) : (ofPos data pos).pos = pos := by
  rw [Reader.pos, byteOffset_ofPos, bitOffset_ofPos, Nat.div_add_mod]

/-- and the other way round. -/
@[simp] theorem ofPos_pos (r : Reader) : ofPos r.data r.pos = r := by
  obtain ⟨data, byteOffset, bitOffset⟩ := r
  have hbyte := byteOffset_eq ⟨data, byteOffset, bitOffset⟩
  have hbit := bitOffset_eq ⟨data, byteOffset, bitOffset⟩
  rw [mk.injEq]
  refine ⟨rfl, ?_, Fin.ext ?_⟩
  · exact (byteOffset_ofPos data _).trans hbyte.symm
  · exact (bitOffset_ofPos data _).trans hbit.symm

@[simp] theorem data_ofPos (data : Bytes) (pos : Nat) : (ofPos data pos).data = data := rfl

theorem eq_of_pos {r s : Reader} (hdata : r.data = s.data) (hpos : r.pos = s.pos) : r = s := by
  rw [← ofPos_pos r, ← ofPos_pos s, hdata, hpos]

/-! ## The position -/

@[simp] theorem data_advance (r : Reader) (count : Nat) : (r.advance count).data = r.data := rfl

@[simp] theorem pos_advance (r : Reader) (count : Nat) :
    (r.advance count).pos = r.pos + count :=
  pos_ofPos r.data _

@[simp] theorem advance_zero (r : Reader) : r.advance 0 = r :=
  ofPos_pos r

theorem rest_ofPos (data : Bytes) (pos : Nat) :
    (ofPos data pos).rest = (Bytes.bits data).drop pos := by
  rw [rest, pos_ofPos, data_ofPos]

theorem length_rest (r : Reader) : r.rest.length = r.bitsLeft := by
  simp [rest, bitsLeft, size]

theorem rest_advance (r : Reader) (count : Nat) : (r.advance count).rest = r.rest.drop count := by
  simp [rest, List.drop_drop]

theorem advance_advance (r : Reader) (first second : Nat) :
    (r.advance first).advance second = r.advance (first + second) := by
  rw [advance, advance, advance, pos_ofPos, Nat.add_assoc]
  rfl

/-- Nothing is left once all that is left is consumed. -/
theorem bitsLeft_advance_bitsLeft (r : Reader) : (r.advance r.bitsLeft).bitsLeft = 0 := by
  show r.size - (r.advance (r.size - r.pos)).pos = 0
  rw [pos_advance]
  omega

/-! ## The next bits -/

/-- The bits of the bytes that hold the next `width` bits. -/
theorem bits_window (r : Reader) (width : Nat) (h : width ≤ r.bitsLeft) (hpos : 0 < width) :
    ∃ before after : List Bool,
      after.length = 8 * ((r.pos + width + 7) / 8) - (r.pos + width) ∧
      Bytes.bits ((r.data.drop (r.pos / 8)).take ((r.pos + width + 7) / 8 - r.pos / 8)) =
        before ++ r.rest.take width ++ after := by
  have hlen : r.pos + width ≤ (Bytes.bits r.data).length := by
    simp only [bitsLeft, size] at h
    rw [Bytes.length_bits]
    omega
  have hfit : 8 * ((r.pos + width + 7) / 8) ≤ (Bytes.bits r.data).length := by
    rw [Bytes.length_bits] at hlen ⊢
    omega
  generalize hw : Bytes.bits r.data = whole at hlen hfit
  refine ⟨(whole.drop (8 * (r.pos / 8))).take (r.pos % 8),
    (whole.drop (r.pos + width)).take (8 * ((r.pos + width + 7) / 8) - (r.pos + width)), ?_, ?_⟩
  · rw [List.length_take, List.length_drop]
    omega
  · rw [Bytes.bits_take, Bytes.bits_drop, hw]
    have hsplit : 8 * ((r.pos + width + 7) / 8 - r.pos / 8) =
        r.pos % 8 + (width + (8 * ((r.pos + width + 7) / 8) - (r.pos + width))) := by
      omega
    have hstart : 8 * (r.pos / 8) + r.pos % 8 = r.pos := Nat.div_add_mod r.pos 8
    rw [hsplit, List.take_add, List.drop_drop, hstart, List.take_add, List.drop_drop,
      List.append_assoc, rest, hw]

/-- The number in the next bits is the one that these bits write. -/
theorem peek_eq (r : Reader) (width : Nat) (h : width ≤ r.bitsLeft) :
    r.peek width = Bits.toNat (r.rest.take width) := by
  by_cases hpos : 0 < width
  · obtain ⟨before, after, hafter, hbits⟩ := r.bits_window width h hpos
    have hlen : (r.rest.take width).length = width := by
      rw [List.length_take, length_rest]
      omega
    have hmod := Bits.toNat_append_mod before (r.rest.take width)
    rw [hlen] at hmod
    rw [peek, Nat.one_shiftLeft, Bytes.toNat_eq_bits, hbits, ← hafter,
      Bits.toNat_append_shiftRight, hmod]
  · have hzero : width = 0 := by omega
    subst hzero
    simp [peek, Bits.toNat, Nat.mod_one]

/-! ## The last one bit -/

theorem lastOne?_eq_none {data : Bytes} (h : lastOne? data = none) :
    true ∉ Bytes.bits data := by
  intro hmem
  have hnone := Option.map_eq_none_iff.mp h
  have hall := List.findIdx?_eq_none_iff.mp hnone true (List.mem_reverse.mpr hmem)
  exact absurd hall (by decide)

/-- The last one bit is a one bit, and only zeros follow it. -/
theorem lastOne?_eq_some {data : Bytes} {place : Nat} (h : lastOne? data = some place) :
    (Bytes.bits data)[place]? = some true ∧
      ∀ later, place < later → (Bytes.bits data)[later]? ≠ some true := by
  obtain ⟨back, hback, hplace⟩ := Option.map_eq_some_iff.mp h
  obtain ⟨hlt, hone, hzeros⟩ := List.findIdx?_eq_some_iff_getElem.mp hback
  generalize Bytes.bits data = bits at hback hplace hlt hone hzeros ⊢
  rw [List.length_reverse] at hlt
  constructor
  · rw [List.getElem_reverse] at hone
    rw [← hplace, List.getElem?_eq_getElem (by omega)]
    exact congrArg some hone
  · intro later hlater hget
    obtain ⟨hlen, hvalue⟩ := List.getElem?_eq_some_iff.mp hget
    have hzero := hzeros (bits.length - 1 - later) (by omega)
    rw [List.getElem_reverse] at hzero
    have hindex : bits.length - 1 - (bits.length - 1 - later) = later := by omega
    simp only [hindex, hvalue, id] at hzero
    exact hzero trivial

theorem hasOneFrom_eq (data : Bytes) (pos : Nat) :
    hasOneFrom data pos = ((Bytes.bits data).drop pos).any id := by
  have hsplit : (Bytes.bits data).drop pos =
      (Bytes.bits (data.drop (pos / 8))).drop (pos % 8) := by
    rw [Bytes.bits_drop, List.drop_drop, Nat.div_add_mod]
  rw [hsplit, hasOneFrom]
  cases data.drop (pos / 8) with
  | nil => simp [Bytes.bits]
  | cons byte later =>
    have hshort : pos % 8 ≤ (Bytes.octet byte).length := by
      rw [Bytes.length_octet]
      omega
    rw [Bytes.bits_cons, List.drop_append_of_le_length hshort, List.any_append,
      Bytes.any_octet_drop, Bytes.any_bits]

/-- More is left when a one bit is left after the next bit. -/
theorem hasMore_eq (r : Reader) : r.hasMore = (r.rest.drop 1).any id := by
  rw [hasMore, hasOneFrom_eq, rest, List.drop_drop]

theorem hasOne_eq (r : Reader) : r.hasOne = r.rest.any id :=
  hasOneFrom_eq r.data r.pos

/-- A one bit stands at a position or after it just if the last one does. -/
theorem hasOneFrom_iff (data : Bytes) (pos : Nat) :
    hasOneFrom data pos = true ↔ ∃ last, lastOne? data = some last ∧ pos ≤ last := by
  rw [hasOneFrom_eq, List.any_eq_true]
  constructor
  · rintro ⟨bit, hmem, hbit⟩
    obtain ⟨index, hget⟩ := List.getElem?_of_mem hmem
    have hone : (Bytes.bits data)[pos + index]? = some true := by
      rw [← List.getElem?_drop, hget]
      exact congrArg some hbit
    cases hlast : lastOne? data with
    | none => exact absurd (List.mem_of_getElem? hone) (lastOne?_eq_none hlast)
    | some last =>
      refine ⟨last, rfl, ?_⟩
      by_cases hlater : last < pos + index
      · exact absurd hone ((lastOne?_eq_some hlast).2 (pos + index) hlater)
      · omega
  · rintro ⟨last, hlast, hle⟩
    refine ⟨true, ?_, rfl⟩
    have hget := (lastOne?_eq_some hlast).1
    have hsum : pos + (last - pos) = last := by omega
    rw [← hsum, ← List.getElem?_drop] at hget
    exact List.mem_of_getElem? hget

end Reader

namespace Read

/-! ## Fields -/

theorem bits_eq_ok (r : Reader) {width : Nat} (name : String) (hwidth : width ≤ maxWidth)
    (h : width ≤ r.bitsLeft) :
    bits width name r = .ok (Bits.toNat (r.rest.take width)) (r.advance width) := by
  unfold bits
  rw [if_neg (Nat.not_lt.mpr hwidth)]
  dsimp only
  rw [get_bind, if_neg (Nat.not_lt.mpr h), set_bind, ← r.peek_eq width h]
  rfl

theorem bits_eq_error (r : Reader) {width : Nat} (name : String) (hwidth : width ≤ maxWidth)
    (h : r.bitsLeft < width) : bits width name r = .error (.truncated name) r := by
  unfold bits
  rw [if_neg (Nat.not_lt.mpr hwidth)]
  dsimp only
  rw [get_bind, if_pos h, throw_bind]

/-- The rest of a byte that has been begun is as many bits as are missing to a multiple of eight. -/
theorem align_eq (r : Reader) : align r = .ok ⟨⟩ (r.advance ((8 - r.pos % 8) % 8)) := by
  have hbit := r.bitOffset_eq
  unfold align
  rw [modify_apply]
  refine congrArg (EStateM.Result.ok _) ?_
  by_cases hzero : r.bitOffset = 0
  · have hcount : (8 - r.pos % 8) % 8 = 0 := by
      rw [← hbit, hzero]
      rfl
    rw [if_pos hzero, hcount, Reader.advance_zero]
  · have hne : r.bitOffset.val ≠ 0 := fun h => hzero (Fin.ext h)
    rw [if_neg hzero]
    refine Reader.eq_of_pos rfl ?_
    rw [Reader.pos_advance]
    show 8 * (r.byteOffset + 1) + 0 = _
    rw [r.byteOffset_eq]
    omega

end Read

end H264
