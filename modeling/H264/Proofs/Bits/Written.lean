import H264.Bits.Element
import H264.Proofs.Bits.View

/-!
# What a writer holds

A writer keeps one number and a count; its view are the bits of this number. Shifting a field in
appends its codeword to these bits (`Writer.bits_append`), and the bytes that a writer gives have
the bits written, padded with zeros to whole bytes (`Writer.bits_toBytes`).

* `Element.write_of_fits`, `Element.write_of_not_fits` — a writer takes just the elements that fit
  their codewords;
* `Writer.exists_bits_trailing` — what was written and closed, with zero bytes after it, has the
  bits written, the closing one bit and then only zeros.
-/

namespace H264

namespace Bits

/-! ## Numbers shifted together -/

theorem ofNat_zero (width : Nat) : ofNat width 0 = List.replicate width false := by
  induction width with
  | zero => rfl
  | succ width ih =>
    rw [ofNat, ih, Nat.zero_testBit]
    rfl

/-- The bits of a number in two parts. -/
theorem ofNat_add (high low value : Nat) :
    ofNat (high + low) value = ofNat high (value >>> low) ++ ofNat low value := by
  induction high with
  | zero => rw [Nat.zero_add, ofNat, List.nil_append]
  | succ high ih =>
    rw [Nat.succ_add, ofNat, ofNat, ih, Nat.testBit_shiftRight, Nat.add_comm low high]
    rfl

/-- A number that is shifted to make room for another one is written before it. -/
theorem ofNat_shiftLeft_or (width front : Nat) {count back : Nat} (h : back < 2 ^ count) :
    ofNat (width + count) (front <<< count ||| back) = ofNat width front ++ ofNat count back := by
  have hsum : front <<< count ||| back = 2 ^ count * front + back := by
    rw [← Nat.shiftLeft_add_eq_or_of_lt h, Nat.shiftLeft_eq, Nat.mul_comm]
  have hfront : (2 ^ count * front + back) >>> count = front := by
    rw [Nat.shiftRight_eq_div_pow, Nat.mul_add_div (Nat.two_pow_pos count), Nat.div_eq_of_lt h,
      Nat.add_zero]
  have hback : (2 ^ count * front + back) % 2 ^ count = back := by
    rw [Nat.mul_add_mod, Nat.mod_eq_of_lt h]
  rw [ofNat_add, hsum, hfront, ← ofNat_mod count (2 ^ count * front + back), hback]

end Bits

namespace Bytes

/-! ## Bytes of numbers -/

/-- The bytes of a number have its bits. -/
theorem bits_ofNat (size value : Nat) : bits (ofNat size value) = Bits.ofNat (8 * size) value := by
  induction size with
  | zero => rfl
  | succ size ih =>
    have hbyte : octet (UInt8.ofNat (value >>> (8 * size))) =
        Bits.ofNat 8 (value >>> (8 * size)) := by
      rw [octet, UInt8.toNat_ofNat']
      exact Bits.ofNat_mod 8 _
    rw [ofNat, bits_cons, hbyte, ih, ← Bits.ofNat_add]
    congr 1
    omega

theorem bits_replicate_zero (count : Nat) :
    bits (List.replicate count 0) = List.replicate (8 * count) false := by
  induction count with
  | zero => rfl
  | succ count ih =>
    have hzero : octet 0 = List.replicate 8 false := rfl
    rw [List.replicate_succ, bits_cons, ih, hzero, List.replicate_append_replicate]
    congr 1
    omega

end Bytes

namespace Writer

/-! ## The bits of the number -/

@[simp] theorem length_bits (w : Writer) : w.bits.length = w.length :=
  Bits.length_ofNat w.length w.value

theorem bits_put (w : Writer) {width value : Nat} (h : value < 2 ^ width) :
    (w.put width value).bits = w.bits ++ Bits.ofNat width value :=
  Bits.ofNat_shiftLeft_or w.length w.value h

/-- Shifting a number in appends the bits that write it. -/
theorem put_eq_append (w : Writer) {width value : Nat} (h : value < 2 ^ width) :
    w.put width value = w.append (Bits.ofNat width value) := by
  rw [append, Bits.length_ofNat, Bits.toNat_ofNat h]

theorem bits_append (w : Writer) (codeword : List Bool) :
    (w.append codeword).bits = w.bits ++ codeword := by
  rw [append, bits_put w (Bits.toNat_lt codeword), Bits.ofNat_toNat]

theorem bits_append_empty (codeword : List Bool) : (append {} codeword).bits = codeword :=
  bits_append {} codeword

theorem append_nil (w : Writer) : w.append [] = w := by
  obtain ⟨value, length⟩ := w
  simp [append, put, Bits.toNat]

theorem append_append (w : Writer) (front back : List Bool) :
    (w.append front).append back = w.append (front ++ back) := by
  have hvalue : (w.value <<< front.length ||| Bits.toNat front) <<< back.length |||
        Bits.toNat back =
      w.value <<< (front ++ back).length ||| Bits.toNat (front ++ back) := by
    rw [Bits.toNat_append, ← Nat.shiftLeft_eq,
      Nat.shiftLeft_add_eq_or_of_lt (Bits.toNat_lt back), List.length_append,
      Nat.shiftLeft_add, Nat.shiftLeft_or_distrib, Nat.or_assoc]
  have hlength : w.length + front.length + back.length =
      w.length + (front ++ back).length := by
    rw [List.length_append, Nat.add_assoc]
  exact congrArg₂ Writer.mk hvalue hlength

/-- The number of a writer is the one that its bits write, however many there are. -/
theorem toNat_bits_append {w : Writer} (h : Bits.toNat w.bits = w.value) (codeword : List Bool) :
    Bits.toNat (w.append codeword).bits = (w.append codeword).value := by
  rw [bits_append, Bits.toNat_append, h, ← Nat.shiftLeft_eq,
    Nat.shiftLeft_add_eq_or_of_lt (Bits.toNat_lt codeword)]
  rfl

/-! ## Fields -/

theorem fixed_of_fits (w : Writer) {width value : Int} (hwidth : 0 ≤ width) (hvalue : 0 ≤ value)
    (h : value.toNat < 2 ^ width.toNat) :
    w.fixed width value = .ok (w.append (Bits.ofNat width.toNat value.toNat)) := by
  have hfits : ¬(value < 0 ∨ value.toNat >>> width.toNat ≠ 0) := by
    rw [Nat.shiftRight_eq_div_pow, Nat.div_eq_of_lt h]
    omega
  rw [fixed, if_neg (Int.not_lt.mpr hwidth), if_neg hfits, put_eq_append w h]

/-- A pattern of the width of its field fits it, so that a signed field in range is taken. -/
theorem signed_of_fits (w : Writer) {width value : Int} (hwidth : 0 < width)
    (hleast : -((1 <<< (width.toNat - 1) : Nat) : Int) ≤ value)
    (hgreatest : value < ((1 <<< (width.toNat - 1) : Nat) : Int)) :
    w.signed width value = .ok (w.append (Codeword.twosComplement width.toNat value)) := by
  have hpos : (0 : Int) < (1 <<< width.toNat : Nat) := by
    rw [Nat.one_shiftLeft]
    exact Int.natCast_pos.mpr (Nat.two_pow_pos _)
  have hpattern : 0 ≤ value % (1 <<< width.toNat : Nat) := Int.emod_nonneg _ hpos.ne'
  have hlt : (value % (1 <<< width.toNat : Nat)).toNat < 2 ^ width.toNat := by
    have := Int.emod_lt_of_pos value hpos
    rw [Nat.one_shiftLeft] at this ⊢
    omega
  rw [signed, if_neg (Int.not_le.mpr hwidth)]
  dsimp only
  rw [if_pos ⟨hleast, hgreatest⟩, fixed_of_fits w hwidth.le hpattern hlt]
  rfl

/-- Both parts of an Exp-Golomb code fit, so that a number in range is taken. -/
theorem ue_of_fits (w : Writer) {value : Int} (hvalue : 0 ≤ value)
    (hle : value ≤ Codeword.maxCodeNumber) :
    w.ue value = .ok (w.append (Codeword.ue value.toNat)) := by
  obtain ⟨number, rfl⟩ := Int.eq_ofNat_of_zero_le hvalue
  have hzeros : w.fixed (Nat.log2 (number + 1) : Nat) 0 =
      .ok (w.append (List.replicate (Nat.log2 (number + 1)) false)) := by
    rw [fixed_of_fits w (Int.natCast_nonneg _) le_rfl (Nat.two_pow_pos _)]
    exact congrArg (fun bits => Except.ok (w.append bits)) (Bits.ofNat_zero _)
  have hnumber : number + 1 < 2 ^ (Nat.log2 (number + 1) + 1) := Nat.lt_log2_self
  rw [ue, if_pos ⟨hvalue, hle⟩]
  show (w.fixed (Nat.log2 (number + 1) : Nat) 0 >>= fun longer =>
    longer.fixed ((Nat.log2 (number + 1) : Nat) + 1) (number + 1)) = _
  rw [hzeros]
  have hback := fixed_of_fits (w.append (List.replicate (Nat.log2 (number + 1)) false))
    (Int.natCast_nonneg (Nat.log2 (number + 1) + 1)) (Int.natCast_nonneg (number + 1)) hnumber
  refine hback.trans ?_
  rw [append_append]
  rfl

/-! ## Whole bytes -/

/-- The bytes have the bits written, and then zeros to the end of the last byte. -/
theorem bits_toBytes (w : Writer) :
    Bytes.bits w.toBytes = w.bits ++ List.replicate w.missing false := by
  have hwhole : 8 * ((w.length + w.missing) / 8) = w.length + w.missing := by
    unfold missing
    omega
  have hpad : w.value <<< w.missing = w.value <<< w.missing ||| 0 := (Nat.or_zero _).symm
  rw [toBytes, Bytes.bits_ofNat, hwhole, hpad,
    Bits.ofNat_shiftLeft_or w.length w.value (Nat.two_pow_pos _), Bits.ofNat_zero]
  rfl

theorem align_eq_append (w : Writer) : w.align = w.append (List.replicate w.missing false) := by
  rw [align, put_eq_append w (Nat.two_pow_pos _), Bits.ofNat_zero]

/-- What was written and closed, with zero bytes after it, has the bits written, a one bit and only
zeros. -/
theorem exists_bits_trailing (w : Writer) (zeros : Nat) : ∃ count,
    Bytes.bits (w.trailing.toBytes ++ List.replicate zeros 0) =
      w.bits ++ true :: List.replicate count false := by
  have hone : (w.put 1 1).bits = w.bits ++ [true] := bits_put w (by decide)
  have htrailing : w.trailing.bits =
      w.bits ++ true :: List.replicate (w.put 1 1).missing false := by
    rw [trailing, align_eq_append, bits_append, hone, List.append_assoc]
    rfl
  rw [Bytes.bits_append, bits_toBytes, Bytes.bits_replicate_zero, htrailing, List.append_assoc,
    List.append_assoc, List.replicate_append_replicate, List.cons_append,
    List.replicate_append_replicate]
  exact ⟨_, rfl⟩

end Writer

namespace Element

/-! ## Elements -/

theorem write_of_fits (w : Writer) {element : Element} (h : element.Fits) :
    write w element = .ok (w.append element.codeword) := by
  cases element with
  | u width value =>
    obtain ⟨hwidth, hvalue, hlt⟩ := h
    rw [Nat.one_shiftLeft] at hlt
    exact w.fixed_of_fits hwidth hvalue hlt
  | i width value => exact w.signed_of_fits h.1 h.2.1 h.2.2
  | ue value => exact w.ue_of_fits h.1 h.2
  | se value => exact w.ue_of_fits (Int.natCast_nonneg _) (Int.ofNat_le.mpr h)

theorem write_of_not_fits (w : Writer) {element : Element} (h : ¬element.Fits) :
    ∃ cause, write w element = .error cause := by
  cases element with
  | u width value =>
    by_cases hw : width < 0
    · exact ⟨.negativeWidth width, if_pos hw⟩
    · have hbad : value < 0 ∨ value.toNat >>> width.toNat ≠ 0 := by
        refine Decidable.byContradiction fun hgood => h ⟨by omega, by omega, ?_⟩
        have hzero : value.toNat / 2 ^ width.toNat = 0 := by
          rw [← Nat.shiftRight_eq_div_pow]
          omega
        rw [Nat.one_shiftLeft]
        exact (Nat.div_eq_zero_iff_lt (Nat.two_pow_pos _)).mp hzero
      exact ⟨.doesNotFit value width, (if_neg hw).trans (if_pos hbad)⟩
  | i width value =>
    by_cases hw : width ≤ 0
    · exact ⟨.noSignBit, if_pos hw⟩
    · refine ⟨.doesNotFitSigned value width, (if_neg hw).trans (if_neg fun hrange => ?_)⟩
      exact h ⟨by omega, hrange⟩
  | ue value => exact ⟨.noExpGolombCode value, if_neg h⟩
  | se value =>
    refine ⟨.noExpGolombCode (Codeword.numberOfSigned value), if_neg fun hrange => ?_⟩
    exact h (Int.ofNat_le.mp hrange.2)

theorem writeAll_of_fits (w : Writer) {elements : List Element} (h : ∀ e ∈ elements, e.Fits) :
    writeAll w elements = .ok (w.append (bits elements)) := by
  induction elements generalizing w with
  | nil => exact congrArg Except.ok w.append_nil.symm
  | cons first rest ih =>
    obtain ⟨hfirst, hrest⟩ := List.forall_mem_cons.mp h
    have hwrite : writeAll w (first :: rest) = writeAll (w.append first.codeword) rest := by
      simp only [writeAll, List.foldlM_cons, write_of_fits w hfirst, bind, Except.bind]
    rw [hwrite, ih _ hrest, Writer.append_append, bits_cons]

end Element

end H264
