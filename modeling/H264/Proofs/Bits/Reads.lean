import H264.Bits.Element
import H264.Proofs.Bits.View

/-!
# Reading back what was written

`Reads action bits value` says that an action which finds `bits` next takes just them and gives
`value`, whatever follows. Each of the codes in which elements are sent is read back so.
-/

namespace H264

/-- The action takes `bits` off the front of what remains and gives `value`. -/
def Reads {α : Type} (action : Read α) (bits : List Bool) (value : α) : Prop :=
  ∀ (r : Reader) (tail : List Bool), r.rest = bits ++ tail →
    action r = .ok value (r.advance bits.length)

namespace Reads

variable {α β : Type}

/-! ## Putting actions together -/

theorem pure (value : α) : Reads (Pure.pure value : Read α) [] value := by
  intro r tail _
  rw [List.length_nil, Reader.advance_zero]
  rfl

theorem bind {first : Read α} {next : α → Read β} {front back : List Bool} {x : α} {y : β}
    (hfirst : Reads first front x) (hnext : Reads (next x) back y) :
    Reads (first >>= next) (front ++ back) y := by
  intro r tail h
  have hrest : (r.advance front.length).rest = back ++ tail := by
    rw [Reader.rest_advance, h, List.append_assoc, List.drop_left]
  have hstep := hfirst r (back ++ tail) (by rw [h, List.append_assoc])
  rw [bind_of_ok hstep, hnext _ tail hrest, Reader.advance_advance, List.length_append]

theorem map {first : Read α} {front : List Bool} {x : α} (f : α → β) (h : Reads first front x) :
    Reads (f <$> first) front (f x) := by
  intro r tail hrest
  exact map_of_ok (h r tail hrest) f

/-! ## Elements -/

theorem bits (width value : Nat) (name : String) (hwidth : width ≤ Read.maxWidth)
    (h : value < 2 ^ width) : Reads (Read.bits width name) (Bits.ofNat width value) value := by
  intro r tail hrest
  have hlen : width ≤ r.bitsLeft := by
    rw [← Reader.length_rest, hrest, List.length_append, Bits.length_ofNat]
    omega
  rw [Read.bits_eq_ok r name hwidth hlen, hrest, List.take_left' (Bits.length_ofNat width value),
    Bits.toNat_ofNat h, Bits.length_ofNat]

theorem flag (name : String) (value : Bool) : Reads (Read.flag name) [value] value := by
  have hfits : value.toNat < 2 ^ 1 := by cases value <;> decide
  have hread := (bits 1 value.toNat name (by decide) hfits).map (· == 1)
  have hbits : Bits.ofNat 1 value.toNat = [value] := by cases value <;> rfl
  have hvalue : (value.toNat == 1) = value := by cases value <;> rfl
  rw [hbits, hvalue] at hread
  exact hread

theorem signed {width : Nat} {value : Int} (name : String) (hpos : 0 < width)
    (hwidth : width ≤ Read.maxWidth) (hleast : -2 ^ (width - 1) ≤ value)
    (hgreatest : value < 2 ^ (width - 1)) :
    Reads (Read.signed width name) (Codeword.twosComplement width value) value := by
  have hrange : (value % (1 <<< width : Nat)).toNat < 2 ^ width := by
    rw [Nat.one_shiftLeft]
    have hmod := Int.emod_lt_of_pos value (Int.natCast_pos.mpr (Nat.two_pow_pos width))
    omega
  have hread := (bits width _ name hwidth hrange).map (Codeword.signedOfPattern width)
  rw [Codeword.signedOfPattern_mod hpos hleast hgreatest] at hread
  exact hread

theorem leadingZeros (name : String) {zeros budget : Nat} (h : zeros < budget) :
    Reads (Read.leadingZeros name budget) (List.replicate zeros false ++ [true]) zeros := by
  induction zeros generalizing budget with
  | zero =>
    obtain ⟨budget, rfl⟩ : ∃ n, budget = n + 1 := ⟨budget - 1, by omega⟩
    exact (flag name true).bind (pure 0)
  | succ zeros ih =>
    obtain ⟨budget, rfl⟩ : ∃ n, budget = n + 1 := ⟨budget - 1, by omega⟩
    exact (flag name false).bind ((ih (by omega)).map (· + 1))

theorem ue {value : Nat} (name : String) (h : value ≤ Codeword.maxCodeNumber) :
    Reads (Read.ue name) (Codeword.ue value) value := by
  have hzeros : Nat.log2 (value + 1) < Codeword.maxLeadingZeros + 1 := by
    refine (Nat.log2_lt (by omega)).mpr ?_
    simp only [Codeword.maxCodeNumber, Codeword.maxLeadingZeros] at h ⊢
    omega
  have hle : 2 ^ Nat.log2 (value + 1) ≤ value + 1 := Nat.log2_self_le (by omega)
  have hlt : value + 1 < 2 * 2 ^ Nat.log2 (value + 1) := by
    have := Nat.lt_log2_self (n := value + 1)
    rwa [Nat.pow_succ, Nat.mul_comm] at this
  have hwidth : Nat.log2 (value + 1) ≤ Read.maxWidth := by
    simp only [Read.maxWidth, Codeword.maxLeadingZeros] at hzeros ⊢
    omega
  have hread := (bits (Nat.log2 (value + 1)) (value + 1 - 2 ^ Nat.log2 (value + 1)) name hwidth
    (by omega)).map (1 <<< Nat.log2 (value + 1) - 1 + ·)
  have hvalue : 1 <<< Nat.log2 (value + 1) - 1 +
      (value + 1 - 2 ^ Nat.log2 (value + 1)) = value := by
    rw [Nat.one_shiftLeft]
    omega
  rw [hvalue] at hread
  rw [Codeword.ue_eq, ← List.singleton_append, ← List.append_assoc]
  exact (leadingZeros name hzeros).bind hread

theorem se {value : Int} (name : String)
    (h : Codeword.numberOfSigned value ≤ Codeword.maxCodeNumber) :
    Reads (Read.se name) (Codeword.se value) value := by
  have hread := (ue name h).map Codeword.signedOfNumber
  rw [Codeword.signedOfNumber_numberOfSigned] at hread
  exact hread

theorem ueMax {value : Nat} (name : String) {maximum : Int} (h : (value : Int) ≤ maximum)
    (hcode : value ≤ Codeword.maxCodeNumber) :
    Reads (Read.ueMax name maximum) (Codeword.ue value) value := by
  intro r tail hrest
  unfold Read.ueMax
  rw [bind_of_ok (ue name hcode r tail hrest), if_neg (Int.not_lt.mpr h)]
  rfl

theorem seRange {value : Int} (name : String) {least greatest : Int}
    (h : least ≤ value ∧ value ≤ greatest)
    (hcode : Codeword.numberOfSigned value ≤ Codeword.maxCodeNumber) :
    Reads (Read.seRange name least greatest) (Codeword.se value) value := by
  intro r tail hrest
  unfold Read.seRange
  rw [bind_of_ok (se name hcode r tail hrest), if_pos h]
  rfl

end Reads

end H264
