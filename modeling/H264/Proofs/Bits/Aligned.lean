import H264.ErrorClass
import H264.Proofs.Bits.Written

/-!
# Whole bytes

A reader at the start of a byte has bytes ahead of it (`Reader.AtBytes`). `ReadsBytes` and
`TakesBytes` are about actions that go from one such place to another: the first reads given bytes,
whatever follows, and the second takes nothing but bytes of a given form or finds them cut off.
Main statement: `Bytes.exists_close_of_bits` says that a one bit and zeros that fill whole bytes are
a byte 128 and zero bytes.
-/

namespace H264

/-! ## Bytes of given bits -/

namespace Bytes

theorem octet_injective {first second : UInt8} (h : octet first = octet second) :
    first = second := by
  have hnumber := congrArg Bits.toNat h
  rw [toNat_octet, toNat_octet] at hnumber
  exact UInt8.toNat_inj.mp hnumber

theorem bits_injective {first second : Bytes} (h : bits first = bits second) : first = second := by
  induction first generalizing second with
  | nil =>
    have hlength := congrArg List.length h
    rw [length_bits, length_bits, List.length_nil] at hlength
    exact (List.length_eq_zero_iff.mp (by omega)).symm
  | cons byte rest ih =>
    cases second with
    | nil =>
      have hlength := congrArg List.length h
      rw [length_bits, length_bits, List.length_cons, List.length_nil] at hlength
      omega
    | cons other others =>
      rw [bits_cons, bits_cons] at h
      obtain ⟨hbyte, hrest⟩ := List.append_inj h (by rw [length_octet, length_octet])
      rw [octet_injective hbyte, ih hrest]

theorem bits_close (zeros : Nat) :
    bits (0x80 :: List.replicate zeros 0) = true :: List.replicate (7 + 8 * zeros) false := by
  have hfirst : octet 0x80 = true :: List.replicate 7 false := rfl
  rw [bits_cons, bits_replicate_zero, hfirst, List.cons_append, List.replicate_append_replicate]

/-- A one bit and zeros that fill whole bytes. -/
theorem exists_close_of_bits {data : Bytes} {count : Nat}
    (h : bits data = true :: List.replicate count false) :
    ∃ zeros, data = 0x80 :: List.replicate zeros 0 := by
  have hlength := congrArg List.length h
  rw [length_bits, List.length_cons, List.length_replicate] at hlength
  refine ⟨data.length - 1, bits_injective ?_⟩
  have hcount : 7 + 8 * (data.length - 1) = count := by omega
  rw [h, bits_close, hcount]

end Bytes

/-! ## The bytes that remain -/

namespace Reader

/-- The reader is at the start of a byte, and these bytes remain. -/
structure AtBytes (r : Reader) (bytes : Bytes) : Prop where
  aligned : r.pos % 8 = 0
  remaining : r.data.drop (r.pos / 8) = bytes

theorem AtBytes.start (data : Bytes) : AtBytes { data } data where
  aligned := rfl
  remaining := by
    show data.drop (0 / 8) = data
    rw [Nat.zero_div, List.drop_zero]

namespace AtBytes

variable {r : Reader} {bytes : Bytes} (h : r.AtBytes bytes)
include h

theorem bytesLeft_eq : r.bytesLeft = bytes.length := by
  rw [← h.remaining, List.length_drop, ← r.byteOffset_eq]
  rfl

theorem bitsLeft_eq : r.bitsLeft = 8 * bytes.length := by
  have haligned := h.aligned
  rw [← h.remaining, List.length_drop]
  unfold bitsLeft size
  omega

theorem rest_eq : r.rest = Bytes.bits bytes := by
  have haligned := h.aligned
  have hpos : 8 * (r.pos / 8) = r.pos := by omega
  rw [← h.remaining, Bytes.bits_drop, hpos]
  rfl

theorem advance (count : Nat) : (r.advance (8 * count)).AtBytes (bytes.drop count) where
  aligned := by
    have haligned := h.aligned
    rw [pos_advance]
    omega
  remaining := by
    have hindex : (r.pos + 8 * count) / 8 = r.pos / 8 + count := by omega
    rw [pos_advance, data_advance, hindex, ← List.drop_drop, h.remaining]

end AtBytes

/-- More is left where a byte after the next one is not zero. -/
theorem AtBytes.hasMore {r : Reader} {byte other : UInt8} {later : Bytes}
    (h : r.AtBytes (byte :: later)) (hmem : other ∈ later) (hother : other ≠ 0) :
    r.hasMore = true := by
  have haligned := h.aligned
  have hindex : (r.pos + 1) / 8 = r.pos / 8 := by omega
  have hany : later.any (· != 0) = true := List.any_eq_true.mpr ⟨other, hmem, bne_iff_ne.mpr hother⟩
  unfold Reader.hasMore hasOneFrom
  rw [hindex, h.remaining]
  dsimp only
  rw [hany, Bool.or_true]

end Reader

namespace Read

variable {r : Reader}

theorem u8_of_cons {byte : UInt8} {rest : Bytes} (h : r.AtBytes (byte :: rest)) (name : String) :
    u8 name r = .ok byte.toNat (r.advance 8) := by
  have hleft : 8 ≤ r.bitsLeft := by
    rw [h.bitsLeft_eq, List.length_cons]
    omega
  have hnext : r.rest.take 8 = Bytes.octet byte := by
    rw [h.rest_eq, Bytes.bits_cons, List.take_left' (Bytes.length_octet byte)]
  unfold u8
  rw [bits_eq_ok r name (by decide) hleft, hnext, Bytes.toNat_octet]

theorem u8_of_nil (h : r.AtBytes []) (name : String) :
    u8 name r = .error (.truncated name) r := by
  have hleft : r.bitsLeft < 8 := by
    rw [h.bitsLeft_eq, List.length_nil]
    omega
  exact bits_eq_error r name (by decide) hleft

theorem skip_of_le {count : Nat} (h : count ≤ r.bitsLeft) (name : String) :
    skip count name r = .ok ⟨⟩ (r.advance count) := by
  unfold skip
  rw [get_bind, if_neg (Nat.not_lt.mpr h)]
  rfl

end Read

/-! ## Reading given bytes -/

/-- An action that finds the bytes next takes just them and gives `value`, whatever follows. -/
def ReadsBytes {α : Type} (action : Read α) (front : Bytes) (value : α) : Prop :=
  ∀ (r : Reader) (rest : Bytes), r.AtBytes (front ++ rest) →
    ∃ after, action r = .ok value after ∧ after.AtBytes rest

namespace ReadsBytes

variable {α β : Type}

theorem pure (value : α) : ReadsBytes (Pure.pure value : Read α) [] value := by
  intro r rest h
  exact ⟨r, rfl, h⟩

theorem bind {first : Read α} {next : α → Read β} {front back : Bytes} {x : α} {y : β}
    (hfirst : ReadsBytes first front x) (hnext : ReadsBytes (next x) back y) :
    ReadsBytes (first >>= next) (front ++ back) y := by
  intro r rest h
  rw [List.append_assoc] at h
  obtain ⟨mid, hmid, hback⟩ := hfirst r (back ++ rest) h
  obtain ⟨after, hafter, hrest⟩ := hnext mid rest hback
  exact ⟨after, (bind_of_ok hmid _).trans hafter, hrest⟩

/-- An action that first looks at the reader finds the bytes there. -/
theorem get {next : Reader → Read α} {front : Bytes} {value : α}
    (h : ∀ r, front.length ≤ r.bytesLeft → ReadsBytes (next r) front value) :
    ReadsBytes (MonadState.get >>= next) front value := by
  intro r rest hbytes
  rw [get_bind]
  refine h r ?_ r rest hbytes
  rw [hbytes.bytesLeft_eq, List.length_append]
  omega

theorem u8 (byte : UInt8) (name : String) : ReadsBytes (Read.u8 name) [byte] byte.toNat := by
  intro r rest h
  exact ⟨_, Read.u8_of_cons h name, h.advance 1⟩

end ReadsBytes

/-! ## What is taken -/

/-- An action takes bytes off the front of which `post` holds, or else finds them cut off. -/
def TakesBytes {α : Type} (action : Read α) (post : α → Bytes → Prop) : Prop :=
  ∀ (r : Reader) (bytes : Bytes), r.AtBytes bytes →
    match action r with
    | .ok value after =>
      ∃ front rest, post value front ∧ bytes = front ++ rest ∧ after.AtBytes rest
    | .error error _ => error.errorClass = .truncated

namespace TakesBytes

variable {α β : Type}

theorem pure {value : α} {post : α → Bytes → Prop} (h : post value []) :
    TakesBytes (Pure.pure value) post := by
  intro r bytes hbytes
  exact ⟨[], bytes, h, rfl, hbytes⟩

theorem bind {first : Read α} {next : α → Read β} {mid : α → Bytes → Prop}
    {post : β → Bytes → Prop} (hfirst : TakesBytes first mid)
    (hnext : ∀ x front, mid x front → TakesBytes (next x) fun y back => post y (front ++ back)) :
    TakesBytes (first >>= next) post := by
  intro r bytes hbytes
  have hmid := hfirst r bytes hbytes
  cases hrun : first r with
  | error error r' =>
    rw [hrun] at hmid
    rw [bind_of_error hrun]
    exact hmid
  | ok x r' =>
    rw [hrun] at hmid
    obtain ⟨front, rest, hfront, rfl, hrest⟩ := hmid
    have hlast := hnext x front hfront r' rest hrest
    rw [bind_of_ok hrun]
    cases hend : next x r' with
    | error error after =>
      rw [hend] at hlast
      exact hlast
    | ok y after =>
      rw [hend] at hlast
      obtain ⟨back, tail, hback, rfl, htail⟩ := hlast
      exact ⟨front ++ back, tail, hback, (List.append_assoc ..).symm, htail⟩

theorem mono {action : Read α} {post weaker : α → Bytes → Prop} (h : TakesBytes action post)
    (hweaker : ∀ value front, post value front → weaker value front) :
    TakesBytes action weaker := by
  intro r bytes hbytes
  have hrun := h r bytes hbytes
  cases hend : action r with
  | error error after =>
    rw [hend] at hrun
    exact hrun
  | ok value after =>
    rw [hend] at hrun
    obtain ⟨front, rest, hfront, hsplit, hrest⟩ := hrun
    exact ⟨front, rest, hweaker value front hfront, hsplit, hrest⟩

/-- An action that first looks at the reader. -/
theorem get {next : Reader → Read α} {post : α → Bytes → Prop}
    (h : ∀ r, TakesBytes (next r) post) : TakesBytes (MonadState.get >>= next) post := by
  intro r bytes hbytes
  rw [get_bind]
  exact h r r bytes hbytes

theorem u8 (name : String) :
    TakesBytes (Read.u8 name) fun number front => ∃ byte : UInt8, number = byte.toNat ∧
      front = [byte] := by
  intro r bytes hbytes
  cases bytes with
  | nil =>
    rw [Read.u8_of_nil hbytes name]
    rfl
  | cons byte rest =>
    rw [Read.u8_of_cons hbytes name]
    exact ⟨[byte], rest, ⟨byte, rfl, rfl⟩, rfl, hbytes.advance 1⟩

end TakesBytes

end H264
