import H264.Bits.Basic
import H264.Nal.UnitType

/-!
# NAL unit headers

The first byte of a unit, and the three bytes that follow it in prefix units and slice extensions.
Their first bit tells the scalable form from the multiview form. `NalHeader.ofByte_toByte` says that
a header reads back from its byte.
-/

namespace H264

/-- The header byte of a unit. -/
structure NalHeader where
  forbiddenZeroBit : Bool
  nalRefIdc : Nat
  unitType : UnitType
deriving DecidableEq, Repr, Inhabited

namespace NalHeader

/-- The header that a byte holds. -/
def ofByte (byte : UInt8) : NalHeader where
  forbiddenZeroBit := byte.toNat.testBit 7
  nalRefIdc := byte.toNat / 32 % 4
  unitType := .ofByte byte

/-- The byte that holds a header. -/
def toByte (header : NalHeader) : Nat :=
  128 * header.forbiddenZeroBit.toNat + 32 * header.nalRefIdc + header.unitType.code

theorem ofByte_toByte {header : NalHeader} (h : header.nalRefIdc < 4) :
    ofByte (UInt8.ofNat header.toByte) = header := by
  obtain ⟨forbidden, refIdc, type⟩ := header
  replace h : refIdc < 4 := h
  have hcode := type.code_lt
  have hlt : 128 * forbidden.toNat + 32 * refIdc + type.code < 256 := by
    cases forbidden <;> simp only [Bool.toNat_true, Bool.toNat_false] <;> omega
  have hnat : (UInt8.ofNat (128 * forbidden.toNat + 32 * refIdc + type.code)).toNat =
      128 * forbidden.toNat + 32 * refIdc + type.code := UInt8.toNat_ofNat_of_lt' hlt
  simp only [toByte, ofByte, UnitType.ofByte, hnat, NalHeader.mk.injEq]
  refine ⟨?_, ?_, ?_⟩
  · rw [Nat.testBit_eq_decide_div_mod_eq]
    cases forbidden <;> simp only [Bool.toNat_true, Bool.toNat_false] <;> simp <;> omega
  · omega
  · have hmod : (128 * forbidden.toNat + 32 * refIdc + type.code) % 32 = type.code := by omega
    rw [← UnitType.ofCode_mod, hmod, UnitType.ofCode_code]

end NalHeader

/-- The scalable form of the header extension. -/
structure SvcHeaderExtension where
  idrFlag : Bool
  priorityId : Nat
  noInterLayerPredFlag : Bool
  dependencyId : Nat
  qualityId : Nat
  temporalId : Nat
  useRefBasePicFlag : Bool
  discardableFlag : Bool
  outputFlag : Bool
deriving DecidableEq, Repr, Inhabited

/-- The multiview form of the header extension. -/
structure MvcHeaderExtension where
  nonIdrFlag : Bool
  priorityId : Nat
  viewId : Int
  temporalId : Nat
  anchorPicFlag : Bool
  interViewFlag : Bool
deriving DecidableEq, Repr, Inhabited

/-- The three header bytes of prefix units and slice extensions. -/
inductive HeaderExtension
  | svc (fields : SvcHeaderExtension)
  | mvc (fields : MvcHeaderExtension)
deriving DecidableEq, Repr, Inhabited

namespace HeaderExtension

/-- The extension that three bytes hold. -/
def ofBytes (first second third : UInt8) : HeaderExtension :=
  let b0 := first.toNat
  let b1 := second.toNat
  let b2 := third.toNat
  if b0.testBit 7 then
    .svc {
      idrFlag := b0.testBit 6
      priorityId := b0 % 64
      noInterLayerPredFlag := b1.testBit 7
      dependencyId := b1 / 16 % 8
      qualityId := b1 % 16
      temporalId := b2 / 32
      useRefBasePicFlag := b2.testBit 4
      discardableFlag := b2.testBit 3
      outputFlag := b2.testBit 2 }
  else
    .mvc {
      nonIdrFlag := b0.testBit 6
      priorityId := b0 % 64
      viewId := (4 * b1 + b2 / 64 : Nat)
      temporalId := b2 / 8 % 8
      anchorPicFlag := b2.testBit 2
      interViewFlag := b2.testBit 1 }

/-- The one bits of either of two numbers, in two's complement of any width. -/
def eitherBits : Int → Int → Int
  | .ofNat m, .ofNat n => .ofNat (m ||| n)
  | .ofNat m, .negSucc n => .negSucc (n ^^^ (n &&& m))
  | .negSucc m, .ofNat n => .negSucc (m ^^^ (m &&& n))
  | .negSucc m, .negSucc n => .negSucc (m &&& n)

/-- The extension of three numbers that a caller gives. Of each the low eight bits count, but a view
identifier takes the second and the third as they are. -/
def ofNumbers (first second third : Int) : HeaderExtension :=
  match ofBytes (.ofInt first) (.ofInt second) (.ofInt third) with
  | .svc fields => .svc fields
  | .mvc fields => .mvc { fields with viewId := eitherBits (4 * second) (third / 64) }

/-- The three bytes that hold an extension, with reserved bits set. -/
def toBytes : HeaderExtension → Bytes
  | .svc e =>
    [UInt8.ofNat (128 + 64 * e.idrFlag.toNat + e.priorityId),
     UInt8.ofNat (128 * e.noInterLayerPredFlag.toNat + 16 * e.dependencyId + e.qualityId),
     UInt8.ofNat (32 * e.temporalId + 16 * e.useRefBasePicFlag.toNat +
       8 * e.discardableFlag.toNat + 4 * e.outputFlag.toNat + 3)]
  | .mvc e =>
    [UInt8.ofNat (64 * e.nonIdrFlag.toNat + e.priorityId),
     UInt8.ofInt (e.viewId / 4),
     UInt8.ofNat (64 * (e.viewId % 4).toNat + 8 * e.temporalId + 4 * e.anchorPicFlag.toNat +
       2 * e.interViewFlag.toNat + 1)]

end HeaderExtension

end H264
