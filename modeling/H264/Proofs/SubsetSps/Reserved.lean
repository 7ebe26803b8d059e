import H264.Proofs.PrefixUnits.Marking
import H264.Proofs.SubsetSps.Early

/-!
# Bits without influence

Two structures make room for extensions that are not decoded: a subset sequence parameter set and
the prefix unit of a scalable stream. Bits behind the flag that announces such an extension, up to
the close, are passed over, whatever they are, and so is everything behind the place where reading a
subset sequence parameter set stops early: **`reserved_bits_ignored`**.
-/

namespace H264

/-- The set with a flag that announces further extensions. -/
def SubsetSps.extended (subset : SubsetSps) : SubsetSps :=
  { subset with additionalExtension2 := true }

/-- **Reserved bits have no influence.** A writer takes the elements of a valid subset sequence
parameter set up to a flag that announces further extensions. Any bits may follow, then the close
and zero bytes: the set that is read is the same. This holds of any other data that are decoded up to
the flag, too, such as those with scaling lists that are cut short, and of the payload of a prefix
unit of a scalable stream that is kept for reference. And where reading a subset sequence parameter
set stops early, any data that agree up to the place where it stopped give the same set. -/
theorem reserved_bits_ignored :
    (∀ subset : SubsetSps, subset.Valid →
      ∃ w, Element.writeAll {} subset.extended.elements = .ok w ∧
        ∀ (reserved : List Bool) (zeros : Nat), Read.value SubsetSps.read
          ((w.append reserved).trailing.toBytes ++ List.replicate zeros 0) =
            .ok subset.extended) ∧
    (∀ (data other : Bytes) (subset : SubsetSps) (mid : Reader) (reserved : List Bool)
        (zeros : Nat),
      SubsetSps.readHead { data } = .ok subset mid →
      subset.extension.any SubsetExtension.hasUndecodedTail = false →
      (Bytes.bits other).take mid.pos = (Bytes.bits data).take mid.pos →
      (Bytes.bits other).drop mid.pos =
        true :: (reserved ++ true :: List.replicate zeros false) →
      Read.value SubsetSps.read other = .ok subset.extended) ∧
    (∀ (start : Nat) (header : NalHeader) (first second third : UInt8)
        (fields : SvcHeaderExtension) (base : RefBasePic),
      header.IsPrefix → header.nalRefIdc ≠ 0 →
      HeaderExtension.ofBytes first second third = .svc fields →
      base.Legal fields → base.additionalExtension = true →
      ∃ w, Element.writeAll {} base.elements = .ok w ∧
        ∀ (reserved : List Bool) (zeros : Nat),
          PrefixUnit.ofUnit (PrefixUnit.unitOf start header first second third (Rbsp.escape
            ((w.append reserved).trailing.toBytes ++ List.replicate zeros 0))) =
              .ok { header, extension := some (.svc fields), refBasePic := some base }) ∧
    ∀ (data other : Bytes) (subset : SubsetSps) (after : Reader),
      SubsetSps.read { data } = .ok subset after → subset.StopsEarly →
      (Bytes.bits other).take after.pos = (Bytes.bits data).take after.pos →
      Read.value SubsetSps.read other = .ok subset := by
  refine ⟨?_, ?_, ?_, ?_⟩
  · intro subset hvalid
    exact ReadsClosed.exists_writer_reserved fun reserved =>
      SubsetSps.readsClosed_reserved hvalid true reserved Bool.noConfusion
  · intro data other subset mid reserved zeros hhead hdecoded hagree hbehind
    exact SubsetSps.read_of_readHead hhead hdecoded hagree hbehind
  · intro start header first second third fields base hheader hkept hextension hbase hflag
    obtain ⟨w, hwrite, hread⟩ := ReadsClosed.exists_writer_reserved fun reserved =>
      RefBasePic.readsClosed hbase reserved fun hplain => by
        rw [hflag] at hplain
        cases hplain
    refine ⟨w, hwrite, fun reserved zeros => ?_⟩
    exact PrefixUnit.ofUnit_svc hheader hkept hextension (hread reserved zeros)
  · intro data other subset after hrun hearly hagree
    exact SubsetSps.read_congr_of_stopsEarly hrun hearly hagree

/-- A set without an extension, a prefix unit without a marking, and a set of a profile with depth
that is read from 47 bits. -/
theorem reserved_bits_ignored_three :
    let sps : SeqParameterSet := {
      profileIdc := 66, constraintFlags := { value := 0 }, levelIdc := 40, id := 0
      chroma := {}, log2MaxFrameNumMinus4 := 0, picOrderCnt := .decodingOrder
      maxNumRefFrames := 1, gapsInFrameNumAllowed := false
      picWidthInMbsMinus1 := 0, picHeightInMapUnitsMinus1 := 0
      frameMbsOnly := true, mbAdaptiveFrameField := false, direct8x8Inference := true
      frameCropping := none, vui := none }
    let subset : SubsetSps := { sps }
    let header : NalHeader :=
      { forbiddenZeroBit := false, nalRefIdc := 1, unitType := .prefixUnit }
    let fields : SvcHeaderExtension := {
      idrFlag := true, priorityId := 0, noInterLayerPredFlag := true, dependencyId := 0
      qualityId := 0, temporalId := 0, useRefBasePicFlag := false, discardableFlag := false
      outputFlag := false }
    let base : RefBasePic := { store := true, marking := none, additionalExtension := true }
    let stopped : SubsetSps := { sps := { sps with profileIdc := 138 }, extension := some .depth }
    let data : Bytes := [138, 0, 40, 0xac, 0xb4, 0xf3]
    (subset.Valid ∧ ∃ w, Element.writeAll {} subset.extended.elements = .ok w ∧
      ∀ (reserved : List Bool) (zeros : Nat), Read.value SubsetSps.read
        ((w.append reserved).trailing.toBytes ++ List.replicate zeros 0) = .ok subset.extended) ∧
    (base.Legal fields ∧ ∃ w, Element.writeAll {} base.elements = .ok w ∧
      ∀ (reserved : List Bool) (zeros : Nat),
        PrefixUnit.ofUnit (PrefixUnit.unitOf 0 header 0xc0 0x80 0x03 (Rbsp.escape
          ((w.append reserved).trailing.toBytes ++ List.replicate zeros 0))) =
            .ok { header, extension := some (.svc fields), refBasePic := some base }) ∧
    SubsetSps.read { data } = .ok stopped (.ofPos data 47) ∧
      ∀ other : Bytes, (Bytes.bits other).take 47 = (Bytes.bits data).take 47 →
        Read.value SubsetSps.read other = .ok stopped := by
  intro sps subset header fields base stopped data
  have hfields : sps.ValidFields := {
    profileIdc := by decide
    constraintFlags := by decide
    levelIdc := by decide
    id := by decide
    chroma := rfl
    log2MaxFrameNumMinus4 := by decide
    picOrderCnt := trivial
    maxNumRefFrames := by decide
    picWidthInMbsMinus1 := by decide
    picHeightInMapUnitsMinus1 := by decide
    mbAdaptiveFrameField := fun _ => rfl
    frameCropping := by simp [sps]
    vui := by simp [sps] }
  have hsequence : sps.Valid := (SeqParameterSet.check_eq_ok_iff hfields).mp (by decide)
  have hextension : 66 ∉ [83, 86, 118, 128, 134, 135, 138, 139] := by decide
  have hvalid : subset.Valid := ⟨hsequence, hextension, rfl⟩
  have hbase : base.Legal fields := ⟨rfl, by simp [base]⟩
  have hrun : SubsetSps.read { data } = .ok stopped (.ofPos data 47) := by
    simp only [data, stopped, sps]
    exact Eq.refl _
  obtain ⟨hsubset, -, hprefix, hstopped⟩ := reserved_bits_ignored
  refine ⟨⟨hvalid, hsubset subset hvalid⟩, ⟨hbase, ?_⟩, hrun, fun other hagree => ?_⟩
  · exact hprefix 0 header 0xc0 0x80 0x03 fields base ⟨rfl, rfl, by decide⟩ (by decide) (by decide)
      hbase rfl
  · exact hstopped data other stopped _ hrun (.inl (by decide)) hagree

end H264
