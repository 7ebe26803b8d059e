import H264.PrefixUnit
import H264.Proofs.Bits.Reserved
import H264.Proofs.Faults.Checked
import H264.Proofs.Rbsp.EmulationFree

/-!
# Marking of base pictures

What the prefix unit of a scalable stream says of the base picture, from the record through the
bits, the escapes and the header of four bytes back to the record. A marking is sent just where the
unit stores a base picture or the slice uses one, and the picture is no instantaneous refresh; two
of these flags stand in the header and one in the payload. Operations are closed by a code of their
own, and a reader allows as many of them as bits are left, of which each takes one at least.

* `BaseMarking.readsBack`, `RefBasePic.readsClosed` — the marking and the payload;
* `SvcHeaderExtension.Legal.ofBytes_toBytes` — the bytes of a scalable header hold its fields;
* `PrefixUnit.ofUnit_svc` — a payload that reads is that of a unit;
* **`PrefixUnit.base_picture_read_back`** — prefix units from record to record.
-/

namespace H264

/-! ## Operations -/

/-- A legal operation, whose operand has a code. -/
def BaseMarkingOp.Legal : BaseMarkingOp → Prop
  | unmarkShortTerm differenceOfBasePicNumsMinus1 =>
    differenceOfBasePicNumsMinus1 ≤ Codeword.maxCodeNumber
  | unmarkLongTerm longTermBasePicNum => longTermBasePicNum ≤ Codeword.maxCodeNumber

/-- A legal marking, of any number of operations. -/
def BaseMarking.Legal : BaseMarking → Prop
  | slidingWindow => True
  | adaptive operations => ∀ op ∈ operations, op.Legal

/-- A part whose reader is told how many bits are left. -/
theorem ReadsBack.bitsLeft {α : Type} (next : Nat → Read α) {elements : List Element} {value : α}
    (h : ∀ left, (Element.bits elements).length ≤ left → ReadsBack (next left) elements value) :
    ReadsBack (get >>= fun r => next r.bitsLeft) elements value where
  fits := (h _ (Nat.le_refl _)).fits
  reads := by
    intro r tail hrest
    have hleft : (Element.bits elements).length ≤ r.bitsLeft := by
      rw [← Reader.length_rest, hrest, List.length_append]
      exact Nat.le_add_right _ _
    rw [get_bind]
    exact (h r.bitsLeft hleft).reads r tail hrest

namespace BaseMarking

theorem readsBack_operations {budget : Nat} {operations : List BaseMarkingOp}
    (hcount : operations.length < budget) (h : ∀ op ∈ operations, op.Legal) :
    ReadsBack (readOperations budget)
      (operations.flatMap BaseMarkingOp.elements ++ [.ue 0]) operations := by
  induction operations generalizing budget with
  | nil =>
    obtain ⟨budget, rfl⟩ := Nat.exists_eq_add_one_of_ne_zero (Nat.ne_of_gt hcount)
    exact .cons (.ue _ (by decide)) (.pure [])
  | cons first rest ih =>
    obtain ⟨budget, rfl⟩ := Nat.exists_eq_add_one_of_ne_zero (Nat.ne_zero_of_lt hcount)
    obtain ⟨hfirst, hrest⟩ := List.forall_mem_cons.mp h
    have hback := ih (Nat.lt_of_succ_lt_succ hcount) hrest
    unfold readOperations
    cases first with
    | unmarkShortTerm difference =>
      exact .cons (.ue _ (by decide)) <| .cons (.ue _ hfirst) <| hback.map (_ :: ·)
    | unmarkLongTerm picNum =>
      exact .cons (.ue _ (by decide)) <| .cons (.ue _ hfirst) <| hback.map (_ :: ·)

/-- Each operation fills a bit at least. -/
theorem length_le_bits (operations : List BaseMarkingOp) :
    operations.length ≤
      (Element.bits (operations.flatMap BaseMarkingOp.elements ++ [.ue 0])).length := by
  induction operations with
  | nil => exact Nat.zero_le _
  | cons first rest ih =>
    have hfirst : 1 ≤ (Element.bits first.elements).length := by
      cases first <;> simp [BaseMarkingOp.elements, Codeword.ue_eq] <;> omega
    rw [List.flatMap_cons, List.append_assoc, Element.bits_append, List.length_append,
      List.length_cons]
    omega

theorem readsBack {marking : BaseMarking} (h : marking.Legal) :
    ReadsBack read marking.elements marking := by
  unfold read
  cases marking with
  | slidingWindow => exact .cons (.flag _ false) <| .pure _
  | adaptive operations =>
    have hoperations : ReadsBack
        (get >>= fun r => adaptive <$> readOperations (r.bitsLeft + 1))
        (operations.flatMap BaseMarkingOp.elements ++ [.ue 0]) (adaptive operations) := by
      refine .bitsLeft (fun left => adaptive <$> readOperations (left + 1)) ?_
      intro left hleft
      have hcount : operations.length < left + 1 :=
        Nat.lt_succ_of_le (Nat.le_trans (length_le_bits operations) hleft)
      exact (readsBack_operations hcount h).map adaptive
    exact .cons (.flag _ true) hoperations

end BaseMarking

/-! ## The payload -/

/-- A legal payload behind a scalable header extension: the marking is legal and is sent just where
a base picture is stored or used and the picture is no instantaneous refresh. -/
structure RefBasePic.Legal (fields : SvcHeaderExtension) (base : RefBasePic) : Prop where
  sent : base.marking.isSome = ((base.store || fields.useRefBasePicFlag) && !fields.idrFlag)
  marking : ∀ marking ∈ base.marking, marking.Legal

/-- The payload is read to its close, with any reserved bits before it where they are announced. -/
theorem RefBasePic.readsClosed {fields : SvcHeaderExtension} {base : RefBasePic}
    (h : base.Legal fields) (reserved : List Bool)
    (hreserved : base.additionalExtension = false → reserved = []) :
    ReadsClosed (RefBasePic.read fields) (base.elements ++ reserved.map Element.flag) base := by
  unfold RefBasePic.read RefBasePic.elements
  simp only [List.append_assoc, List.singleton_append]
  refine .cons (.flag _ _) <| .bind (.optional h.sent fun x hx => ?_) ?_
  · exact BaseMarking.readsBack (h.marking x hx)
  · exact .cons (.flag _ _) <| .reserved hreserved base

/-! ## The header -/

/-- Legal fields of a scalable header extension. -/
structure SvcHeaderExtension.Legal (fields : SvcHeaderExtension) : Prop where
  priorityId : fields.priorityId < 64
  dependencyId : fields.dependencyId < 8
  qualityId : fields.qualityId < 16
  temporalId : fields.temporalId < 8

theorem testBit_of_div_mod {number place : Nat} {bit : Bool}
    (h : number / 2 ^ place % 2 = bit.toNat) : number.testBit place = bit := by
  rw [Nat.testBit_eq_decide_div_mod_eq, h]
  cases bit <;> rfl

/-- The bytes of legal fields hold these fields. -/
theorem SvcHeaderExtension.Legal.ofBytes_toBytes {fields : SvcHeaderExtension} (h : fields.Legal) :
    ∃ first second third, (HeaderExtension.svc fields).toBytes = [first, second, third] ∧
      HeaderExtension.ofBytes first second third = .svc fields := by
  refine ⟨_, _, _, rfl, ?_⟩
  obtain ⟨hpriority, hdependency, hquality, htemporal⟩ := h
  obtain ⟨idr, priority, noPred, dependency, quality, temporal, useBase, discardable, output⟩ :=
    fields
  dsimp only at hpriority hdependency hquality htemporal ⊢
  have hidr := idr.toNat_lt
  have hnoPred := noPred.toNat_lt
  have huseBase := useBase.toNat_lt
  have hdiscardable := discardable.toNat_lt
  have houtput := output.toNat_lt
  -- the numbers fit their bytes, so that nothing is cut off
  have hfirst : 128 + 64 * idr.toNat + priority < 256 := by omega
  have hsecond : 128 * noPred.toNat + 16 * dependency + quality < 256 := by omega
  have hthird : 32 * temporal + 16 * useBase.toNat + 8 * discardable.toNat + 4 * output.toNat + 3 <
      256 := by omega
  have hscalable : (128 + 64 * idr.toNat + priority).testBit 7 = true :=
    testBit_of_div_mod (by show _ = 1; omega)
  simp only [HeaderExtension.ofBytes, UInt8.toNat_ofNat_of_lt' hfirst,
    UInt8.toNat_ofNat_of_lt' hsecond, UInt8.toNat_ofNat_of_lt' hthird, if_pos hscalable,
    HeaderExtension.svc.injEq, SvcHeaderExtension.mk.injEq]
  refine ⟨?_, by omega, ?_, by omega, by omega, by omega, ?_, ?_, ?_⟩
  all_goals exact testBit_of_div_mod (by omega)

/-- The header of a prefix unit, with a clear first bit. -/
structure NalHeader.IsPrefix (header : NalHeader) : Prop where
  unitType : header.unitType = .prefixUnit
  forbiddenZeroBit : header.forbiddenZeroBit = false
  nalRefIdc : header.nalRefIdc < 4

/-! ## The unit -/

namespace PrefixUnit

/-- The unit of a header, three bytes of its extension and the bytes behind them. -/
def unitOf (start : Nat) (header : NalHeader) (first second third : UInt8) (rest : Bytes) :
    NalUnit :=
  { start, bytes := UInt8.ofNat header.toByte :: first :: second :: third :: rest }

variable {header : NalHeader} {start : Nat} {first second third : UInt8}

theorem header_unitOf (h : header.IsPrefix) (rest : Bytes) :
    (unitOf start header first second third rest).header = .ok header := by
  show Except.ok (NalHeader.ofByte (UInt8.ofNat header.toByte)) = _
  rw [NalHeader.ofByte_toByte h.nalRefIdc]

theorem checkedHeader_unitOf (h : header.IsPrefix) (rest : Bytes) :
    (unitOf start header first second third rest).checkedHeader = .ok header := by
  unfold NalUnit.checkedHeader
  rw [header_unitOf h, ok_bind, h.forbiddenZeroBit]
  rfl

theorem headerExtension_unitOf (h : header.IsPrefix) (rest : Bytes) :
    (unitOf start header first second third rest).headerExtension =
      .ok (some (.ofBytes first second third)) := by
  unfold NalUnit.headerExtension NalUnit.type
  rw [header_unitOf h, ok_bind, h.unitType]
  rfl

theorem rbsp_unitOf (h : header.IsPrefix) (payload : Bytes) :
    (unitOf start header first second third (Rbsp.escape payload)).rbsp = .ok payload := by
  have htype : UnitType.ofByte (UInt8.ofNat header.toByte) = .prefixUnit := by
    rw [← h.unitType]
    exact congrArg NalHeader.unitType (NalHeader.ofByte_toByte h.nalRefIdc)
  have hbytes : (unitOf start header first second third (Rbsp.escape payload)).bytes =
      [UInt8.ofNat header.toByte, first, second, third] ++ Rbsp.escape payload := rfl
  refine Rbsp.rbsp_of_bytes hbytes ?_
  show (UnitType.ofByte (UInt8.ofNat header.toByte)).headerLength = 4
  rw [htype]
  rfl

/-- A scalable unit that is kept for reference has the payload that is read. -/
theorem ofUnit_svc {fields : SvcHeaderExtension} {payload : Bytes} {base : RefBasePic}
    (h : header.IsPrefix) (hkept : header.nalRefIdc ≠ 0)
    (hextension : HeaderExtension.ofBytes first second third = .svc fields)
    (hread : Read.value (RefBasePic.read fields) payload = .ok base) :
    ofUnit (unitOf start header first second third (Rbsp.escape payload)) =
      .ok { header, extension := some (.svc fields), refBasePic := some base } := by
  have hpayload : (unitOf start header first second third (Rbsp.escape payload)).readRbsp
      (RefBasePic.read fields) = .ok base := by
    unfold NalUnit.readRbsp
    rw [rbsp_unitOf h, ok_bind, hread]
  unfold ofUnit
  rw [checkedHeader_unitOf h, ok_bind, headerExtension_unitOf h, ok_bind, hextension]
  dsimp only
  rw [if_neg hkept, hpayload, ok_bind]
  rfl

/-- Any other unit has no payload, whatever stands behind its header. -/
theorem ofUnit_withoutPayload (h : header.IsPrefix)
    (hnone : header.nalRefIdc = 0 ∨
      ∃ fields, HeaderExtension.ofBytes first second third = .mvc fields) (rest : Bytes) :
    ofUnit (unitOf start header first second third rest) =
      .ok { header, extension := some (.ofBytes first second third), refBasePic := none } := by
  unfold ofUnit
  rw [checkedHeader_unitOf h, ok_bind, headerExtension_unitOf h, ok_bind]
  cases hextension : HeaderExtension.ofBytes first second third with
  | mvc fields => rfl
  | svc fields =>
    rcases hnone with hzero | ⟨others, hmvc⟩
    · dsimp only
      rw [if_pos hzero]
      rfl
    · rw [hmvc] at hextension
      cases hextension

/-- **Marking of base pictures reads back.** Every legal scalable header extension has three bytes.
Behind any bytes that hold it, in a unit that is kept for reference, a writer takes the elements of
every legal payload without further extensions; closed, with any zero bytes, and escaped, the unit
is decoded to just this record. A multiview unit and one that is not kept for reference are decoded
without a payload, whatever stands behind the header. -/
theorem base_picture_read_back (start : Nat) (h : header.IsPrefix) :
    (∀ fields : SvcHeaderExtension, fields.Legal → ∃ first second third,
      (HeaderExtension.svc fields).toBytes = [first, second, third] ∧
        HeaderExtension.ofBytes first second third = .svc fields) ∧
    (∀ (first second third : UInt8) (fields : SvcHeaderExtension) (base : RefBasePic),
      HeaderExtension.ofBytes first second third = .svc fields → header.nalRefIdc ≠ 0 →
      base.Legal fields → base.additionalExtension = false →
      ∃ w, Element.writeAll {} base.elements = .ok w ∧ ∀ zeros : Nat,
        ofUnit (unitOf start header first second third
          (Rbsp.escape (w.trailing.toBytes ++ List.replicate zeros 0))) =
            .ok { header, extension := some (.svc fields), refBasePic := some base }) ∧
    ∀ (first second third : UInt8) (rest : Bytes), (header.nalRefIdc = 0 ∨
        ∃ fields, HeaderExtension.ofBytes first second third = .mvc fields) →
      ofUnit (unitOf start header first second third rest) =
        .ok { header, extension := some (.ofBytes first second third), refBasePic := none } := by
  refine ⟨fun fields hfields => hfields.ofBytes_toBytes, ?_, ?_⟩
  · intro first second third fields base hextension hkept hbase hplain
    have hreads : ReadsClosed (RefBasePic.read fields) base.elements base :=
      .of_append_nil (RefBasePic.readsClosed hbase [] fun _ => rfl)
    obtain ⟨w, hwrite, hread⟩ := hreads.exists_writer
    refine ⟨w, hwrite, fun zeros => ?_⟩
    exact ofUnit_svc h hkept hextension (hread zeros)
  · intro first second third rest hnone
    exact ofUnit_withoutPayload h hnone rest

/-- Two operations, the second with the greatest operand, for a slice that uses a base picture. -/
theorem base_picture_read_back_twoOperations :
    let header : NalHeader :=
      { forbiddenZeroBit := false, nalRefIdc := 3, unitType := .prefixUnit }
    let fields : SvcHeaderExtension := {
      idrFlag := false, priorityId := 5, noInterLayerPredFlag := false, dependencyId := 1
      qualityId := 0, temporalId := 2, useRefBasePicFlag := true, discardableFlag := false
      outputFlag := true }
    let marking : BaseMarking := .adaptive [.unmarkShortTerm 0, .unmarkLongTerm 4294967294]
    let base : RefBasePic :=
      { store := false, marking := some marking, additionalExtension := false }
    header.IsPrefix ∧ base.Legal fields ∧ ∃ w, Element.writeAll {} base.elements = .ok w ∧
      ∀ zeros : Nat, ofUnit (unitOf 0 header 0x85 0x10 0x57
        (Rbsp.escape (w.trailing.toBytes ++ List.replicate zeros 0))) =
          .ok { header, extension := some (.svc fields), refBasePic := some base } := by
  intro header fields marking base
  have hheader : header.IsPrefix := ⟨rfl, rfl, by decide⟩
  have hbase : base.Legal fields := by
    refine ⟨rfl, ?_⟩
    rintro _ ⟨⟩ op hop
    rcases List.mem_cons.mp hop with rfl | hop
    · exact Nat.zero_le _
    · rw [List.mem_singleton.mp hop]
      exact Nat.le_refl _
  exact ⟨hheader, hbase, (base_picture_read_back 0 hheader).2.1 0x85 0x10 0x57 fields base
    (by decide) (by decide) hbase rfl⟩

end PrefixUnit

end H264
