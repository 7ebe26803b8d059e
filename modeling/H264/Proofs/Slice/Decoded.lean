import H264.Proofs.Analysis.Decoded
import H264.Proofs.Slice.Header

/-!
# Slice headers under decoded parameter sets

Parameter sets that were read from some data are valid (`ParamSets.valid_of_decoded`), so that the
fields which they govern in slices can be written and read. Main statement:
`SliceHeader.slice_header_read_back` says that under such sets every legal slice header is read back
from what a writer makes of its elements, whatever bits follow.
-/

namespace H264

open Read

/-! ## Values that were read -/

theorem Takes.of_gives {α : Type} {action : Read α} {post : α → List Element → Prop} {value : α}
    (h : Takes action post) (hgives : Gives action value) : ∃ elements, post value elements := by
  obtain ⟨before, after, hrun⟩ := hgives
  obtain ⟨elements, _, hpost, _⟩ := h before value after hrun
  exact ⟨elements, hpost⟩

theorem TakesClosed.of_gives {α : Type} {action : Read α} {post : α → List Element → Prop}
    {value : α} (h : TakesClosed action post) (hgives : Gives action value) :
    ∃ elements, post value elements := by
  obtain ⟨before, after, hrun⟩ := hgives
  obtain ⟨elements, _, hpost, _⟩ := h before value after hrun
  exact ⟨elements, hpost⟩

/-- A value whose elements read back is read from the bytes that hold them. -/
theorem ReadsBack.gives {α : Type} {action : Read α} {elements : List Element} {value : α}
    (h : ReadsBack action elements value) : Gives action value := by
  let w : Writer := Writer.append {} (Element.bits elements)
  have hbits := w.bits_toBytes
  rw [Writer.bits_append] at hbits
  exact ⟨{ data := w.toBytes }, _, h.reads _ _ hbits⟩

theorem ReadsClosed.gives {α : Type} {action : Read α} {elements : List Element} {value : α}
    (h : ReadsClosed action elements value) : Gives action value := by
  obtain ⟨w, _, hvalue⟩ := h.exists_writer
  exact .of_value (hvalue 0)

theorem SubsetSps.gives_sps {subset : SubsetSps} (h : Gives SubsetSps.read subset) :
    Gives SeqParameterSet.readData subset.sps := by
  obtain ⟨sps, hsps, hrest⟩ := h.of_bind
  obtain ⟨extension, _, hend⟩ := hrest.of_bind
  split at hend
  · obtain ⟨_, _, hsame⟩ := hend
    cases hsame
    exact hsps
  · obtain ⟨additional, _, _, _, hsame⟩ := hend.of_bind
    cases hsame
    exact hsps

namespace ParamSets

/-- Decoded sets are valid. -/
theorem valid_of_decoded {sets : ParamSets} (h : sets.Decoded) :
    sets.Each SeqParameterSet.Valid (fun pps => ∃ findSps, pps.Valid findSps)
      fun subset => subset.sps.Valid := by
  have hsps : ∀ sps, Gives SeqParameterSet.readData sps → sps.Valid := by
    intro sps hgives
    obtain ⟨_, hvalid, _⟩ := SeqParameterSet.takes_data.of_gives hgives
    exact hvalid
  refine each_of_decoded hsps (fun findSps pps hgives => ?_) (fun subset hgives => ?_) h
  · obtain ⟨_, hvalid, _⟩ := PicParameterSet.takesClosed.of_gives hgives
    exact ⟨findSps, hvalid⟩
  · exact hsps _ (SubsetSps.gives_sps hgives)

end ParamSets

/-! ## Slice headers -/

namespace SliceForm

/-- Units of types 1 and 5, and with a multiview extension of types 20 and 21, have a form. -/
theorem exists_form {nal : NalHeader} {extension : Option HeaderExtension}
    (htype : nal.unitType.hasSliceHeader = true)
    (hextension : nal.unitType.hasHeaderExtension = true → ∃ fields, extension = some (.mvc fields)) :
    ∃ form, ofHeader nal extension = .ok form := by
  unfold ofHeader
  rcases UnitType.cases_of_hasSliceHeader htype with htype | htype | htype | htype
  · rw [htype]
    exact ⟨_, rfl⟩
  · rw [htype]
    exact ⟨_, rfl⟩
  · rw [htype] at hextension ⊢
    obtain ⟨fields, rfl⟩ := hextension rfl
    exact ⟨_, rfl⟩
  · rw [htype] at hextension ⊢
    obtain ⟨fields, rfl⟩ := hextension rfl
    exact ⟨_, rfl⟩

end SliceForm

namespace SliceHeader

/-- Under parameter sets that were read from some data, the elements of every header that is legal in
its slice can be written, and a reader that finds what was written next gives the header and stops
just after it, whatever bits follow. -/
theorem slice_header_read_back {sets : ParamSets} (hsets : sets.Decoded) (nal : NalHeader)
    (extension : Option HeaderExtension) (htype : nal.unitType.hasSliceHeader = true)
    (hextension : nal.unitType.hasHeaderExtension = true →
      ∃ fields, extension = some (.mvc fields)) :
    ∃ form, SliceForm.ofHeader nal extension = .ok form ∧
      ∀ (header : SliceHeader) (pps : PicParameterSet) (sps : SeqParameterSet),
        findParamSets sets form.multiview header.ppsId = .ok (pps, sps) →
        header.Legal form pps sps →
        ∃ w, Element.writeAll {} (header.elements pps sps) = .ok w ∧
          ∀ (r : Reader) (tail : List Bool), r.rest = w.bits ++ tail →
            read sets nal extension r = .ok header (r.advance w.bits.length) := by
  obtain ⟨form, hform⟩ := SliceForm.exists_form htype hextension
  refine ⟨form, hform, fun header pps sps hfind hlegal => ?_⟩
  have hvalid := ParamSets.valid_of_decoded hsets
  obtain ⟨hpps, hsps⟩ := exists_of_findParamSets hfind
  obtain ⟨findSps, hpps⟩ := hvalid.pps _ _ hpps
  have hsps : sps.Valid := by
    cases hmultiview : form.multiview with
    | true =>
      rw [hmultiview] at hsps
      obtain ⟨subset, hsubset, rfl⟩ := hsps
      exact hvalid.subset _ _ hsubset
    | false =>
      rw [hmultiview] at hsps
      exact hvalid.sps _ _ hsps
  have hback : ReadsBack (read sets nal extension) (header.elements pps sps) header := by
    unfold read
    exact .step (.ofExcept hform) (readsBack_as hfind hpps hsps hlegal)
  exact hback.exists_writer

/-- A predicted slice of a field, with a changed reference list and an operation on the pictures kept
for reference, is read back. -/
theorem slice_header_read_back_field :
    let sps : SeqParameterSet := { (default : SeqParameterSet) with
      profileIdc := 77, chroma := {}, picOrderCnt := .lowBits 2 }
    let pps : PicParameterSet := default
    let sets : ParamSets := { sps := [(0, sps)], pps := [(0, pps)] }
    let nal : NalHeader := { forbiddenZeroBit := false, nalRefIdc := 1, unitType := .nonIdrSlice }
    let header : SliceHeader := { (default : SliceHeader) with
      type := { family := .p, allSlicesSame := false }, frameNum := 3, picStructure := .topField
      picOrder := .lowBits 6 none, refCounts := { overridden := true, l0Minus1 := 1, l1Minus1 := 0 }
      refPicListModification := { l0 := [{ kind := .subtractPicNum, value := 2 }] }
      marking := some (.adaptive [.unmarkShortTerm 1]), qpDelta := 4, qp := 30 }
    sets.Decoded ∧ ∃ w, Element.writeAll {} (header.elements pps sps) = .ok w ∧
      ∀ (r : Reader) (tail : List Bool), r.rest = w.bits ++ tail →
        read sets nal none r = .ok header (r.advance w.bits.length) := by
  intro sps pps sets nal header
  have hfields : sps.ValidFields := ⟨by decide, by decide, by decide, by decide, rfl, by decide,
    (by decide : 2 ≤ 12), by decide, by decide, by decide, by decide, by rintro _ ⟨⟩, by rintro _ ⟨⟩⟩
  have hsps : sps.Valid := (SeqParameterSet.check_eq_ok_iff hfields).mp (by decide)
  have hpps : pps.Valid fun _ => none := ⟨by decide, by decide, by rintro _ ⟨⟩, by decide,
    by decide, by decide, by decide, by decide, by decide, by rintro _ ⟨⟩⟩
  have hsets : sets.Decoded :=
    .storePps _ (.storeSps .empty (SeqParameterSet.readsBack_data hsps).gives)
      (PicParameterSet.readsClosed hpps).gives
  have hmodification : header.refPicListModification.Legal header.type false :=
    ⟨⟨by decide, by decide, by simp [header]; exact ⟨by decide, by decide⟩⟩,
      ⟨by decide, by decide, by simp [header]⟩⟩
  have hlegal : header.Legal { unitType := .nonIdrSlice, multiview := false, idr := false
                               isReference := true } pps sps := {
    firstMb := by decide
    type := by decide
    ppsId := by decide
    colourPlaneIdSent := rfl
    colourPlaneId := by rintro _ ⟨⟩
    frameNum := by decide
    picStructure := by decide
    idr := rfl
    idrPicIdSent := rfl
    idrPicId := by rintro _ ⟨⟩
    picOrder := ⟨by decide, rfl, by rintro _ ⟨⟩⟩
    redundantPicCntSent := rfl
    redundantPicCnt := by rintro _ ⟨⟩
    directSpatialMvPredSent := rfl
    refCounts := ⟨by decide, by decide, by decide, by decide, by decide⟩
    refPicListModification := hmodification
    predWeightTableSent := rfl
    predWeightTable := by rintro _ ⟨⟩
    markingSent := rfl
    marking := by
      rintro marking ⟨⟩
      exact ⟨rfl, by decide, by simp [MemoryManagementOp.Legal]; decide⟩
    cabacInitIdcSent := rfl
    cabacInitIdc := by rintro _ ⟨⟩
    qp := rfl
    qpRange := by decide
    switching := ⟨by decide, rfl, by rintro _ ⟨⟩⟩
    deblockingSent := by decide
    deblocking := ⟨by decide, by decide, by decide, by decide⟩
    groupChangeCycle := rfl }
  obtain ⟨form, hform, hback⟩ := slice_header_read_back hsets nal none rfl nofun
  cases hform
  exact ⟨hsets, hback header pps sps rfl hlegal⟩

end SliceHeader

end H264
