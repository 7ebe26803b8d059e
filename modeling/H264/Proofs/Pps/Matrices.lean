import H264.Proofs.Pps.Picture
import H264.Proofs.Scaling.Resolved
import H264.Proofs.Slice.Decoded
import H264.Proofs.Sps.Guarantees

/-!
# The weight matrices of a picture

A picture that sends no scaling lists has the matrices of its sequence, and a sequence that sends
none has flat ones. Lists that are sent are resolved, those of the picture against the matrices of
the sequence if that sent any. **Main statement** (`picture_matrices_resolved`): for every sequence
and every picture parameter set that were read, whether or not one names the other, the matrices are
found without fail, and all of them hold weights from 1 to 255.
-/

namespace H264

open Read ScalingMatrix Weights

namespace ScalingMatrix.ResolvedBy

variable {lists : List (Option ScalingList)} {fallback : Option (List Weights)}
  {matrices : List Weights}

theorem legal (h : ResolvedBy lists fallback matrices) (index : Nat) (matrix : Weights)
    (hmatrix : matrices[index]? = some matrix) : Legal (sideAt index) matrix := by
  obtain ⟨hindex, -⟩ := List.getElem?_eq_some_iff.mp hmatrix
  obtain ⟨found, hfound, _, -, -, hlegal⟩ := h.found index (h.count ▸ hindex)
  rwa [Option.some.inj (hmatrix.symm.trans hfound)]

theorem legalFallback (h : ResolvedBy lists fallback matrices) (hcount : 8 ≤ lists.length) :
    LegalFallback matrices where
  heads := by
    intro index hindex
    have hlast : ∀ head ∈ heads, head < 8 := by decide
    rw [h.count]
    exact (hlast index hindex).trans_le hcount
  legal := h.legal

end ScalingMatrix.ResolvedBy

/-! ## Sequences -/

namespace SeqParameterSet

variable {sps : SeqParameterSet}

/-- The matrices of a sequence, if all of them are found. -/
def scalingMatrices? (sps : SeqParameterSet) : Option (List Weights) :=
  match sps.chroma.scalingMatrix with
  | none => some (flat sps.chroma.format.scalingListCount)
  | some matrix => matrix.resolve? none

/-- The matrices of a sequence: flat ones, or those of its lists without a fall-back. -/
structure HasMatrices (sps : SeqParameterSet) : Prop where
  found : sps.scalingMatrices? = some sps.scalingMatrices
  flat : sps.chroma.scalingMatrix = none →
    AllFlat (if sps.chroma.format = .yuv444 then 12 else 8) sps.scalingMatrices
  resolved : ∀ matrix ∈ sps.chroma.scalingMatrix, ResolvedBy matrix.lists none sps.scalingMatrices

theorem Valid.hasMatrices (h : sps.Valid) : sps.HasMatrices := by
  have hnone : ∀ matrices ∈ (none : Option (List Weights)), LegalFallback matrices := nofun
  cases hsent : sps.chroma.scalingMatrix with
  | none =>
    have hmatrices : sps.scalingMatrices = flat sps.chroma.format.scalingListCount := by
      rw [scalingMatrices, hsent]
    refine ⟨by rw [scalingMatrices?, hsent, hmatrices], fun _ => ?_, by simp [hsent]⟩
    rw [hmatrices]
    exact allFlat_flat _
  | some matrix =>
    have hmatrices : sps.scalingMatrices = matrix.resolve none := by
      rw [scalingMatrices, hsent]
    have hvalid := (validFields_chroma h.chroma).scalingMatrix matrix hsent
    obtain ⟨hfound, hresolved⟩ := resolvedBy_resolve hvalid hnone
    refine ⟨by rw [scalingMatrices?, hsent, hmatrices, ← hfound], by simp [hsent], ?_⟩
    intro sent hmem
    rw [hsent] at hmem
    cases hmem
    rwa [hmatrices]

/-- All matrices of a sequence hold weights. -/
theorem Valid.legal_matrices (h : sps.Valid) (index : Nat) (matrix : Weights)
    (hmatrix : sps.scalingMatrices[index]? = some matrix) : Legal (sideAt index) matrix := by
  obtain ⟨-, hflat, hresolved⟩ := h.hasMatrices
  cases hsent : sps.chroma.scalingMatrix with
  | none =>
    obtain ⟨hlength, hflat⟩ := hflat hsent
    obtain ⟨hindex, -⟩ := List.getElem?_eq_some_iff.mp hmatrix
    obtain ⟨found, hfound, hlegal, -⟩ := hflat index (hlength ▸ hindex)
    rwa [Option.some.inj (hmatrix.symm.trans hfound)]
  | some sent => exact (hresolved sent hsent).legal index matrix hmatrix

/-- The matrices of a sequence that sent lists can be fallen back to. -/
theorem Valid.legalFallback (h : sps.Valid) :
    ∀ matrices ∈ sps.chroma.scalingMatrix.map fun _ => sps.scalingMatrices,
      LegalFallback matrices := by
  intro matrices hmem
  obtain ⟨sent, hsent, rfl⟩ := Option.mem_map.mp hmem
  refine (h.hasMatrices.resolved sent hsent).legalFallback ?_
  rw [((validFields_chroma h.chroma).scalingMatrix sent hsent).count]
  unfold ChromaFormat.scalingListCount
  split <;> decide

end SeqParameterSet

/-! ## Pictures -/

namespace PicParameterSet

variable {pps : PicParameterSet} {sps : SeqParameterSet} {findSps : Nat → Option SeqParameterSet}

/-- The lists that a picture parameter set sent. -/
def scalingMatrix (pps : PicParameterSet) : Option ScalingMatrix :=
  pps.extension.bind PicScalingExtension.scalingMatrix

/-- The matrices of a picture, if all of them, and those that they may fall back to, are found. -/
def scalingMatrices? (pps : PicParameterSet) (sps : SeqParameterSet) : Option (List Weights) := do
  match pps.scalingMatrix, sps.chroma.scalingMatrix with
  | none, _ => sps.scalingMatrices?
  | some matrix, none => matrix.resolve? none
  | some matrix, some _ => matrix.resolve? (some (← sps.scalingMatrices?))

/-- The matrices of a picture under a sequence: those of the sequence, or those of its own lists,
which fall back to the sequence's if that sent any. -/
structure HasMatrices (pps : PicParameterSet) (sps : SeqParameterSet) : Prop where
  found : pps.scalingMatrices? sps = some (pps.scalingMatrices sps)
  inherited : pps.scalingMatrix = none → pps.scalingMatrices sps = sps.scalingMatrices
  resolved : ∀ matrix ∈ pps.scalingMatrix, ResolvedBy matrix.lists
    (sps.chroma.scalingMatrix.map fun _ => sps.scalingMatrices) (pps.scalingMatrices sps)
  weights : ∀ matrix ∈ pps.scalingMatrices sps, ∀ row ∈ matrix, ∀ weight ∈ row,
    1 ≤ weight ∧ weight ≤ 255

theorem Valid.exists_valid_matrix (h : pps.Valid findSps) {matrix : ScalingMatrix}
    (hsent : pps.scalingMatrix = some matrix) : ∃ count, matrix.Valid count := by
  obtain ⟨extension, hextension, hmatrix⟩ := Option.bind_eq_some_iff.mp hsent
  have hvalid := h.extension extension hextension
  cases hmode : extension.transform8x8Mode with
  | false => exact ⟨6, hvalid.lists4x4 hmode matrix hmatrix⟩
  | true =>
    obtain ⟨_, -, hlists⟩ := hvalid.lists8x8 hmode matrix hmatrix
    exact ⟨_, hlists⟩

theorem scalingMatrices_eq_resolve {matrix : ScalingMatrix}
    (hsent : pps.scalingMatrix = some matrix) : pps.scalingMatrices sps =
      matrix.resolve (sps.chroma.scalingMatrix.map fun _ => sps.scalingMatrices) := by
  unfold scalingMatrix at hsent
  rw [scalingMatrices, hsent]

theorem scalingMatrices?_eq_resolve? {matrix : ScalingMatrix}
    (hsent : pps.scalingMatrix = some matrix) (hsps : sps.HasMatrices) :
    pps.scalingMatrices? sps =
      matrix.resolve? (sps.chroma.scalingMatrix.map fun _ => sps.scalingMatrices) := by
  rw [scalingMatrices?, hsent, hsps.found]
  cases sps.chroma.scalingMatrix <;> rfl

theorem hasMatrices (hpps : pps.Valid findSps) (hsps : sps.Valid) : pps.HasMatrices sps := by
  have hsequence := hsps.hasMatrices
  cases hsent : pps.scalingMatrix with
  | none =>
    have hinherited : pps.scalingMatrices sps = sps.scalingMatrices := by
      unfold scalingMatrix at hsent
      rw [scalingMatrices, hsent]
    refine ⟨?_, fun _ => hinherited, by simp [hsent], ?_⟩
    · rw [scalingMatrices?, hsent, hinherited]
      exact hsequence.found
    · rw [hinherited]
      intro matrix hmem
      obtain ⟨index, hmatrix⟩ := List.getElem?_of_mem hmem
      exact (hsps.legal_matrices index matrix hmatrix).weights
  | some matrix =>
    obtain ⟨count, hvalid⟩ := hpps.exists_valid_matrix hsent
    obtain ⟨hfound, hresolved⟩ := resolvedBy_resolve hvalid hsps.legalFallback
    rw [← scalingMatrices_eq_resolve hsent] at hresolved
    refine ⟨?_, by simp [hsent], ?_, ?_⟩
    · rw [scalingMatrices?_eq_resolve? hsent hsequence, hfound, scalingMatrices_eq_resolve hsent]
    · intro sent hmem
      rw [hsent] at hmem
      cases hmem
      exact hresolved
    · intro square hmem
      obtain ⟨index, hmatrix⟩ := List.getElem?_of_mem hmem
      exact (hresolved.legal index square hmatrix).weights

/-- **Weight matrices of a picture.** Under every sequence that was read, the matrices of every
picture parameter set that was read are found without fail. Without lists of its own they are those
of the sequence: flat ones, 12 for 4:4:4 and else 8, or those of the lists that the sequence sent.
With lists of its own there is one for each of them, the one to which the way back from the list
leads. All weights are from 1 to 255. -/
theorem picture_matrices_resolved (hsps : Gives SeqParameterSet.readData sps)
    (hpps : Gives (read findSps) pps) : sps.HasMatrices ∧ pps.HasMatrices sps := by
  obtain ⟨_, hsequence, _⟩ := SeqParameterSet.takes_data.of_gives hsps
  obtain ⟨_, hpicture, _⟩ := takesClosed.of_gives hpps
  exact ⟨hsequence.hasMatrices, hasMatrices hpicture hsequence⟩

/-- A picture that sends one of its lists only, as the default marker: from the lists before it the
way back leads to the matrix of the sequence, from the one behind it to the default weights. -/
theorem picture_matrices_resolved_oneList :
    let flatSevens : ScalingMatrix :=
      { lists := some (.weights (List.replicate 16 7)) :: List.replicate 7 none }
    let sps : SeqParameterSet := { (default : SeqParameterSet) with
      profileIdc := 100, chroma := { scalingMatrix := some flatSevens }, picOrderCnt := .lowBits 2 }
    let oneList : ScalingMatrix :=
      { lists := [none, none, none, none, some .useDefault, none, none, none] }
    let pps : PicParameterSet := { (default : PicParameterSet) with
      extension := some { transform8x8Mode := true, scalingMatrix := some oneList
                          secondChromaQpIndexOffset := 0 } }
    Gives SeqParameterSet.readData sps ∧ Gives (read fun _ => some sps) pps ∧
      pps.HasMatrices sps ∧ (pps.scalingMatrices sps)[2]? = some (constant 0 7) ∧
      (pps.scalingMatrices sps)[5]? = some (ofList default4x4Inter) := by
  intro flatSevens sps oneList pps
  have hlists : flatSevens.Valid 8 := by
    refine ⟨rfl, ?_⟩
    simp [flatSevens, ValidFrom, ScalingList.Valid, ScalingList.sizeAt]
  have hchroma : sps.chroma.ValidFields := ⟨by decide, by decide, by decide, by
    rintro _ ⟨⟩
    exact hlists⟩
  have hfields : sps.ValidFields := ⟨by decide, by decide, by decide, by decide, hchroma,
    by decide, (by decide : 2 ≤ 12), by decide, by decide, by decide, by decide, by rintro _ ⟨⟩,
    by rintro _ ⟨⟩⟩
  have hsps : sps.Valid := (SeqParameterSet.check_eq_ok_iff hfields).mp (by decide)
  have hextension : ∀ extension ∈ pps.extension, extension.Valid (fun _ => some sps) 0 := by
    rintro extension ⟨⟩
    refine ⟨?_, fun _ => ?_, by decide⟩
    · intro hoff
      cases hoff
    rintro sent ⟨⟩
    exact ⟨sps, rfl, rfl, by simp [ValidFrom, ScalingList.Valid, oneList]⟩
  have hpps : pps.Valid fun _ => some sps := ⟨by decide, by decide, by rintro _ ⟨⟩, by decide,
    by decide, by decide, by decide, by decide, by decide, hextension⟩
  have hgivesSps := (SeqParameterSet.readsBack_data hsps).gives
  have hgivesPps := (readsClosed hpps).gives
  exact ⟨hgivesSps, hgivesPps, (picture_matrices_resolved hgivesSps hgivesPps).2, by decide,
    by decide⟩

end PicParameterSet

end H264
