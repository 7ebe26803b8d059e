import H264.Proofs.Analysis.InputPaths
import H264.Proofs.Analysis.Notes

/-!
# Offsets of illegal escapes

However a byte stream is cut into chunks, its units are the same, but each lies in the chunk that it
came in, or behind what was left over of the chunks before. The offset of an illegal escape counts
from the beginning of what its unit lies in, so it moves with the unit; nothing else of a result or
an issue does.

* `UnitResult.Moved` — results that differ in their places, and in offsets as far as these do;
* `forall₂_unitResults` — units with the same bytes have such results;
* **`only_offsets_depend_on_chunks`** — a stream that is cut in two ways;
* `offsets_depend_on_chunks` — a stream of which one offset depends on the cut.
-/

namespace H264

open Framing

/-! ## Results at other places -/

/-- Results of one unit at two places: an offset is as far behind the one as behind the other. -/
structure UnitResult.Moved (first second : UnitResult) : Prop where
  index : first.index = second.index
  bytes : first.unit.bytes = second.unit.bytes
  outcome : OutcomeMoved first.unit.start second.unit.start first.outcome second.outcome

/-- What stops an analysis is no illegal escape, so it does not move. -/
theorem UnitResult.Moved.stop?_eq {first second : UnitResult} (h : first.Moved second) :
    first.stop? = second.stop? := by
  unfold stop?
  rcases h.outcome with heq | ⟨behind, fault, hfirst, hsecond⟩
  · rw [heq]
  · rw [hfirst, hsecond]
    rfl

/-- Of results that have moved, none stops an analysis, or the same ones do first. -/
theorem forall₂_stop {first second : List UnitResult}
    (h : List.Forall₂ UnitResult.Moved first second) :
    (∀ result ∈ first, result.stop? = none) ∧ (∀ result ∈ second, result.stop? = none) ∨
      ∃ front front' stopping stopping' back back' error,
        first = front ++ stopping :: back ∧ second = front' ++ stopping' :: back' ∧
        List.Forall₂ UnitResult.Moved front front' ∧
        (∀ result ∈ front, result.stop? = none) ∧ (∀ result ∈ front', result.stop? = none) ∧
        stopping.stop? = some error ∧ stopping'.stop? = some error := by
  induction h with
  | nil => exact .inl ⟨List.forall_mem_nil _, List.forall_mem_nil _⟩
  | @cons result result' rest rest' hresult hrest ih =>
    cases hstop : result.stop? with
    | some error =>
      exact .inr ⟨[], [], result, result', rest, rest', error, rfl, rfl, .nil,
        List.forall_mem_nil _, List.forall_mem_nil _, hstop, hresult.stop?_eq.symm.trans hstop⟩
    | none =>
      have hstop' : result'.stop? = none := hresult.stop?_eq.symm.trans hstop
      rcases ih with ⟨hgoing, hgoing'⟩ | ⟨front, front', stopping, stopping', back, back', error,
        rfl, rfl, hfront, hgoing, hgoing', hstopping⟩
      · exact .inl ⟨List.forall_mem_cons.mpr ⟨hstop, hgoing⟩,
          List.forall_mem_cons.mpr ⟨hstop', hgoing'⟩⟩
      · exact .inr ⟨result :: front, result' :: front', stopping, stopping', back, back', error,
          rfl, rfl, .cons hresult hfront, List.forall_mem_cons.mpr ⟨hstop, hgoing⟩,
          List.forall_mem_cons.mpr ⟨hstop', hgoing'⟩, hstopping⟩

theorem setsAfterUnit_eq_of_bytes {update : Bool} {sets : ParamSets} {first second : NalUnit}
    (h : first.bytes = second.bytes) :
    setsAfterUnit update sets first = setsAfterUnit update sets second := by
  unfold setsAfterUnit
  rcases Record.ofUnit_moved h sets with heq | ⟨behind, fault, hfirst, hsecond⟩
  · rw [heq]
  · rw [hfirst, hsecond]

/-- Units with the same bytes have the same results, moved. -/
theorem forall₂_unitResults {update : Bool} {index : Nat} {sets : ParamSets}
    {first second : List NalUnit} (h : first.map NalUnit.bytes = second.map NalUnit.bytes) :
    List.Forall₂ UnitResult.Moved (unitResults update index sets first)
      (unitResults update index sets second) := by
  induction first generalizing second index sets with
  | nil =>
    rw [List.map_eq_nil_iff.mp h.symm]
    exact .nil
  | cons unit units ih =>
    obtain ⟨unit', units', rfl, hunit, hunits⟩ := List.map_eq_cons_iff.mp h.symm
    refine .cons ⟨rfl, hunit.symm, Record.ofUnit_moved hunit.symm sets⟩ ?_
    rw [setsAfterUnit_eq_of_bytes hunit]
    exact ih hunits.symm

/-! ## Streams in chunks -/

namespace Analyzer

/-- A run analyses units up to an error that no stream causes, if there is one: it gives their
results, unless it is stopped, and has logged their issues. -/
inductive Gives (run : EStateM.Result Error Analyzer (List UnitResult))
    (results : List UnitResult) : (stop : Option Error) → Prop
  | all {after : Analyzer} (run_eq : run = .ok results after)
    (issues : after.issues = results.filterMap UnitResult.issue?) : Gives run results none
  | stopped {error : Error} {after : Analyzer} (run_eq : run = .error error after)
    (issues : after.issues = results.filterMap UnitResult.issue?) : Gives run results (some error)

/-- The calls that take a stream in chunks. -/
def streamCalls (chunks : List Bytes) : List Call :=
  chunks.map .feed ++ [.flush]

theorem framedAll_streamCalls (framer : Framer) (chunks : List Bytes) :
    framedAll framer (streamCalls chunks) =
      (frameAll framer (streamCalls chunks)).1.map .unit := by
  unfold streamCalls
  induction chunks generalizing framer with
  | nil =>
    show framer.finish.1.map _ ++ [] = (framer.finish.1 ++ []).map _
    rw [List.append_nil, List.append_nil]
  | cons chunk chunks ih =>
    rw [List.map_cons, List.cons_append, framedAll, ih, frameAll_cons, List.map_append]
    rfl

theorem map_bytes_streamCalls (chunks : List Bytes) :
    (frameAll {} (streamCalls chunks)).1.map NalUnit.bytes = unitBytes chunks.flatten := by
  unfold streamCalls
  rw [frameAll_feed, Framer.map_bytes_frame]

section

variable {sets : ParamSets} {updateSets : Bool} {chunks : List Bytes}

theorem nextNotes_streamCalls :
    ({ sets, updateSets } : Analyzer).nextNotes (framedAll {} (streamCalls chunks)) =
      (unitResults updateSets 0 sets (frameAll {} (streamCalls chunks)).1).map .unit := by
  rw [framedAll_streamCalls]
  exact notes_units _

theorem gives_of_going {results : List UnitResult}
    (hresults : unitResults updateSets 0 sets (frameAll {} (streamCalls chunks)).1 = results)
    (hgoing : ∀ result ∈ results, result.stop? = none) :
    Gives (performAll (streamCalls chunks) { sets, updateSets }) results none := by
  subst hresults
  have hnotes := @nextNotes_streamCalls sets updateSets chunks
  have hrun := @performAll_of_going { sets, updateSets } (streamCalls chunks)
    (hnotes ▸ List.forall_mem_map.mpr hgoing)
  have hissues := issues_recorded { sets, updateSets } (framedAll {} (streamCalls chunks))
  rw [hnotes, filterMap_issue_map_unit, List.nil_append] at hissues
  rw [hnotes, filterMap_result_map_unit] at hrun
  exact .all hrun hissues

theorem gives_of_stopping {front back : List UnitResult} {stopping : UnitResult} {error : Error}
    (hresults : unitResults updateSets 0 sets (frameAll {} (streamCalls chunks)).1 =
      front ++ stopping :: back)
    (hgoing : ∀ result ∈ front, result.stop? = none) (hstop : stopping.stop? = some error) :
    Gives (performAll (streamCalls chunks) { sets, updateSets }) front (some error) := by
  have hnotes := @nextNotes_streamCalls sets updateSets chunks
  rw [hresults, List.map_append, List.map_cons] at hnotes
  obtain ⟨after, hrun, hissues⟩ :=
    performAll_of_stopping hnotes (List.forall_mem_map.mpr hgoing) hstop
  rw [filterMap_issue_map_unit, List.nil_append] at hissues
  exact .stopped hrun hissues

end

/-- **Only offsets depend on the chunks.** However a stream is cut, an analysis gives the same
results and logs the same issues, and is stopped by the same error, if by any, at the same unit; but
the offset of an illegal escape is where it is found in what its unit lies in, as far behind the
unit's beginning there in one way as in the other. -/
theorem only_offsets_depend_on_chunks (sets : ParamSets) (updateSets : Bool)
    {first second : List Bytes} (h : first.flatten = second.flatten) :
    ∃ results results' stop, List.Forall₂ UnitResult.Moved results results' ∧
      Gives (performAll (streamCalls first) { sets, updateSets }) results stop ∧
      Gives (performAll (streamCalls second) { sets, updateSets }) results' stop := by
  have hbytes : (frameAll {} (streamCalls first)).1.map NalUnit.bytes =
      (frameAll {} (streamCalls second)).1.map NalUnit.bytes := by
    rw [map_bytes_streamCalls, map_bytes_streamCalls, h]
  have hmoved := @forall₂_unitResults updateSets 0 sets _ _ hbytes
  rcases forall₂_stop hmoved with ⟨hgoing, hgoing'⟩ | ⟨front, front', stopping, stopping', back,
    back', error, hfirst, hsecond, hfront, hgoing, hgoing', hstop, hstop'⟩
  · exact ⟨_, _, none, hmoved, gives_of_going rfl hgoing, gives_of_going rfl hgoing'⟩
  · exact ⟨front, front', some error, hfront, gives_of_stopping hfirst hgoing hstop,
      gives_of_stopping hsecond hgoing' hstop'⟩

/-- A delimiter with an illegal escape and a good one. -/
def escapeStream : Bytes :=
  [0x00, 0x00, 0x01, 0x09, 0x00, 0x00, 0x03, 0x04, 0x00, 0x00, 0x01, 0x09, 0xf0]

theorem only_offsets_depend_on_chunks_escapeStream :
    [escapeStream].flatten = [escapeStream.take 4, escapeStream.drop 4].flatten ∧
      ∃ results results' stop, List.Forall₂ UnitResult.Moved results results' ∧
        Gives (performAll (streamCalls [escapeStream]) {}) results stop ∧
        Gives (performAll (streamCalls [escapeStream.take 4, escapeStream.drop 4]) {}) results'
          stop :=
  ⟨by decide, only_offsets_depend_on_chunks {} true (by decide)⟩

/-- The texts of the issues that a stream in chunks leaves in the log. -/
def issueTexts (chunks : List Bytes) : List String :=
  match performAll (streamCalls chunks) {} with
  | .ok _ after => after.issues.map Issue.message
  | .error _ after => after.issues.map Issue.message

/-- One chunk and two chunks of a stream give texts with different offsets. -/
theorem offsets_depend_on_chunks :
    [escapeStream].flatten = [escapeStream.take 4, escapeStream.drop 4].flatten ∧
      issueTexts [escapeStream] =
        ["offset 6: emulation prevention byte followed by 0x04"] ∧
      issueTexts [escapeStream.take 4, escapeStream.drop 4] =
        ["offset 3: emulation prevention byte followed by 0x04"] := by
  decide +kernel

end Analyzer

end H264
