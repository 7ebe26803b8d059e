import H264.Proofs.Analysis.Placement
import H264.Proofs.Analysis.Run
import H264.Proofs.Framing.Samples
import H264.Proofs.Framing.Streams

/-!
# One stream, three ways

The same units can come to an analysis as a byte stream in chunks, as length-prefixed samples, or
one by one. Each way leaves them at other offsets of other buffers, and it makes no difference:
**`input_paths_agree`**.

* Whatever its calls are, an analysis does what decoding the units that they frame does, and of a
  unit only the bytes count (`endsAlike_performAll`). This holds of analyses that are stopped, too.
* The chunks of a stream and the samples frame units with the same bytes (`map_bytes_frameAll_feed`,
  `map_bytes_frameAll_samples`).
* If all errors are ones that a stream can cause, decoding comes to its end (`exists_analyzed`).
-/

namespace H264

open Framing

/-- The result without the place of its unit. -/
def UnitResult.unplaced (result : UnitResult) : UnitResult where
  index := result.index
  unit := { bytes := result.unit.bytes }
  outcome := result.outcome.mapError Error.unplaced

namespace Analyzer

/-! ## Analyses that are alike -/

/-- Analyzers that have counted and stored the same, whatever their logs and framers hold. -/
structure Alike (first second : Analyzer) : Prop where
  sets : first.sets = second.sets
  updateSets : first.updateSets = second.updateSets
  unitCount : first.unitCount = second.unitCount
  typeCounts : first.typeCounts = second.typeCounts

namespace Alike

variable {first second : Analyzer} (h : first.Alike second)
include h

theorem count {unit unit' : NalUnit} (hbytes : unit.bytes = unit'.bytes) :
    (first.count unit).Alike (second.count unit') where
  sets := h.sets
  updateSets := h.updateSets
  unitCount := congrArg (· + 1) h.unitCount
  typeCounts := by
    unfold Analyzer.count
    dsimp only
    rw [NalUnit.type?_eq_of_bytes hbytes, h.typeCounts]

theorem keep (record : Record) : (first.keep record).Alike (second.keep record) := by
  rw [keep_eq, keep_eq, h.updateSets, h.sets]
  exact ⟨rfl, rfl, h.unitCount, h.typeCounts⟩

theorem log (issue issue' : Issue (Option Nat)) : (first.log issue).Alike (second.log issue') :=
  ⟨h.sets, h.updateSets, h.unitCount, h.typeCounts⟩

end Alike

/-- Ends of analyses that are alike: the same results, or the same error that stopped both. The
first one's framer is known. -/
inductive EndsAlike (framer : Framer) :
    EStateM.Result Error Analyzer (List UnitResult) →
    EStateM.Result Error Analyzer (List UnitResult) → Prop
  | ok {results results' : List UnitResult} {after after' : Analyzer}
    (results_eq : results.map UnitResult.unplaced = results'.map UnitResult.unplaced)
    (alike : after.Alike after') (framer_eq : after.framer = framer) :
    EndsAlike framer (.ok results after) (.ok results' after')
  | error {error error' : Error} {after after' : Analyzer}
    (error_eq : error.unplaced = error'.unplaced) :
    EndsAlike framer (.error error after) (.error error' after')

theorem EndsAlike.of_ok {framer : Framer}
    {run : EStateM.Result Error Analyzer (List UnitResult)} {results' : List UnitResult}
    {after' : Analyzer} (h : EndsAlike framer run (.ok results' after')) :
    ∃ results after, run = .ok results after ∧
      results.map UnitResult.unplaced = results'.map UnitResult.unplaced ∧ after.Alike after' := by
  cases h with
  | ok results_eq alike framer_eq => exact ⟨_, _, rfl, results_eq, alike⟩

/-- An action does what decoding some units does, or others with the same bytes. -/
def Decodes (action : Analyze (List UnitResult)) (before : Analyzer) (units : List NalUnit)
    (framer : Framer) : Prop :=
  ∀ before' units', before.Alike before' →
    units.map NalUnit.bytes = units'.map NalUnit.bytes →
    EndsAlike framer (action before) (analyzeUnits units' before')

/-! ## Steps -/

theorem EndsAlike.both {first first' second second' : Analyze (List UnitResult)}
    {before before' : Analyzer} {middle framer : Framer}
    (hfirst : EndsAlike middle (first before) (first' before'))
    (hsecond : ∀ mid mid', mid.Alike mid' → mid.framer = middle →
      EndsAlike framer (second mid) (second' mid')) :
    EndsAlike framer (both first second before) (both first' second' before') := by
  generalize hrun : first before = run at hfirst
  generalize hrun' : first' before' = run' at hfirst
  cases hfirst with
  | error error_eq =>
    rw [both_of_error hrun, both_of_error hrun']
    exact .error error_eq
  | ok results_eq alike framer_eq =>
    have hnext := hsecond _ _ alike framer_eq
    rw [both_of_ok hrun, both_of_ok hrun']
    generalize hlast : second _ = last at hnext
    generalize hlast' : second' _ = last' at hnext
    cases hnext with
    | error error_eq =>
      rw [map_of_error hlast, map_of_error hlast']
      exact .error error_eq
    | ok more_eq alike framer_eq =>
      rw [map_of_ok hlast, map_of_ok hlast']
      refine .ok ?_ alike framer_eq
      rw [List.map_append, List.map_append, results_eq, more_eq]

theorem decodes_both {first second : Analyze (List UnitResult)} {before : Analyzer}
    {front back : List NalUnit} {middle framer : Framer}
    (hfirst : Decodes first before front middle)
    (hsecond : ∀ mid, mid.framer = middle → Decodes second mid back framer) :
    Decodes (both first second) before (front ++ back) framer := by
  intro before' units' halike hbytes
  rw [List.map_append] at hbytes
  obtain ⟨front', back', rfl, hfront, hback⟩ := List.map_eq_append_iff.mp hbytes.symm
  rw [analyzeUnits_append]
  exact (hfirst before' front' halike hfront.symm).both fun mid mid' hmid hframer =>
    hsecond mid hframer mid' back' hmid hback.symm

/-- The unit step: the records are the same, and so are the errors but for their offsets. -/
theorem endsAlike_analyzeUnit {before before' : Analyzer} (h : before.Alike before')
    {unit unit' : NalUnit} (hbytes : unit.bytes = unit'.bytes) :
    EndsAlike before.framer (((fun result => [result]) <$> analyzeUnit unit) before)
      (((fun result => [result]) <$> analyzeUnit unit') before') := by
  have hrecord := Record.ofUnit_alike hbytes before.sets
  have hresult : ∀ {outcome outcome' : Except Error Record}, OutcomeAlike outcome outcome' →
      [UnitResult.unplaced { index := before.unitCount, unit, outcome }] =
        [UnitResult.unplaced { index := before'.unitCount, unit := unit', outcome := outcome' }] := by
    intro outcome outcome' houtcome
    unfold UnitResult.unplaced
    dsimp only
    rw [h.unitCount, hbytes, houtcome]
  rcases hrecord.cases with ⟨record, hfirst, hsecond⟩ | ⟨error, error', hfirst, hsecond, herror⟩
  · rw [h.sets] at hsecond
    rw [map_of_ok (analyzeUnit_of_ok hfirst), map_of_ok (analyzeUnit_of_ok hsecond)]
    refine .ok (hresult (.refl _)) ((h.count hbytes).keep record) ?_
    rw [keep_eq]
    rfl
  · rw [h.sets] at hsecond
    have hcause : error.isBitstream = error'.isBitstream := by
      rw [← Error.isBitstream_unplaced error, herror, Error.isBitstream_unplaced]
    cases hbitstream : error.isBitstream with
    | true =>
      have hbitstream' : error'.isBitstream = true := hcause.symm.trans hbitstream
      rw [map_of_ok (analyzeUnit_of_bitstream hfirst hbitstream),
        map_of_ok (analyzeUnit_of_bitstream hsecond hbitstream')]
      exact .ok (hresult (congrArg Except.error herror)) ((h.count hbytes).log _ _) rfl
    | false =>
      have hmisuse' : error'.isBitstream = false := hcause.symm.trans hbitstream
      rw [map_of_error (analyzeUnit_of_misuse hfirst hbitstream),
        map_of_error (analyzeUnit_of_misuse hsecond hmisuse')]
      exact .error herror

theorem decodes_analyzeUnit (before : Analyzer) (unit : NalUnit) :
    Decodes ((fun result => [result]) <$> analyzeUnit unit) before [unit] before.framer := by
  intro before' units' halike hbytes
  obtain ⟨unit', rfl, hunit⟩ := List.map_eq_singleton_iff.mp hbytes.symm
  have hsingle : analyzeUnits [unit'] = (fun result => [result]) <$> analyzeUnit unit' := by
    rw [map_eq_pure_bind]
    rfl
  rw [hsingle]
  exact endsAlike_analyzeUnit halike hunit.symm

theorem decodes_thenLog {action : Analyze (List UnitResult)} {before : Analyzer}
    {units : List NalUnit} {framer : Framer} (issue : Analyzer → Issue (Option Nat))
    (h : Decodes action before units framer) :
    Decodes (thenLog action issue) before units framer := by
  intro before' units' halike hbytes
  have hends := h before' units' halike hbytes
  unfold thenLog
  generalize hrun : action before = run at hends
  generalize analyzeUnits units' before' = run' at hends ⊢
  cases hends with
  | error error_eq =>
    rw [bind_of_error hrun]
    exact .error error_eq
  | ok results_eq alike framer_eq =>
    rw [bind_of_ok hrun]
    exact .ok results_eq ⟨alike.sets, alike.updateSets, alike.unitCount, alike.typeCounts⟩
      framer_eq

/-! ## Whole analyses -/

theorem stepwise_decodes : Stepwise Decodes where
  nothing before := by
    intro before' units' halike hbytes
    rw [List.map_eq_nil_iff.mp hbytes.symm]
    exact .ok rfl halike rfl
  unit := decodes_analyzeUnit
  both := decodes_both
  framed haction hunits := by
    intro before' units' halike hbytes
    rw [haction]
    exact hunits before' units' ⟨halike.sets, halike.updateSets, halike.unitCount,
      halike.typeCounts⟩ hbytes
  logged := decodes_thenLog

/-- **Calls do what decoding their units does**, wherever the units stand. -/
theorem endsAlike_performAll {before before' : Analyzer} (h : before.Alike before')
    {calls : List Call} {units : List NalUnit}
    (hunits : (frameAll before.framer calls).1.map NalUnit.bytes = units.map NalUnit.bytes) :
    EndsAlike (frameAll before.framer calls).2 (performAll calls before)
      (analyzeUnits units before') :=
  stepwise_decodes.performAll before calls before' units h hunits

/-! ## The units of each way -/

theorem performAll_singleton (call : Call) : performAll [call] = perform call := by
  show (do return (← perform call) ++ (← pure [])) = _
  simp only [pure_bind, List.append_nil, bind_pure]

theorem frameAll_feed (framer : Framer) (chunks : List Bytes) :
    frameAll framer (chunks.map .feed ++ [.flush]) = framer.frame chunks := by
  rw [Framer.frame_eq]
  induction chunks generalizing framer with
  | nil =>
    show (framer.finish.1 ++ [], framer.finish.2) = ([] ++ framer.finish.1, framer.finish.2)
    rw [List.append_nil, List.nil_append]
  | cons chunk chunks ih =>
    rw [List.map_cons, List.cons_append, frameAll_cons]
    show ((framer.feed chunk).1 ++ (frameAll (framer.feed chunk).2 _).1,
      (frameAll (framer.feed chunk).2 _).2) = _
    rw [ih, ← List.append_assoc]
    rfl

theorem map_bytes_frameAll_feed {chunks : List Bytes} {sent : List SentUnit}
    (h : chunks.flatten = SentUnit.stream sent) :
    (frameAll {} (chunks.map .feed ++ [.flush])).1.map NalUnit.bytes =
      sent.map SentUnit.bytes := by
  rw [frameAll_feed, Framer.map_bytes_frame, h, SentUnit.unitBytes_stream]

theorem map_bytes_frameAll_samples {size : LengthSize} {groups : List (List Bytes)}
    {sent : List SentUnit} (h : groups.flatten = sent.map SentUnit.bytes)
    (hsizes : ∀ unit ∈ sent, unit.bytes.length < 256 ^ size.bytes) :
    ∃ samples, groups.mapM (joinSample size) = .ok samples ∧
      (frameAll {} [.samples size samples]).1.map NalUnit.bytes = sent.map SentUnit.bytes := by
  have hmem : ∀ bytes ∈ groups.flatten, bytes ≠ [] ∧ bytes.length < 256 ^ size.bytes := by
    intro bytes hmem
    rw [h] at hmem
    obtain ⟨unit, hunit, rfl⟩ := List.mem_map.mp hmem
    exact ⟨unit.ne_nil, hsizes unit hunit⟩
  have hfits : ∀ group ∈ groups, ∀ bytes ∈ group, bytes.length < 256 ^ size.bytes :=
    fun group hgroup bytes hbytes => (hmem bytes (List.mem_flatten_of_mem hgroup hbytes)).2
  have hfilter : groups.flatten.filter (· ≠ []) = groups.flatten :=
    List.filter_eq_self.mpr fun bytes hbytes => decide_eq_true (hmem bytes hbytes).1
  refine ⟨_, joinSamples_eq hfits, ?_⟩
  show (_ ++ []).map NalUnit.bytes = _
  rw [List.append_nil, flatMap_sampleUnits_entries hfits, hfilter, h]

/-! ## One stream, three ways -/

/-- **The three ways agree.** Units that are sent in a stream, however it is cut into chunks, in
samples, however they are grouped, or one by one, wherever each of them stands, are all analysed and
give the same results, counts and parameter sets, if all errors are ones that a stream can cause. -/
theorem input_paths_agree (sets : ParamSets) (updateSets : Bool) (size : LengthSize)
    (sent : List SentUnit) {chunks : List Bytes} {groups : List (List Bytes)}
    {given : List NalUnit} (hchunks : chunks.flatten = SentUnit.stream sent)
    (hgroups : groups.flatten = sent.map SentUnit.bytes)
    (hsizes : ∀ unit ∈ sent, unit.bytes.length < 256 ^ size.bytes)
    (hgiven : given.map NalUnit.bytes = sent.map SentUnit.bytes)
    (hchecked : ∀ outcome ∈ outcomes updateSets sets given, CheckedOutcome outcome) :
    ∃ samples, groups.mapM (joinSample size) = .ok samples ∧
      ∃ fed streamed, performAll (chunks.map .feed ++ [.flush]) { sets, updateSets } =
        .ok fed streamed ∧
      ∃ unpacked sampled, performAll [.samples size samples] { sets, updateSets } =
        .ok unpacked sampled ∧
      ∃ results after, performAll [.units given] { sets, updateSets } = .ok results after ∧
        Analyzed { sets, updateSets } given results after ∧
        fed.map UnitResult.unplaced = results.map UnitResult.unplaced ∧ streamed.Alike after ∧
        unpacked.map UnitResult.unplaced = results.map UnitResult.unplaced ∧
        sampled.Alike after := by
  have hstart : Alike { sets, updateSets } { sets, updateSets } := ⟨rfl, rfl, rfl, rfl⟩
  obtain ⟨samples, hsamples, hunits⟩ := map_bytes_frameAll_samples hgroups hsizes
  obtain ⟨results, after, hrun, hdone⟩ :
      ∃ results after, analyzeUnits given { sets, updateSets } = .ok results after ∧
        Analyzed { sets, updateSets } given results after := exists_analyzed hchecked
  -- both runs are compared with the decoding of the given units
  have hfeed := endsAlike_performAll hstart
    ((map_bytes_frameAll_feed hchunks).trans hgiven.symm)
  have hunpack := endsAlike_performAll hstart (hunits.trans hgiven.symm)
  rw [hrun] at hfeed hunpack
  obtain ⟨fed, streamed, hfeedRun, hfed, hstreamed⟩ := hfeed.of_ok
  obtain ⟨unpacked, sampled, hunpackRun, hunpacked, hsampled⟩ := hunpack.of_ok
  refine ⟨samples, hsamples, fed, streamed, hfeedRun, unpacked, sampled, hunpackRun, results,
    after, ?_, hdone, hfed, hstreamed, hunpacked, hsampled⟩
  rw [performAll_singleton]
  exact hrun

/-- Two parameter sets, a slice that they govern, and a delimiter with an illegal escape. -/
def sentUnits : List SentUnit :=
  [{ bytes := [0x67, 0x42, 0x00, 0x0a, 0xf8, 0x41, 0xa2], longStartCode := true,
     ne_nil := by decide, apart := by decide, getLast_ne_zero := by decide },
   { bytes := [0x68, 0xce, 0x38, 0x80], longStartCode := false,
     ne_nil := by decide, apart := by decide, getLast_ne_zero := by decide },
   { bytes := [0x65, 0x88, 0x84, 0x0a], longStartCode := true,
     ne_nil := by decide, apart := by decide, getLast_ne_zero := by decide },
   { bytes := [0x09, 0x00, 0x00, 0x03, 0x04], longStartCode := false,
     ne_nil := by decide, apart := by decide, getLast_ne_zero := by decide }]

/-- Cut inside a start code and inside a unit, and packed into a sample of three units, an empty
sample and a sample of one. -/
theorem input_paths_agree_sentUnits :
    ∃ samples, [(sentUnits.take 3).map SentUnit.bytes, [],
        (sentUnits.drop 3).map SentUnit.bytes].mapM (joinSample .four) = .ok samples ∧
      ∃ fed streamed, performAll ([(SentUnit.stream sentUnits).take 2, [],
          ((SentUnit.stream sentUnits).drop 2).take 14,
          (SentUnit.stream sentUnits).drop 16].map .feed ++ [.flush]) {} = .ok fed streamed ∧
      ∃ unpacked sampled, performAll [.samples .four samples] {} = .ok unpacked sampled ∧
      ∃ results after, performAll
          [.units (sentUnits.map fun unit => { start := 40, bytes := unit.bytes })] {} =
          .ok results after ∧
        Analyzed {} (sentUnits.map fun unit => { start := 40, bytes := unit.bytes }) results after ∧
        fed.map UnitResult.unplaced = results.map UnitResult.unplaced ∧ streamed.Alike after ∧
        unpacked.map UnitResult.unplaced = results.map UnitResult.unplaced ∧
        sampled.Alike after :=
  input_paths_agree {} true .four sentUnits (by decide) (by decide) (by decide) (by decide)
    (by decide +kernel)

end Analyzer

end H264
