import H264.Proofs.Analysis.Run

/-!
# Notes of an analysis

Calls frame units and meet the breaks of samples; of each of these an analysis takes a note, from
which its results and its issues are read off in stream order.

* `framedAll` — what calls frame, in stream order, whatever comes of it;
* `notes` — what an analysis has to note of it, from an index and parameter sets on;
* `noted_eq` — all that one note changes;
* `take_of_going`, `take_of_stopping` — one step of an analysis is one note;
* **`performAll_of_going`**, **`performAll_of_stopping`** — calls give the results and log the issues
  of all notes, or a note stops them and the issues of those before it are left.
-/

namespace H264

open Framing

/-! ## What is framed -/

/-- What calls frame: a unit, or the break of a sample. -/
inductive Framed
  | unit (unit : NalUnit)
  | broken (sampleIndex : Nat) (error : Error)

namespace Framed

/-- The unit that is framed, unless it is a break. -/
def unit? : Framed → Option NalUnit
  | .unit given => some given
  | .broken .. => none

/-- The units of a sample, and its break if it has one. -/
def ofSample (size : LengthSize) (index : Nat) (sample : Bytes) : List Framed :=
  (sampleUnits size 0 sample).1.map unit ++
    ((sampleUnits size 0 sample).2.map (broken index)).toList

/-- What samples hold, from one with a given index on. -/
def ofSamples (size : LengthSize) : (index : Nat) → List Bytes → List Framed
  | _, [] => []
  | index, sample :: samples => ofSample size index sample ++ ofSamples size (index + 1) samples

theorem filterMap_map_unit (units : List NalUnit) :
    (units.map unit).filterMap unit? = units := by
  rw [List.filterMap_map]
  exact List.filterMap_some

theorem filterMap_ofSample (size : LengthSize) (index : Nat) (sample : Bytes) :
    (ofSample size index sample).filterMap unit? = (sampleUnits size 0 sample).1 := by
  unfold ofSample
  rw [List.filterMap_append, filterMap_map_unit]
  cases (sampleUnits size 0 sample).2 with
  | none => exact List.append_nil _
  | some error => exact List.append_nil _

theorem filterMap_ofSamples (size : LengthSize) (index : Nat) (samples : List Bytes) :
    (ofSamples size index samples).filterMap unit? =
      samples.flatMap fun sample => (sampleUnits size 0 sample).1 := by
  induction samples generalizing index with
  | nil => rfl
  | cons sample samples ih =>
    rw [ofSamples, List.filterMap_append, filterMap_ofSample, ih, List.flatMap_cons]

end Framed

namespace Analyzer

/-- What a call frames. -/
def Call.framed (framer : Framer) : Call → List Framed
  | feed chunk => (framer.feed chunk).1.map .unit
  | flush => framer.finish.1.map .unit
  | units given => given.map .unit
  | samples size given => Framed.ofSamples size 0 given

/-- What some calls frame. -/
def framedAll (framer : Framer) : List Call → List Framed
  | [] => []
  | call :: calls => call.framed framer ++ framedAll (call.frame framer).2 calls

end Analyzer

/-! ## What is noted -/

/-- The issue of a unit that fails. -/
def UnitResult.issue? (result : UnitResult) : Option (Issue (Option Nat)) :=
  result.error?.map fun error =>
    { kind := .ofError error
      unitIndex := result.index
      unitType := result.unit.type?.map fun type => type.code
      message := error.message
      field := error.fieldName?
      context := none }

/-- The error of a unit if it is one that no stream causes, which stops an analysis. -/
def UnitResult.stop? (result : UnitResult) : Option Error :=
  match result.outcome with
  | .ok _ => none
  | .error error => if error.isBitstream then none else some error

/-- What an analysis notes: the result of a unit, or the break of a sample with the number of units
before it. -/
inductive Note
  | unit (result : UnitResult)
  | broken (sampleIndex : Nat) (error : Error) (unitCount : Nat)

namespace Note

/-- What the note was taken of. -/
def framed : Note → Framed
  | unit result => .unit result.unit
  | broken sampleIndex error _ => .broken sampleIndex error

/-- The result of a unit. -/
def result? : Note → Option UnitResult
  | unit result => some result
  | broken .. => none

/-- The issue of a unit that fails, or of a break. -/
def issue? : Note → Option (Issue (Option Nat))
  | unit result => result.issue?
  | broken sampleIndex error unitCount => some
    { kind := .ofError error
      unitIndex := unitCount
      unitType := none
      message := error.message
      field := error.fieldName?
      context := some sampleIndex }

/-- The error that stops the analysis. -/
def stop? : Note → Option Error
  | unit result => result.stop?
  | broken .. => none

/-- The parameter sets once the note is taken, where they are kept current. -/
def setsAfter (update : Bool) (sets : ParamSets) (note : Note) : ParamSets :=
  match note.result?.bind UnitResult.record? with
  | some record => if update then sets.storeRecord record else sets
  | none => sets

/-- The counts by type once the note is taken. -/
def typesAfter (counts : List (UnitType × Nat)) (note : Note) : List (UnitType × Nat) :=
  match note.result?.bind (·.unit.type?) with
  | some type => countOne counts type
  | none => counts

/-- The note of what comes next, after `index` units and with these parameter sets. -/
def next (index : Nat) (sets : ParamSets) : Framed → Note
  | .unit given => unit { index, unit := given, outcome := Record.ofUnit sets given }
  | .broken sampleIndex error => broken sampleIndex error index

/-- A unit does not stop an analysis if its error is one that a stream can cause. -/
theorem stop?_unit_eq_none_iff (result : UnitResult) :
    (unit result).stop? = none ↔ CheckedOutcome result.outcome := by
  obtain ⟨index, given, outcome⟩ := result
  cases outcome with
  | ok record => exact iff_of_true rfl (.ok record)
  | error error =>
    show (if error.isBitstream then none else some error) = none ↔ _
    cases hbitstream : error.isBitstream with
    | true => exact iff_of_true rfl (.fail hbitstream)
    | false =>
      refine iff_of_false nofun fun h => ?_
      rw [h error rfl] at hbitstream
      cases hbitstream

@[simp] theorem framed_next (index : Nat) (sets : ParamSets) (piece : Framed) :
    (next index sets piece).framed = piece := by
  cases piece <;> rfl

/-- The parameter sets that the next note leaves are those that the unit leaves. -/
theorem setsAfter_next (update : Bool) (index : Nat) (sets : ParamSets) (piece : Framed) :
    (next index sets piece).setsAfter update sets =
      H264.setsAfter update sets piece.unit?.toList := by
  cases piece with
  | broken sampleIndex error => rfl
  | unit given =>
    show (unit { index, unit := given, outcome := Record.ofUnit sets given }).setsAfter update sets =
      setsAfterUnit update sets given
    unfold setsAfterUnit
    cases Record.ofUnit sets given <;> rfl

end Note

/-- The notes of what is framed, after `index` units and from some parameter sets on. -/
def notes (update : Bool) (index : Nat) (sets : ParamSets) : List Framed → List Note
  | [] => []
  | piece :: pieces =>
    Note.next index sets piece ::
      notes update (index + piece.unit?.toList.length) (setsAfter update sets piece.unit?.toList)
        pieces

/-- The results of units, from an index and some parameter sets on. -/
def unitResults (update : Bool) (index : Nat) (sets : ParamSets) : List NalUnit → List UnitResult
  | [] => []
  | unit :: units =>
    { index, unit, outcome := Record.ofUnit sets unit } ::
      unitResults update (index + 1) (setsAfterUnit update sets unit) units

section

variable {update : Bool} {index : Nat} {sets : ParamSets}

theorem map_unit_unitResults (units : List NalUnit) :
    (unitResults update index sets units).map UnitResult.unit = units := by
  induction units generalizing index sets with
  | nil => rfl
  | cons unit units ih => exact congrArg (unit :: ·) ih

/-- The results of units are numbered on from the first index. -/
theorem map_index_unitResults (units : List NalUnit) :
    (unitResults update index sets units).map UnitResult.index =
      List.range' index units.length := by
  induction units generalizing index sets with
  | nil => rfl
  | cons unit units ih => exact congrArg (index :: ·) ih

theorem filterMap_issue_map_unit (results : List UnitResult) :
    (results.map Note.unit).filterMap Note.issue? = results.filterMap UnitResult.issue? :=
  List.filterMap_map

theorem filterMap_result_map_unit (results : List UnitResult) :
    (results.map Note.unit).filterMap Note.result? = results := by
  rw [List.filterMap_map]
  exact List.filterMap_some

theorem map_framed_notes (pieces : List Framed) :
    (notes update index sets pieces).map Note.framed = pieces := by
  induction pieces generalizing index sets with
  | nil => rfl
  | cons piece pieces ih => rw [notes, List.map_cons, ih, Note.framed_next]

theorem filterMap_cons_toList {α β : Type} (f : α → Option β) (first : α) (rest : List α) :
    (first :: rest).filterMap f = (f first).toList ++ rest.filterMap f := by
  rw [List.filterMap_cons]
  cases f first <;> rfl

theorem notes_append (front back : List Framed) :
    notes update index sets (front ++ back) = notes update index sets front ++
      notes update (index + (front.filterMap Framed.unit?).length)
        (setsAfter update sets (front.filterMap Framed.unit?)) back := by
  induction front generalizing index sets with
  | nil => rfl
  | cons piece front ih =>
    rw [List.cons_append, notes, ih, notes, List.cons_append, filterMap_cons_toList,
      List.length_append, setsAfter_append, Nat.add_assoc]

/-- The results that are noted are those of the units. -/
theorem filterMap_result_notes (pieces : List Framed) :
    (notes update index sets pieces).filterMap Note.result? =
      unitResults update index sets (pieces.filterMap Framed.unit?) := by
  induction pieces generalizing index sets with
  | nil => rfl
  | cons piece pieces ih =>
    rw [notes, filterMap_cons_toList, ih, filterMap_cons_toList]
    cases piece <;> rfl

/-- Of units alone their results are noted. -/
theorem notes_units (units : List NalUnit) :
    notes update index sets (units.map .unit) =
      (unitResults update index sets units).map .unit := by
  induction units generalizing index sets with
  | nil => rfl
  | cons unit units ih => exact congrArg (_ :: ·) ih

/-- No note stops an analysis just if every error is one that a stream can cause. -/
theorem forall_stop_notes_iff (pieces : List Framed) :
    (∀ note ∈ notes update index sets pieces, note.stop? = none) ↔
      ∀ outcome ∈ outcomes update sets (pieces.filterMap Framed.unit?), CheckedOutcome outcome := by
  induction pieces generalizing index sets with
  | nil => simp [notes, outcomes]
  | cons piece pieces ih =>
    rw [notes, List.forall_mem_cons, ih]
    cases piece with
    | broken sampleIndex error => exact and_iff_right rfl
    | unit unit =>
      rw [Note.next, Note.stop?_unit_eq_none_iff]
      exact List.forall_mem_cons.symm

end

/-! ## One step -/

namespace Analyzer

/-- The analyzer once a note is taken. -/
def noted (analyzer : Analyzer) : Note → Analyzer
  | .unit result => match result.outcome with
    | .ok record => (analyzer.count result.unit).keep record
    | .error error => (analyzer.count result.unit).log
        (.ofError error result.index (result.unit.type?.map fun type => type.code) none)
  | .broken sampleIndex error unitCount =>
    analyzer.log (.ofError error unitCount none (some sampleIndex))

/-- All that a note changes: the parameter sets by a record, the counts by a unit, and the log by an
issue. -/
theorem noted_eq (before : Analyzer) (note : Note) : before.noted note = { before with
    sets := note.setsAfter before.updateSets before.sets
    issues := before.issues ++ note.issue?.toList
    unitCount := before.unitCount + note.result?.toList.length
    typeCounts := note.typesAfter before.typeCounts } := by
  cases note with
  | broken sampleIndex error unitCount => rfl
  | unit result =>
    obtain ⟨index, unit, outcome⟩ := result
    cases outcome with
    | error error => rfl
    | ok record =>
      have hissues : before.issues ++
          (Note.unit { index, unit, outcome := .ok record }).issue?.toList = before.issues :=
        List.append_nil before.issues
      rw [hissues]
      exact keep_eq (before.count unit) record

theorem issues_noted (before : Analyzer) (note : Note) :
    (before.noted note).issues = before.issues ++ note.issue?.toList := by
  rw [noted_eq]

/-- Analyse a unit, or log a break. -/
def take : Framed → Analyze (List UnitResult)
  | .unit unit => (fun result => [result]) <$> analyzeUnit unit
  | .broken sampleIndex error => do
    modify fun analyzer =>
      analyzer.log (.ofError error analyzer.unitCount none (some sampleIndex))
    return []

/-- Analyse what is framed, in order. -/
def takeAll : List Framed → Analyze (List UnitResult)
  | [] => return []
  | piece :: pieces => both (take piece) (takeAll pieces)

/-- The note of what comes next. -/
def nextNote (analyzer : Analyzer) (piece : Framed) : Note :=
  .next analyzer.unitCount analyzer.sets piece

/-- The notes of what comes next. -/
def nextNotes (analyzer : Analyzer) (pieces : List Framed) : List Note :=
  notes analyzer.updateSets analyzer.unitCount analyzer.sets pieces

section

variable (before : Analyzer) (piece : Framed)

theorem nextNote_unit (unit : NalUnit) : before.nextNote (.unit unit) =
    .unit { index := before.unitCount, unit, outcome := Record.ofUnit before.sets unit } :=
  rfl

theorem take_of_going (h : (before.nextNote piece).stop? = none) :
    take piece before =
      .ok (before.nextNote piece).result?.toList (before.noted (before.nextNote piece)) := by
  cases piece with
  | broken sampleIndex error => rfl
  | unit unit =>
    rw [nextNote_unit] at h ⊢
    have hchecked := (Note.stop?_unit_eq_none_iff _).mp h
    cases hrecord : Record.ofUnit before.sets unit with
    | ok record => exact map_of_ok (analyzeUnit_of_ok hrecord) _
    | error error =>
      exact map_of_ok (analyzeUnit_of_bitstream hrecord (hchecked error hrecord)) _

theorem take_of_stopping {error : Error} (h : (before.nextNote piece).stop? = some error) :
    ∃ after, take piece before = .error error after ∧ after.issues = before.issues := by
  cases piece with
  | broken sampleIndex cause => cases h
  | unit unit =>
    rw [nextNote_unit] at h
    cases hrecord : Record.ofUnit before.sets unit with
    | ok record =>
      rw [hrecord] at h
      cases h
    | error cause =>
      rw [hrecord] at h
      have hstop : cause.isBitstream = false ∧ cause = error := by
        simpa [Note.stop?, UnitResult.stop?] using h
      obtain ⟨hmisuse, rfl⟩ := hstop
      exact ⟨_, map_of_error (analyzeUnit_of_misuse hrecord hmisuse) _, rfl⟩

theorem nextNotes_cons (pieces : List Framed) :
    before.nextNotes (piece :: pieces) =
      before.nextNote piece :: (before.noted (before.nextNote piece)).nextNotes pieces := by
  have hsets := Note.setsAfter_next before.updateSets before.unitCount before.sets piece
  have hcount : (before.nextNote piece).result?.toList.length = piece.unit?.toList.length := by
    cases piece <;> rfl
  unfold nextNotes
  rw [noted_eq, notes, ← hsets, ← hcount]
  rfl

end

/-! ## What notes leave -/

/-- The analyzer once all that is framed is noted. -/
def recorded (before : Analyzer) (pieces : List Framed) : Analyzer :=
  (before.nextNotes pieces).foldl noted before

/-- The analyzer with its framer moved on. -/
def moved (analyzer : Analyzer) (framer : Framer) : Analyzer :=
  { analyzer with framer }

@[simp] theorem framer_moved (before : Analyzer) (framer : Framer) :
    (before.moved framer).framer = framer :=
  rfl

@[simp] theorem moved_moved (before : Analyzer) (first second : Framer) :
    (before.moved first).moved second = before.moved second :=
  rfl

@[simp] theorem nextNotes_moved (before : Analyzer) (framer : Framer) (pieces : List Framed) :
    (before.moved framer).nextNotes pieces = before.nextNotes pieces :=
  rfl

theorem noted_moved (before : Analyzer) (framer : Framer) (note : Note) :
    (before.moved framer).noted note = (before.noted note).moved framer := by
  rw [noted_eq, noted_eq]
  rfl

@[simp] theorem recorded_moved (before : Analyzer) (framer : Framer) (pieces : List Framed) :
    (before.moved framer).recorded pieces = (before.recorded pieces).moved framer := by
  unfold recorded
  rw [nextNotes_moved]
  generalize before.nextNotes pieces = taken
  induction taken generalizing before with
  | nil => rfl
  | cons note taken ih => rw [List.foldl_cons, noted_moved, ih, List.foldl_cons]

theorem recorded_cons (before : Analyzer) (piece : Framed) (pieces : List Framed) :
    before.recorded (piece :: pieces) =
      (before.noted (before.nextNote piece)).recorded pieces := by
  rw [recorded, nextNotes_cons, List.foldl_cons, recorded]

theorem recorded_append (before : Analyzer) (front back : List Framed) :
    before.recorded (front ++ back) = (before.recorded front).recorded back := by
  induction front generalizing before with
  | nil => rfl
  | cons piece front ih => rw [List.cons_append, recorded_cons, ih, recorded_cons]

theorem nextNotes_append (before : Analyzer) (front back : List Framed) :
    before.nextNotes (front ++ back) =
      before.nextNotes front ++ (before.recorded front).nextNotes back := by
  induction front generalizing before with
  | nil => rfl
  | cons piece front ih =>
    rw [List.cons_append, nextNotes_cons, ih, nextNotes_cons, recorded_cons, List.cons_append]

/-- Notes append their issues to the log. -/
theorem issues_recorded (before : Analyzer) (pieces : List Framed) :
    (before.recorded pieces).issues =
      before.issues ++ (before.nextNotes pieces).filterMap Note.issue? := by
  induction pieces generalizing before with
  | nil => exact (List.append_nil before.issues).symm
  | cons piece pieces ih =>
    rw [recorded_cons, ih, issues_noted, nextNotes_cons, filterMap_cons_toList, List.append_assoc]

/-! ## Runs -/

/-- Where no note stops an analysis, it gives the results of all and has taken all. -/
theorem takeAll_of_going {before : Analyzer} {pieces : List Framed}
    (h : ∀ note ∈ before.nextNotes pieces, note.stop? = none) :
    takeAll pieces before =
      .ok ((before.nextNotes pieces).filterMap Note.result?) (before.recorded pieces) := by
  induction pieces generalizing before with
  | nil => rfl
  | cons piece pieces ih =>
    rw [nextNotes_cons] at h ⊢
    obtain ⟨hfirst, hrest⟩ := List.forall_mem_cons.mp h
    unfold takeAll
    rw [both_of_ok (take_of_going before piece hfirst), map_of_ok (ih hrest), recorded_cons,
      filterMap_cons_toList]

/-- A note that stops an analysis leaves the issues of the notes before it. -/
theorem takeAll_of_stopping {before : Analyzer} {pieces : List Framed} {front back : List Note}
    {stopping : Note} {error : Error} (hnotes : before.nextNotes pieces = front ++ stopping :: back)
    (hgoing : ∀ note ∈ front, note.stop? = none) (hstop : stopping.stop? = some error) :
    ∃ after, takeAll pieces before = .error error after ∧
      after.issues = before.issues ++ front.filterMap Note.issue? := by
  induction pieces generalizing before front with
  | nil => exact absurd hnotes.symm (by simp [nextNotes, notes])
  | cons piece pieces ih =>
    rw [nextNotes_cons] at hnotes
    unfold takeAll
    cases front with
    | nil =>
      obtain ⟨rfl, -⟩ := List.cons.inj hnotes
      obtain ⟨after, hrun, hissues⟩ := take_of_stopping before piece hstop
      exact ⟨after, both_of_error hrun, by rw [hissues]; exact (List.append_nil _).symm⟩
    | cons note front =>
      obtain ⟨rfl, hlater⟩ := List.cons.inj hnotes
      obtain ⟨hfirst, hrest⟩ := List.forall_mem_cons.mp hgoing
      obtain ⟨after, hrun, hissues⟩ := ih hlater hrest
      refine ⟨after, ?_, ?_⟩
      · rw [both_of_ok (take_of_going before piece hfirst), map_of_error hrun]
      · rw [hissues, issues_noted, filterMap_cons_toList, List.append_assoc]

/-! ## Calls as runs -/

theorem takeAll_append (front back : List Framed) :
    takeAll (front ++ back) = both (takeAll front) (takeAll back) := by
  induction front with
  | nil => exact (both_nothing _).symm
  | cons piece front ih =>
    rw [List.cons_append, takeAll, ih, takeAll, both_assoc]

theorem takeAll_units (units : List NalUnit) :
    takeAll (units.map .unit) = analyzeUnits units := by
  induction units with
  | nil => rfl
  | cons unit units ih => rw [List.map_cons, takeAll, ih, analyzeUnits_cons, take]

theorem takeAll_ofSample (size : LengthSize) (index : Nat) (sample : Bytes) :
    takeAll (Framed.ofSample size index sample) = analyzeSample size index sample := by
  unfold Framed.ofSample
  rw [takeAll_append, takeAll_units]
  unfold both
  cases hbroken : (sampleUnits size 0 sample).2 with
  | none =>
    rw [analyzeSample_of_whole hbroken]
    simp [takeAll]
  | some error =>
    rw [analyzeSample_of_broken hbroken]
    simp [takeAll, take, both, thenLog]

theorem takeAll_ofSamples (size : LengthSize) (index : Nat) (samples : List Bytes) :
    takeAll (Framed.ofSamples size index samples) = analyzeSamples size index samples := by
  induction samples generalizing index with
  | nil => rfl
  | cons sample samples ih =>
    rw [Framed.ofSamples, takeAll_append, takeAll_ofSample, ih]
    rfl

/-- A call moves the framer on and takes what it frames. -/
theorem perform_eq_takeAll (before : Analyzer) (call : Call) :
    perform call before =
      takeAll (call.framed before.framer) (before.moved (call.frame before.framer).2) := by
  cases call with
  | feed chunk => exact (congrFun (takeAll_units _) _).symm
  | flush => exact (congrFun (takeAll_units _) _).symm
  | units given => exact (congrFun (takeAll_units _) _).symm
  | samples size given => exact (congrFun (takeAll_ofSamples size 0 given) _).symm

theorem perform_of_going {before : Analyzer} {call : Call}
    (h : ∀ note ∈ before.nextNotes (call.framed before.framer), note.stop? = none) :
    perform call before =
      .ok ((before.nextNotes (call.framed before.framer)).filterMap Note.result?)
        ((before.recorded (call.framed before.framer)).moved (call.frame before.framer).2) := by
  have hrun := @takeAll_of_going (before.moved (call.frame before.framer).2) _ h
  rw [recorded_moved, nextNotes_moved] at hrun
  exact (perform_eq_takeAll before call).trans hrun

/-- Where no note stops an analysis, its calls give the results of all notes. -/
theorem performAll_of_going {before : Analyzer} {calls : List Call}
    (h : ∀ note ∈ before.nextNotes (framedAll before.framer calls), note.stop? = none) :
    performAll calls before =
      .ok ((before.nextNotes (framedAll before.framer calls)).filterMap Note.result?)
        ((before.recorded (framedAll before.framer calls)).moved
          (frameAll before.framer calls).2) := by
  induction calls generalizing before with
  | nil => rfl
  | cons call calls ih =>
    rw [framedAll, nextNotes_append] at h ⊢
    obtain ⟨hfirst, hrest⟩ := List.forall_mem_append.mp h
    have hcalls := @ih ((before.recorded (call.framed before.framer)).moved
      (call.frame before.framer).2) hrest
    rw [framer_moved, nextNotes_moved, recorded_moved, moved_moved] at hcalls
    unfold performAll
    rw [both_of_ok (perform_of_going hfirst), map_of_ok hcalls, List.filterMap_append,
      recorded_append, frameAll_cons]

/-- Where two lists are joined, an element of the whole is in the first or behind it. -/
theorem mem_front_or_back {α : Type} {first second front back : List α} {found : α}
    (h : first ++ second = front ++ found :: back) :
    (∃ rest, first = front ++ found :: rest) ∨
      ∃ later, front = first ++ later ∧ second = later ++ found :: back := by
  rcases List.append_eq_append_iff.mp h with hlater | ⟨rest, hfirst, hrest⟩
  · exact .inr hlater
  · cases rest with
    | nil => exact .inr ⟨[], by rw [hfirst, List.append_nil, List.append_nil], hrest.symm⟩
    | cons other rest =>
      obtain ⟨rfl, -⟩ := List.cons.inj hrest
      exact .inl ⟨rest, hfirst⟩

/-- A note that stops an analysis ends its calls, and the issues of the notes before it are left. -/
theorem performAll_of_stopping {before : Analyzer} {calls : List Call} {front back : List Note}
    {stopping : Note} {error : Error}
    (hnotes : before.nextNotes (framedAll before.framer calls) = front ++ stopping :: back)
    (hgoing : ∀ note ∈ front, note.stop? = none) (hstop : stopping.stop? = some error) :
    ∃ after, performAll calls before = .error error after ∧
      after.issues = before.issues ++ front.filterMap Note.issue? := by
  induction calls generalizing before front with
  | nil => exact absurd hnotes.symm (by simp [framedAll, nextNotes, notes])
  | cons call calls ih =>
    rw [framedAll, nextNotes_append] at hnotes
    unfold performAll
    rcases mem_front_or_back hnotes with ⟨rest, hcall⟩ | ⟨later, rfl, hlater⟩
    · obtain ⟨after, hrun, hissues⟩ :=
        @takeAll_of_stopping (before.moved (call.frame before.framer).2) _ _ _ _ _ hcall hgoing hstop
      exact ⟨after, both_of_error ((perform_eq_takeAll before call).trans hrun), hissues⟩
    · -- the call goes on, and one of the calls after it stops
      obtain ⟨hfirst, hgoing⟩ := List.forall_mem_append.mp hgoing
      obtain ⟨after, hrun, hissues⟩ := @ih ((before.recorded (call.framed before.framer)).moved
        (call.frame before.framer).2) later hlater hgoing
      refine ⟨after, ?_, ?_⟩
      · rw [both_of_ok (perform_of_going hfirst), map_of_error hrun]
      · rw [hissues, List.filterMap_append, ← List.append_assoc, ← issues_recorded]
        rfl

/-! ## Units -/

theorem filterMap_framed (framer : Framer) (call : Call) :
    (call.framed framer).filterMap Framed.unit? = (call.frame framer).1 := by
  cases call with
  | feed chunk => exact Framed.filterMap_map_unit _
  | flush => exact Framed.filterMap_map_unit _
  | units given => exact Framed.filterMap_map_unit given
  | samples size given => exact Framed.filterMap_ofSamples size 0 given

/-- The units that are framed are those of the calls. -/
theorem filterMap_framedAll (framer : Framer) (calls : List Call) :
    (framedAll framer calls).filterMap Framed.unit? = (frameAll framer calls).1 := by
  induction calls generalizing framer with
  | nil => rfl
  | cons call calls ih =>
    rw [framedAll, List.filterMap_append, filterMap_framed, ih, frameAll_cons]

/-- If all errors of the units are ones that a stream can cause, the calls give what is noted. -/
theorem performAll_of_checked {before : Analyzer} {calls : List Call}
    (h : ∀ outcome ∈ outcomes before.updateSets before.sets (frameAll before.framer calls).1,
      CheckedOutcome outcome) :
    performAll calls before =
      .ok ((before.nextNotes (framedAll before.framer calls)).filterMap Note.result?)
        ((before.recorded (framedAll before.framer calls)).moved
          (frameAll before.framer calls).2) := by
  rw [← filterMap_framedAll] at h
  exact performAll_of_going ((forall_stop_notes_iff _).mpr h)

end Analyzer

end H264
