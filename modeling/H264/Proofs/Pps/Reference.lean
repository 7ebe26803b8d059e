import H264.Proofs.Pps.Picture

/-!
# The sequence that a picture parameter set asks for

Reading a picture parameter set looks at the sequences that are known in one place only: where 8x8
scaling lists are sent, the sequence that the set names decides how many there are.
`NalUnit.AsksFor` says of a unit that its payload gets there, whatever follows.

* `PicParameterSet.ofUnit_unresolved` — such a unit cannot be read where its sequence is not known;
* **`PicParameterSet.ofUnit_congr`** — what is read depends on the sequence asked for, and on no
  other.
-/

namespace H264

/-! ## Actions that may differ -/

/-- Two actions do the same, unless they find elements of which `asked` holds. -/
def AgreeUnless {α : Type} (asked : List Element → Prop) (first second : Read α) : Prop :=
  ∀ r, first r = second r ∨
    ∃ elements tail, asked elements ∧ r.rest = Element.bits elements ++ tail

namespace AgreeUnless

variable {α β : Type} {asked : List Element → Prop}

theorem refl (action : Read α) : AgreeUnless asked action action :=
  fun _ => .inl rfl

theorem of_asked {first second : Read α} (h : asked []) : AgreeUnless asked first second :=
  fun r => .inr ⟨[], r.rest, h, rfl⟩

/-- What is done afterwards is the same. -/
theorem bind {first second : Read α} (h : AgreeUnless asked first second) (next : α → Read β) :
    AgreeUnless asked (first >>= next) (second >>= next) := by
  intro r
  rcases h r with hsame | hasked
  · left
    show EStateM.bind first next r = EStateM.bind second next r
    unfold EStateM.bind
    rw [hsame]
  · exact .inr hasked

theorem map {first second : Read α} (h : AgreeUnless asked first second) (f : α → β) :
    AgreeUnless asked (f <$> first) (f <$> second) := by
  rw [map_eq_pure_bind, map_eq_pure_bind]
  exact h.bind _

/-- A part that both take, before the rest. -/
theorem part {first : Read α} {next other : α → Read β} {legal : α → Prop}
    {part : α → List Element} (hfirst : Accepts first legal part)
    (hnext : ∀ x, legal x → AgreeUnless (fun back => asked (part x ++ back)) (next x) (other x)) :
    AgreeUnless asked (first >>= next) (first >>= other) := by
  intro r
  cases hrun : first r with
  | error error mid =>
    left
    rw [bind_of_error hrun, bind_of_error hrun]
  | ok x mid =>
    obtain ⟨front, rest, ⟨hx, rfl⟩, hrest, rfl⟩ := hfirst r x mid hrun
    rw [bind_of_ok hrun, bind_of_ok hrun]
    rcases hnext x hx _ with hsame | ⟨back, tail, hasked, hback⟩
    · exact .inl hsame
    · rw [Reader.rest_advance, hrest, List.drop_left] at hback
      refine .inr ⟨part x ++ back, tail, hasked, ?_⟩
      rw [hrest, hback, Element.bits_append, List.append_assoc]

end AgreeUnless

/-! ## Actions that fail -/

/-- An action that finds the elements next fails with an error, whatever follows. -/
def StopsAfter {α : Type} (action : Read α) (elements : List Element) (error : Error) : Prop :=
  ∀ r tail, r.rest = Element.bits elements ++ tail → ∃ after, action r = .error error after

namespace StopsAfter

variable {α β : Type} {elements : List Element} {error : Error}

theorem fail : StopsAfter (throw error : Read α) [] error :=
  fun r _ _ => ⟨r, rfl⟩

theorem bind {first : Read α} (h : StopsAfter first elements error) (next : α → Read β) :
    StopsAfter (first >>= next) elements error := by
  intro r tail hrest
  obtain ⟨after, hrun⟩ := h r tail hrest
  exact ⟨after, bind_of_error hrun _⟩

theorem map {action : Read α} (h : StopsAfter action elements error) (f : α → β) :
    StopsAfter (f <$> action) elements error := by
  rw [map_eq_pure_bind]
  exact h.bind _

/-- A part that is read back, before the rest of an action. -/
theorem part {first : Read α} {next : α → Read β} {front back : List Element} {x : α}
    (hfirst : ReadsBack first front x) (hnext : StopsAfter (next x) back error) :
    StopsAfter (first >>= next) (front ++ back) error := by
  intro r tail hrest
  rw [Element.bits_append, List.append_assoc] at hrest
  rw [bind_of_ok (hfirst.reads r _ hrest)]
  refine hnext _ tail ?_
  rw [Reader.rest_advance, hrest, List.drop_left]

/-- An element before the rest of an action. -/
theorem cons {first : Read α} {next : α → Read β} {element : Element} {x : α}
    (hfirst : ReadsBack first [element] x) (hnext : StopsAfter (next x) elements error) :
    StopsAfter (first >>= next) (element :: elements) error :=
  .part hfirst hnext

/-- More is found before a flag that is set. -/
theorem more {next : Bool → Read β} {value : Bool}
    (h : StopsAfter (next true) (.flag value :: .flag true :: elements) error) :
    StopsAfter (Read.more >>= next) (.flag value :: .flag true :: elements) error := by
  intro r tail hrest
  have hmore : r.hasMore = true := by
    rw [Reader.hasMore_eq, hrest]
    simp
  show ∃ after, (get >>= fun r => next r.hasMore) r = _
  rw [get_bind, hmore]
  exact h r tail hrest

end StopsAfter

/-! ## Sets that ask for a sequence -/

namespace PicParameterSet

/-- The elements before the 8x8 scaling lists of a set that names `spsId`: the fields that every set
has, and the two flags that announce these lists. -/
def Asks (spsId : Nat) (elements : List Element) : Prop :=
  ∃ pps : PicParameterSet, pps.Valid (fun _ => none) ∧ pps.extension = none ∧ pps.spsId = spsId ∧
    elements = pps.elements ++ [.flag true, .flag true]

section

variable {findSps other : Nat → Option SeqParameterSet}

theorem agreeUnless_readExtension {asked : List Element → Prop} {spsId : Nat}
    (hasked : findSps spsId ≠ other spsId → asked [.flag true, .flag true]) :
    AgreeUnless asked (readExtension findSps spsId) (readExtension other spsId) := by
  unfold readExtension
  refine .part (.flag _) fun mode _ => .bind ?_ _
  unfold Read.flagged
  refine .part (.flag _) fun sent _ => ?_
  -- without both flags, neither reader looks at a sequence
  cases sent with
  | false => exact .refl _
  | true =>
    refine .map ?_ some
    unfold readScalingMatrix
    cases mode with
    | false => exact .refl _
    | true =>
      by_cases hsame : findSps spsId = other spsId
      · rw [hsame]
        exact .refl _
      · exact .of_asked (hasked hsame)

theorem agreeUnless_read :
    AgreeUnless (fun elements => ∃ spsId, findSps spsId ≠ other spsId ∧ Asks spsId elements)
      (read findSps) (read other) := by
  unfold read
  refine .part (.ueMax _ maxPpsId) fun id hid => .part (.ueMax _ maxSpsId) fun spsId hspsId => ?_
  refine .part (.flag _) fun entropyCoding _ => .part (.flag _) fun bottomField _ => ?_
  refine .part (.ueMax _ 7) fun count hcount => ?_
  refine .part (accepts_groups hcount) fun groups ⟨hgroups, hminus⟩ => ?_
  refine .part (.ueMax _ 31) fun l0 hl0 => .part (.ueMax _ 31) fun l1 hl1 => ?_
  refine .part (.flag _) fun weightedPred _ => .part accepts_bipred fun bipred hbipred => ?_
  refine .part (.seRange _ _ _) fun qp hqp => .part (.seRange _ _ _) fun qs hqs => ?_
  refine .part (.seRange _ _ _) fun chromaOffset hchroma => .part (.flag _) fun filter _ => ?_
  refine .part (.flag _) fun constrained _ => .part (.flag _) fun redundant _ => ?_
  refine .part .more fun more _ => .bind ?_ _
  -- up to here nothing depends on the sequences, and the rest only where there are fields at the end
  cases more with
  | false => exact .refl _
  | true =>
    refine .map (agreeUnless_readExtension fun hdiffer => ⟨spsId, hdiffer, ?_⟩) some
    refine ⟨⟨id, spsId, entropyCoding, bottomField, groups, l0, l1, weightedPred, bipred, qp, qs,
      chromaOffset, filter, constrained, redundant, none⟩, ?_, rfl, rfl, ?_⟩
    · exact ⟨hid, hspsId, hgroups, hl0, hl1, hbipred, hqp, hqs, hchroma, nofun⟩
    · simp [elements, sliceGroupCountMinus1, hminus, Element.sent]

/-- A set that asks for a sequence cannot be read where this sequence is not known. -/
theorem stopsAfter_read {spsId : Nat} {elements : List Element} (h : Asks spsId elements)
    (hunknown : findSps spsId = none) :
    StopsAfter (read findSps) elements (.unresolved "seq_parameter_set_id" spsId) := by
  obtain ⟨pps, hvalid, hnone, rfl, rfl⟩ := h
  obtain ⟨hpresent, hmost, hcount⟩ := sliceGroupCountMinus1_ne_zero hvalid.sliceGroups
  have hgroups : ∀ groups ∈ pps.sliceGroups,
      ReadsBack (SliceGroups.read pps.sliceGroupCountMinus1) groups.elements groups := by
    intro groups hsent
    rw [hcount groups hsent]
    exact SliceGroups.readsBack (hvalid.sliceGroups groups hsent)
  unfold read PicParameterSet.elements
  rw [hnone]
  simp only [List.cons_append, List.nil_append, List.append_assoc]
  refine .cons (.ueMax _ hvalid.id (by decide)) <| .cons (.ueMax _ hvalid.spsId (by decide)) ?_
  refine .cons (.flag _ _) <| .cons (.flag _ _) <| .cons (.ueMax _ hmost (by decide)) ?_
  refine .part (.optional hpresent hgroups) ?_
  refine .cons (.ueMax _ hvalid.numRefIdxL0DefaultActiveMinus1 (by decide)) ?_
  refine .cons (.ueMax _ hvalid.numRefIdxL1DefaultActiveMinus1 (by decide)) ?_
  refine .cons (.flag _ _) <| .cons (readsBack_bipred hvalid.weightedBipredIdc) ?_
  refine .cons (.seRange _ hvalid.picInitQpMinus26 (by decide) (by decide)) ?_
  refine .cons (.seRange _ hvalid.picInitQsMinus26 (by decide) (by decide)) ?_
  refine .cons (.seRange _ hvalid.chromaQpIndexOffset (by decide) (by decide)) ?_
  refine .cons (.flag _ _) <| .cons (.flag _ _) <| .cons (.flag _ _) <| .more ?_
  -- the fields that every set has are read back; both flags then lead to the look-up
  refine .bind (.map ?_ some) _
  unfold readExtension Read.flagged
  refine .cons (.flag _ true) <| .bind (.cons (.flag _ true) (.map ?_ some)) _
  unfold readScalingMatrix
  rw [if_pos rfl, hunknown]
  exact .fail

end

end PicParameterSet

/-! ## Units that ask for a sequence -/

theorem Error.eq_of_unresolved_eq {name : String} {id id' : Nat}
    (h : Error.unresolved name id = .unresolved name id') : id = id' := by
  have hnumber : (id : Int) = id' := by simpa [Error.unresolved] using h
  exact Int.ofNat_inj.mp hnumber

/-- A unit with a picture parameter set that carries 8x8 scaling lists and names the sequence
`spsId`. Whether the lists themselves can be read does not matter. -/
def NalUnit.AsksFor (unit : NalUnit) (spsId : Nat) : Prop :=
  unit.type? = some .picParameterSet ∧ ∃ data elements tail, unit.rbsp = .ok data ∧
    PicParameterSet.Asks spsId elements ∧ Bytes.bits data = Element.bits elements ++ tail

namespace PicParameterSet

variable {findSps other : Nat → Option SeqParameterSet} {unit : NalUnit}

theorem ofUnit_unresolved {spsId : Nat} (h : unit.AsksFor spsId) (hunknown : findSps spsId = none) :
    ofUnit findSps unit = .error (.unresolved "seq_parameter_set_id" spsId) := by
  obtain ⟨-, data, elements, tail, hdata, hasks, hbits⟩ := h
  obtain ⟨after, hrun⟩ := stopsAfter_read hasks hunknown { data } tail hbits
  unfold ofUnit NalUnit.readRbsp
  rw [hdata, ok_bind]
  exact Read.value_of_error hrun

/-- **What a picture parameter set is read from.** Two ways to find sequences that agree on the one
that the unit asks for, if it asks for one, give the same set or the same error. -/
theorem ofUnit_congr (htype : unit.type? = some .picParameterSet)
    (h : ∀ spsId, unit.AsksFor spsId → findSps spsId = other spsId) :
    ofUnit findSps unit = ofUnit other unit := by
  unfold ofUnit NalUnit.readRbsp
  cases hdata : unit.rbsp with
  | error error =>
    show Except.error error = Except.error error
    rfl
  | ok data =>
    rw [ok_bind, ok_bind]
    rcases agreeUnless_read { data } with hsame | ⟨elements, tail, ⟨spsId, hdiffer, hasks⟩, hbits⟩
    · unfold Read.value
      rw [hsame]
    · exact absurd (h spsId ⟨htype, data, elements, tail, hdata, hasks, hbits⟩) hdiffer

end PicParameterSet

end H264
