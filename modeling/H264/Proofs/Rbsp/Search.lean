import H264.Proofs.Rbsp.EmulationFree

/-!
# Unescaping by search

A payload may be unescaped in one search: its hits are the places where two zeros and a byte of at
most 3 stand, found at once, and what lies between two escapes is copied whole. Hits may overlap as
places do, but none that matters begins inside another: `search_eq_unescape` says that the search
gives what unescaping from left to right gives, with the same error at the same place.

Unescaping is said step by step first; `unescape_induction` follows these steps.
-/

namespace H264.Rbsp

/-! ## Unescaping step by step -/

/-- The byte after an escape, where it is above 3 and so may not stand there. -/
def wrongNext? (rest : Bytes) : Option UInt8 :=
  rest.head?.filter (3 < ·)

theorem wrongNext?_eq_none_iff {rest : Bytes} :
    wrongNext? rest = none ↔ ∀ next ∈ rest.head?, next ≤ 3 := by
  unfold wrongNext?
  rw [Option.filter_eq_none_iff]
  simp

theorem wrongNext?_eq_some_iff {rest : Bytes} {next : UInt8} :
    wrongNext? rest = some next ↔ ∃ later, rest = next :: later ∧ 3 < next := by
  unfold wrongNext?
  rw [Option.filter_eq_some_iff, List.head?_eq_some_iff]
  simp

theorem unescape_nil (offset : Nat) : unescape offset [] = .ok [] := rfl

theorem unescape_three_zeros (offset : Nat) (rest : Bytes) :
    unescape offset (0 :: 0 :: 0 :: rest) = .error (.escape offset .threeZeros) := rfl

theorem unescape_escape_before (offset : Nat) {next : UInt8} (hnext : 3 < next) (rest : Bytes) :
    unescape offset (0 :: 0 :: 3 :: next :: rest) =
      .error (.escape (offset + 2 : Nat) (.escapeBefore next)) := by
  rw [unescape, fault?, if_pos hnext]

theorem unescape_escape (offset : Nat) {rest : Bytes} (hnext : wrongNext? rest = none) :
    unescape offset (0 :: 0 :: 3 :: rest) = ([0, 0] ++ ·) <$> unescape (offset + 3) rest := by
  match rest with
  | [] => rfl
  | next :: rest =>
    have hlow := wrongNext?_eq_none_iff.mp hnext next rfl
    rw [unescape, fault?, if_neg (UInt8.not_lt.mpr hlow), unescape, strip]
    cases fault? (offset + 3) (next :: rest) <;> rfl

/-- A byte where neither three zeros nor an escape with its zeros begins is copied. -/
theorem unescape_cons (offset : Nat) {byte : UInt8} {rest : Bytes}
    (hzeros : ¬[0, 0, 0] <+: byte :: rest) (hescape : ¬[0, 0, 3] <+: byte :: rest) :
    unescape offset (byte :: rest) = ([byte] ++ ·) <$> unescape (offset + 1) rest := by
  have hfault : fault? offset (byte :: rest) = fault? (offset + 1) rest := by
    rw [fault?]
    · rintro later rfl rfl
      exact hzeros ⟨later, rfl⟩
    · rintro next later rfl rfl
      exact hescape ⟨next :: later, rfl⟩
  have hstrip : strip (byte :: rest) = byte :: strip rest := by
    rw [strip]
    rintro later rfl rfl
    exact hescape ⟨later, rfl⟩
  rw [unescape, hfault, hstrip, unescape]
  cases fault? (offset + 1) rest <;> rfl

/-- Induction on escaped bytes as they are unescaped. -/
theorem unescape_induction {motive : Bytes → Prop} (nil : motive [])
    (threeZeros : ∀ rest, motive (0 :: 0 :: 0 :: rest))
    (escapeBefore : ∀ next rest, 3 < next → motive (0 :: 0 :: 3 :: next :: rest))
    (escape : ∀ rest, wrongNext? rest = none → motive rest → motive (0 :: 0 :: 3 :: rest))
    (copy : ∀ byte rest, ¬[0, 0, 0] <+: byte :: rest → ¬[0, 0, 3] <+: byte :: rest →
      motive rest → motive (byte :: rest))
    (bytes : Bytes) : motive bytes := by
  induction hlen : bytes.length using Nat.strongRecOn generalizing bytes with
  | ind n ih =>
    match bytes with
    | [] => exact nil
    | byte :: rest =>
      rw [List.length_cons] at hlen
      by_cases hzeros : [0, 0, 0] <+: byte :: rest
      · obtain ⟨later, hlater⟩ := hzeros
        rw [← hlater]
        exact threeZeros later
      by_cases hescape : [0, 0, 3] <+: byte :: rest
      · obtain ⟨later, hlater⟩ := hescape
        have hshort : later.length < n := by
          have := congrArg List.length hlater
          simp at this
          omega
        rw [← hlater]
        cases hnext : wrongNext? later with
        | some next =>
          obtain ⟨after, rfl, hhigh⟩ := wrongNext?_eq_some_iff.mp hnext
          exact escapeBefore next after hhigh
        | none => exact escape later hnext (ih _ hshort later rfl)
      · exact copy byte rest hzeros hescape (ih rest.length (by omega) rest rfl)

/-! ## The search -/

/-- Whether two zeros and a byte of at most 3 come first. -/
def startsHit : Bytes → Bool
  | 0 :: 0 :: third :: _ => third ≤ 3
  | _ => false

/-- The places where two zeros and a byte of at most 3 stand. -/
def hits (bytes : Bytes) : List Nat :=
  (List.range bytes.length).filter fun place => startsHit (bytes.drop place)

/-- What the bytes from `done` on stand for, of which the hits are given: all up to an escape is
copied at once, and the escape is passed over. -/
def copyBetween (offset : Nat) (bytes : Bytes) : (done : Nat) → (hits : List Nat) →
    Except Error Bytes
  | done, [] => .ok (bytes.drop done)
  | done, place :: later =>
    match bytes.drop (place + 2) with
    | 0 :: _ => .error (.escape (offset + place : Nat) .threeZeros)
    | 3 :: rest =>
      match wrongNext? rest with
      | some next => .error (.escape (offset + (place + 2) : Nat) (.escapeBefore next))
      | none =>
        (bytes.extract done (place + 2) ++ ·) <$> copyBetween offset bytes (place + 3) later
    | _ => copyBetween offset bytes done later

/-- The payload that escaped bytes stand for, by a search for its hits. -/
def search (offset : Nat) (bytes : Bytes) : Except Error Bytes :=
  copyBetween offset bytes 0 (hits bytes)

theorem hits_cons (byte : UInt8) (rest : Bytes) :
    hits (byte :: rest) =
      (if startsHit (byte :: rest) then [0] else []) ++ (hits rest).map (· + 1) := by
  have hshift : (fun place => startsHit ((byte :: rest).drop place)) ∘ Nat.succ =
      fun place => startsHit (rest.drop place) := rfl
  rw [hits, List.length_cons, List.range_succ_eq_map, List.filter_cons, List.drop_zero,
    List.filter_map, hshift, ← hits]
  by_cases h : startsHit (byte :: rest)
  · rw [if_pos h, if_pos h]
    rfl
  · rw [if_neg h, if_neg h]
    rfl

/-! ## The search against the steps -/

/-- No hit begins inside an escape. -/
theorem hits_escape (rest : Bytes) :
    hits (0 :: 0 :: 3 :: rest) = 0 :: (hits rest).map (· + 3) := by
  rw [hits_cons, hits_cons, hits_cons]
  simp [startsHit]

theorem exists_of_startsHit {byte : UInt8} {rest : Bytes} (h : startsHit (byte :: rest) = true) :
    ∃ third later, byte = 0 ∧ rest = 0 :: third :: later := by
  unfold startsHit at h
  split at h
  next third later heq =>
    obtain ⟨rfl, rfl⟩ := List.cons.inj heq
    exact ⟨third, later, rfl, rfl⟩
  next => cases h

/-- A hit that is neither illegal nor an escape is passed over. -/
theorem copyBetween_cons_of_ne {offset place done : Nat} {bytes : Bytes} {later : List Nat}
    (hzero : ∀ rest, bytes.drop (place + 2) ≠ 0 :: rest)
    (hthree : ∀ rest, bytes.drop (place + 2) ≠ 3 :: rest) :
    copyBetween offset bytes done (place :: later) = copyBetween offset bytes done later := by
  rw [copyBetween]
  split
  next rest h => exact absurd h (hzero rest)
  next rest h => exact absurd h (hthree rest)
  next => rfl

/-- What is found at a place, said of the places behind it. -/
theorem drop_add_of_drop (front : Bytes) {bytes back : Bytes} {place : Nat}
    (h : bytes.drop place = front ++ back) : bytes.drop (place + front.length) = back := by
  rw [← List.drop_drop, h, List.drop_left]

theorem extract_add_of_drop (front : Bytes) {bytes back : Bytes} {done place : Nat}
    (hdone : done ≤ place) (h : bytes.drop place = front ++ back) :
    bytes.extract done (place + front.length) = bytes.extract done place ++ front := by
  have hlength : place + front.length - done = (place - done) + front.length := by omega
  have hplace : done + (place - done) = place := by omega
  rw [List.extract_eq_take_drop, List.extract_eq_take_drop, hlength, List.take_add, List.drop_drop,
    hplace, h, List.take_left]

theorem map_hits_add (back : Bytes) (place count : Nat) :
    ((hits back).map (· + count)).map (· + place) = (hits back).map (· + (place + count)) := by
  rw [List.map_map]
  refine List.map_congr_left fun hit _ => ?_
  show hit + count + place = hit + (place + count)
  omega

/-- **Search invariant.** With the hits of what stands at `place`, the bytes from `done` up to
there are copied and the search goes on as unescaping does. -/
theorem copyBetween_hits (offset : Nat) {bytes back : Bytes} {done place : Nat}
    (hback : bytes.drop place = back) (hdone : done ≤ place) :
    copyBetween offset bytes done ((hits back).map (· + place)) =
      (bytes.extract done place ++ ·) <$> unescape (offset + place) back := by
  induction back using unescape_induction generalizing done place with
  | nil =>
    have hall : bytes.extract done place = bytes.drop done := by
      rw [List.extract_eq_take_drop]
      refine List.take_of_length_le ?_
      have := List.drop_eq_nil_iff.mp hback
      rw [List.length_drop]
      omega
    rw [hall]
    simp [hits, copyBetween, unescape_nil]
  | threeZeros rest =>
    have hthird : bytes.drop (place + 2) = 0 :: rest := drop_add_of_drop [0, 0] hback
    rw [hits_cons, unescape_three_zeros]
    show copyBetween offset _ done ((0 + place) :: _) = _
    rw [Nat.zero_add, copyBetween, hthird]
    rfl
  | escapeBefore next rest hnext =>
    have hthird : bytes.drop (place + 2) = 3 :: next :: rest := drop_add_of_drop [0, 0] hback
    have hwrong : wrongNext? (next :: rest) = some next :=
      wrongNext?_eq_some_iff.mpr ⟨rest, rfl, hnext⟩
    rw [hits_escape, unescape_escape_before _ hnext, List.map_cons, Nat.zero_add, copyBetween,
      hthird]
    simp only [hwrong, Nat.add_assoc]
    rfl
  | escape rest hlow ih =>
    have hthird : bytes.drop (place + 2) = 3 :: rest := drop_add_of_drop [0, 0] hback
    have hcopied : bytes.extract done (place + 2) = bytes.extract done place ++ [0, 0] :=
      extract_add_of_drop [0, 0] hdone hback
    -- behind the escape nothing is left to copy
    have hrest : copyBetween offset bytes (place + 3) ((hits rest).map (· + (place + 3))) =
        unescape (offset + place + 3) rest := by
      have hbehind := ih (drop_add_of_drop [0, 0, 3] hback) (Nat.le_refl _)
      simpa [List.extract_eq_take_drop, Nat.add_assoc] using hbehind
    rw [hits_escape, List.map_cons, map_hits_add, Nat.zero_add, copyBetween, hthird]
    simp only [hlow]
    rw [hrest, hcopied, unescape_escape _ hlow, Functor.map_map]
    simp only [List.append_assoc]
  | copy byte rest hzeros hescape ih =>
    have hcopied : bytes.extract done (place + 1) = bytes.extract done place ++ [byte] :=
      extract_add_of_drop [byte] hdone hback
    have hskip : copyBetween offset bytes done ((hits (byte :: rest)).map (· + place)) =
        copyBetween offset bytes done ((hits rest).map (· + (place + 1))) := by
      rw [hits_cons]
      by_cases hhit : startsHit (byte :: rest)
      · rw [if_pos hhit, List.singleton_append, List.map_cons, map_hits_add, Nat.zero_add]
        obtain ⟨third, later, rfl, rfl⟩ := exists_of_startsHit hhit
        have hthird : bytes.drop (place + 2) = third :: later := drop_add_of_drop [0, 0] hback
        refine copyBetween_cons_of_ne ?_ ?_
        · intro tail htail
          rw [hthird] at htail
          obtain ⟨rfl, rfl⟩ := List.cons.inj htail
          exact hzeros ⟨later, rfl⟩
        · intro tail htail
          rw [hthird] at htail
          obtain ⟨rfl, rfl⟩ := List.cons.inj htail
          exact hescape ⟨later, rfl⟩
      · rw [if_neg hhit, List.nil_append, map_hits_add]
    have hrest := ih (drop_add_of_drop [byte] hback) (Nat.le_add_right_of_le hdone)
    rw [hskip, unescape_cons _ hzeros hescape, Functor.map_map]
    simp only [← List.append_assoc, ← hcopied]
    exact hrest

/-- **The search and the steps agree**: they give the same payload, or the same error. -/
theorem search_eq_unescape (offset : Nat) (bytes : Bytes) :
    search offset bytes = unescape offset bytes := by
  have hall := copyBetween_hits offset (List.drop_zero : bytes.drop 0 = bytes) (Nat.le_refl 0)
  simpa [search, List.extract_eq_take_drop] using hall

end H264.Rbsp
