/-!
# Runs of stateful actions

What one action after another makes of a state: where the first gives a value, the next goes on from
the state that it left; where the first fails, both do.
-/

namespace H264

variable {ε σ α β : Type} {first : EStateM ε σ α} {before mid : σ}

theorem bind_of_ok {value : α} (h : first before = .ok value mid) (next : α → EStateM ε σ β) :
    (first >>= next) before = next value mid := by
  show EStateM.bind first next before = _
  unfold EStateM.bind
  rw [h]

theorem bind_of_error {error : ε} (h : first before = .error error mid)
    (next : α → EStateM ε σ β) : (first >>= next) before = .error error mid := by
  show EStateM.bind first next before = _
  unfold EStateM.bind
  rw [h]

theorem map_of_ok {value : α} (h : first before = .ok value mid) (f : α → β) :
    (f <$> first) before = .ok (f value) mid := by
  rw [map_eq_pure_bind, bind_of_ok h]
  rfl

theorem map_of_error {error : ε} (h : first before = .error error mid) (f : α → β) :
    (f <$> first) before = .error error mid := by
  rw [map_eq_pure_bind, bind_of_error h]

theorem get_bind (next : σ → EStateM ε σ β) (state : σ) :
    (get >>= next) state = next state state :=
  rfl

theorem set_bind (next : PUnit → EStateM ε σ β) (replaced state : σ) :
    (set state >>= next) replaced = next ⟨⟩ state :=
  rfl

theorem modify_apply (f : σ → σ) (state : σ) :
    (modify f : EStateM ε σ PUnit) state = .ok ⟨⟩ (f state) :=
  rfl

theorem throw_bind (error : ε) (next : α → EStateM ε σ β) (state : σ) :
    ((throw error : EStateM ε σ α) >>= next) state = .error error state :=
  rfl

end H264
