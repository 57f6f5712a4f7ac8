import SaveAs.Action

/-!
# What is known of an action from its parts

What an action does not look at can be changed before it runs or after it, with the same outcome, and
what all its parts emit it emits. Both pass through a bind, and so through every program: `Blind` is
about changes of the world, `Emits` about events.
-/

namespace SaveAs

variable {ε δ ν μ σ τ α β : Type} {f : σ → σ}

/-- The same outcome in a changed world. -/
def Outcome.moved (f : σ → σ) (o : Outcome ε ν σ α) : Outcome ε ν σ α :=
  { o with world := f o.world }

namespace Action

/-- Does the same whether the world is changed before it or after it. -/
def Blind (f : σ → σ) (x : Action ε ν σ α) : Prop :=
  ∀ w, x (f w) = (x w).moved f

/-- Two actions may begin a program, if they differ by the change only. -/
theorem bind_moved {x y : Action ε ν σ α} {k : α → Action ε ν σ β} {w₁ w₂ : σ}
    (hx : x w₁ = (y w₂).moved f) (hk : ∀ a, Blind f (k a)) :
    (x >>= k) w₁ = ((y >>= k) w₂).moved f := by
  cases hy : y w₂ with
  | mk result events w =>
    rw [hy] at hx
    cases result with
    | ok a =>
      rw [bind_of_ok hx, bind_of_ok hy, hk a w]
      rfl
    | error e =>
      rw [bind_of_error hx, bind_of_error hy]
      rfl

theorem Blind.bind {x : Action ε ν σ α} {k : α → Action ε ν σ β} (hx : Blind f x)
    (hk : ∀ a, Blind f (k a)) : Blind f (x >>= k) :=
  fun w => bind_moved (hx w) hk

theorem Blind.pure (a : α) : Blind f (pure a : Action ε ν σ α) := fun _ => rfl

theorem Blind.fail (e : ε) : Blind f (fail e : Action ε ν σ α) := fun _ => rfl

theorem Blind.emit (event : ν) : Blind f (emit event : Action ε ν σ Unit) := fun _ => rfl

theorem Blind.ofExcept (x : Except ε α) : Blind f (ofExcept x : Action ε ν σ α) := by
  cases x <;> exact fun _ => rfl

theorem Blind.read {g : σ → α} (hg : ∀ w, g (f w) = g w) :
    Blind f (read g : Action ε ν σ α) := by
  intro w
  simp only [read_apply, Outcome.moved, hg]

theorem Blind.modify {g : σ → σ} (hg : ∀ w, g (f w) = f (g w)) :
    Blind f (modify g : Action ε ν σ Unit) := by
  intro w
  simp only [modify_apply, Outcome.moved, hg]

/-- An action on a part of the world that the change leaves alone. -/
theorem Blind.focus {get : σ → τ} {set : τ → σ → σ} (hget : ∀ w, get (f w) = get w)
    (hset : ∀ t w, set t (f w) = f (set t w)) (event : μ → ν) (x : Action ε μ τ α) :
    Blind f (focus get set event x) := by
  intro w
  simp only [Action.focus, Outcome.moved, hget, hset]

/-- What an action is blind to, it does not change either. -/
theorem Blind.world_eq {x : Action ε ν σ α} {w : σ} (hx : Blind f x) (hw : f w = w) :
    f (x w).world = (x w).world := by
  have hmoved := hx w
  rw [hw] at hmoved
  exact (congrArg Outcome.world hmoved).symm

/-! ### What an action emits -/

/-- All events satisfy a condition, in whatever world the action runs. -/
def Emits (p : ν → Prop) (x : Action ε ν σ α) : Prop :=
  ∀ w, ∀ e ∈ (x w).events, p e

variable {p : ν → Prop}

/-- What follows is asked only for the values that the first action can give. -/
theorem Emits.bind {x : Action ε ν σ α} {k : α → Action ε ν σ β} (hx : Emits p x)
    (hk : ∀ a, (∃ w, (x w).result = .ok a) → Emits p (k a)) : Emits p (x >>= k) := by
  intro w e he
  cases hout : x w with
  | mk result events w' =>
    have hfirst : ∀ e ∈ events, p e := by
      have := hx w
      rwa [hout] at this
    cases result with
    | ok a =>
      rw [bind_of_ok hout] at he
      obtain he | he := List.mem_append.1 he
      · exact hfirst e he
      · exact hk a ⟨w, by rw [hout]⟩ w' e he
    | error err =>
      rw [bind_of_error hout] at he
      exact hfirst e he

/-- An action that emits nothing. -/
theorem Emits.of_nil {x : Action ε ν σ α} (h : ∀ w, (x w).events = []) : Emits p x := by
  intro w e he
  rw [h w] at he
  cases he

/-- An action that emits one event at most. -/
theorem Emits.of_singleton {x : Action ε ν σ α} {g : σ → ν}
    (h : ∀ w, (x w).events = [] ∨ (x w).events = [g w]) (hp : ∀ w, p (g w)) : Emits p x := by
  intro w e he
  obtain hnone | hone := h w
  · rw [hnone] at he
    cases he
  · rw [hone] at he
    rw [List.mem_singleton.1 he]
    exact hp w

theorem Emits.pure (a : α) : Emits p (pure a : Action ε ν σ α) := .of_nil fun _ => rfl

theorem Emits.fail (e : ε) : Emits p (fail e : Action ε ν σ α) := .of_nil fun _ => rfl

theorem Emits.read (f : σ → α) : Emits p (read f : Action ε ν σ α) := .of_nil fun _ => rfl

theorem Emits.update (f : σ → α × σ) : Emits p (update f : Action ε ν σ α) := .of_nil fun _ => rfl

theorem Emits.emit {event : ν} (h : p event) : Emits p (emit event : Action ε ν σ Unit) := by
  intro w e he
  rw [List.mem_singleton.1 he]
  exact h

theorem Emits.ofExcept (x : Except ε α) : Emits p (ofExcept x : Action ε ν σ α) :=
  .of_nil fun _ => by cases x <;> rfl

theorem Emits.mapError {x : Action ε ν σ α} (hx : Emits p x) (f : ε → δ) : Emits p (mapError f x) := hx

theorem Emits.focus {event : μ → ν} {x : Action ε μ τ α} (hx : Emits (fun e => p (event e)) x)
    (get : σ → τ) (set : τ → σ → σ) : Emits p (focus get set event x) := by
  intro w _ he
  obtain ⟨inner, hinner, rfl⟩ := List.mem_map.1 he
  exact hx (get w) inner hinner

end Action

end SaveAs
