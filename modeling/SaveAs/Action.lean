/-!
# Actions

An action runs in a world, may fail, and leaves a trace: the events that happened on the way, in
order. Later code is written in `do` notation; its traces append, and what follows a failure does
not happen.
-/

namespace SaveAs

/-- What a run leaves behind: how it ended, what happened, and the world afterwards. -/
structure Outcome (ε ν σ α : Type) where
  result : Except ε α
  events : List ν
  world : σ

/-- An action that may fail with an `ε`, emits events `ν` and changes a world `σ`. -/
def Action (ε ν σ α : Type) : Type :=
  σ → Outcome ε ν σ α

namespace Action

variable {ε ν σ τ α β : Type}

def done (a : α) : Action ε ν σ α :=
  fun w => ⟨.ok a, [], w⟩

/-- The second action runs only where the first succeeds; the first one's events stay. -/
def andThen (x : Action ε ν σ α) (f : α → Action ε ν σ β) : Action ε ν σ β := fun w =>
  match x w with
  | ⟨.ok a, events, w'⟩ =>
    let later := f a w'
    ⟨later.result, events ++ later.events, later.world⟩
  | ⟨.error e, events, w'⟩ => ⟨.error e, events, w'⟩

instance : Monad (Action ε ν σ) where
  pure := done
  bind := andThen

def fail (e : ε) : Action ε ν σ α :=
  fun w => ⟨.error e, [], w⟩

def emit (event : ν) : Action ε ν σ Unit :=
  fun w => ⟨.ok (), [event], w⟩

def read (f : σ → α) : Action ε ν σ α :=
  fun w => ⟨.ok (f w), [], w⟩

def modify (f : σ → σ) : Action ε ν σ Unit :=
  fun w => ⟨.ok (), [], f w⟩

/-- Changes the world and answers with a value taken on the way. -/
def update (f : σ → α × σ) : Action ε ν σ α :=
  fun w => let (a, w') := f w; ⟨.ok a, [], w'⟩

def perform (f : σ → List ν × σ) : Action ε ν σ Unit :=
  fun w => let (events, w') := f w; ⟨.ok (), events, w'⟩

def ofExcept : Except ε α → Action ε ν σ α
  | .ok a => done a
  | .error e => fail e

/-- Runs an action of a part of the world, its events being events of the whole. -/
def focus {μ : Type} (get : σ → τ) (set : τ → σ → σ) (event : μ → ν) (x : Action ε μ τ α) :
    Action ε ν σ α := fun w =>
  let o := x (get w)
  ⟨o.result, o.events.map event, set o.world w⟩

/-- Renames the failures of an action. -/
def mapError {δ : Type} (f : ε → δ) (x : Action ε ν σ α) : Action δ ν σ α := fun w =>
  let o := x w
  ⟨o.result.mapError f, o.events, o.world⟩

/-! ### What each combinator leaves behind -/

@[simp] theorem pure_apply (a : α) (w : σ) :
    (pure a : Action ε ν σ α) w = ⟨.ok a, [], w⟩ := rfl

@[simp] theorem fail_apply (e : ε) (w : σ) :
    (fail e : Action ε ν σ α) w = ⟨.error e, [], w⟩ := rfl

@[simp] theorem emit_apply (event : ν) (w : σ) :
    (emit event : Action ε ν σ Unit) w = ⟨.ok (), [event], w⟩ := rfl

@[simp] theorem read_apply (f : σ → α) (w : σ) :
    (read f : Action ε ν σ α) w = ⟨.ok (f w), [], w⟩ := rfl

@[simp] theorem update_apply (f : σ → α × σ) (w : σ) :
    (update f : Action ε ν σ α) w = ⟨.ok (f w).1, [], (f w).2⟩ := rfl

@[simp] theorem perform_apply (f : σ → List ν × σ) (w : σ) :
    (perform f : Action ε ν σ Unit) w = ⟨.ok (), (f w).1, (f w).2⟩ := rfl

@[simp] theorem modify_apply (f : σ → σ) (w : σ) :
    (modify f : Action ε ν σ Unit) w = ⟨.ok (), [], f w⟩ := rfl

theorem bind_of_ok {x : Action ε ν σ α} {w w' : σ} {a : α} {events : List ν}
    (h : x w = ⟨.ok a, events, w'⟩) (f : α → Action ε ν σ β) :
    (x >>= f) w = ⟨(f a w').result, events ++ (f a w').events, (f a w').world⟩ := by
  show andThen x f w = _
  simp only [andThen, h]

theorem bind_of_error {x : Action ε ν σ α} {w w' : σ} {e : ε} {events : List ν}
    (h : x w = ⟨.error e, events, w'⟩) (f : α → Action ε ν σ β) :
    (x >>= f) w = ⟨.error e, events, w'⟩ := by
  show andThen x f w = _
  simp only [andThen, h]

end Action

end SaveAs
