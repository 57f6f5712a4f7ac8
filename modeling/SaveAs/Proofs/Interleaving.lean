/-!
# Runs that differ in one kind of step

A system answers inputs one after the other. One part of its state is singled out: some inputs change
that part and nothing else, some take it, some only tell it. Two runs whose inputs are the same but for
changes of that part then look the same, as long as none of their inputs takes it.
-/

namespace SaveAs

/-- A system with one part of its state singled out. -/
structure Watched (σ ι ρ π : Type) where
  step : σ → ι → ρ × σ
  /-- The state with another value for the part. -/
  put : σ → π → σ
  /-- The value that stands for not looking at the part. -/
  blank : π
  /-- Whether an input is there to change the part. -/
  changes : ι → Bool
  /-- Whether an input asks for the part. -/
  tells : ι → Bool
  /-- Whether an input makes something of the part, in a state. -/
  takes : σ → ι → Bool

namespace Watched

variable {σ ι ρ π : Type} {m : Watched σ ι ρ π} {s : σ}

/-- What is seen of a run: the answers, each with the rest of the state after it. Changes of the part are
left out, and so are the answers that tell it. -/
def seen (m : Watched σ ι ρ π) (s : σ) : List ι → List (ρ × σ)
  | [] => []
  | x :: xs =>
    let later := m.seen (m.step s x).2 xs
    if m.changes x || m.tells x then later else ((m.step s x).1, m.put (m.step s x).2 m.blank) :: later

def Untaken (m : Watched σ ι ρ π) (s : σ) : List ι → Prop
  | [] => True
  | x :: xs => m.takes s x = false ∧ m.Untaken (m.step s x).2 xs

def others (m : Watched σ ι ρ π) (xs : List ι) : List ι :=
  xs.filter fun x => !m.changes x

/-- The part has no influence but through the inputs that take it. -/
structure Separate (m : Watched σ ι ρ π) : Prop where
  put_put : ∀ s v w, m.put (m.put s v) w = m.put s w
  put_self : ∀ s, ∃ v, m.put s v = s
  step_of_changes : ∀ s {x}, m.changes x = true → ∃ v, (m.step s x).2 = m.put s v
  step_of_tells : ∀ s {x}, m.tells x = true → (m.step s x).2 = s
  takes_of_changes : ∀ s {x}, m.changes x = true → m.takes s x = false
  takes_put : ∀ s v x, m.takes (m.put s v) x = m.takes s x
  step_put : ∀ s v {x}, m.changes x = false → m.tells x = false → m.takes s x = false →
    m.step (m.put s v) x = ((m.step s x).1, m.put (m.step s x).2 v)

theorem others_of_changes {x : ι} (h : m.changes x = true) (xs : List ι) :
    m.others (x :: xs) = m.others xs := by
  rw [others, List.filter_cons_of_neg (by simp [h])]
  rfl

theorem others_of_not_changes {x : ι} (h : m.changes x = false) (xs : List ι) :
    m.others (x :: xs) = x :: m.others xs := by
  rw [others, List.filter_cons_of_pos (by simp [h])]
  rfl

namespace Separate

variable (hm : m.Separate)

include hm

theorem world_put (s : σ) (v : π) {x : ι} (hchanges : m.changes x = false)
    (htakes : m.takes s x = false) : (m.step (m.put s v) x).2 = m.put (m.step s x).2 v := by
  cases htells : m.tells x with
  | true => rw [hm.step_of_tells _ htells, hm.step_of_tells _ htells]
  | false => rw [hm.step_put s v hchanges htells htakes]

/-- Whether a run takes the part does not depend on the changes in it. -/
theorem untaken_others_iff (xs : List ι) (s : σ) (v : π) :
    m.Untaken (m.put s v) (m.others xs) ↔ m.Untaken s xs := by
  induction xs generalizing s with
  | nil => exact Iff.rfl
  | cons x xs ih =>
    cases hchanges : m.changes x with
    | true =>
      obtain ⟨w, hstep⟩ := hm.step_of_changes s hchanges
      rw [others_of_changes hchanges, Untaken, hstep, ← ih (m.put s w), hm.put_put]
      exact ⟨fun hlater => ⟨hm.takes_of_changes s hchanges, hlater⟩, And.right⟩
    | false =>
      rw [others_of_not_changes hchanges, Untaken, Untaken, hm.takes_put]
      refine and_congr_right fun htakes => ?_
      rw [hm.world_put s v hchanges htakes]
      exact ih _

/-- Leaving all changes out of a run changes nothing that is seen of it. -/
theorem seen_others {xs : List ι} (v : π) (huntaken : m.Untaken s xs) :
    m.seen s xs = m.seen (m.put s v) (m.others xs) := by
  induction xs generalizing s with
  | nil => rfl
  | cons x xs ih =>
    obtain ⟨htakes, hlater⟩ := huntaken
    cases hchanges : m.changes x with
    | true =>
      obtain ⟨w, hstep⟩ := hm.step_of_changes s hchanges
      have hseen := ih hlater
      rw [hstep, hm.put_put] at hseen
      rw [others_of_changes hchanges, seen, hchanges, ← hseen, hstep]
      rfl
    | false =>
      have hworld := hm.world_put s v hchanges htakes
      have hseen := ih hlater
      rw [← hworld] at hseen
      rw [others_of_not_changes hchanges, seen, seen, hchanges]
      cases htells : m.tells x with
      | true => exact hseen
      | false =>
        have hanswer : (m.step (m.put s v) x).1 = (m.step s x).1 := by
          rw [hm.step_put s v hchanges htells htakes]
        rw [hseen, hanswer, hworld, hm.put_put]

/-- Two runs with the same inputs but for changes look the same. -/
theorem seen_eq {xs ys : List ι} (hothers : m.others xs = m.others ys) (huntaken : m.Untaken s xs) :
    m.seen s xs = m.seen s ys := by
  obtain ⟨v, hself⟩ := hm.put_self s
  have hys : m.Untaken s ys := by
    rw [← hm.untaken_others_iff ys s v, ← hothers, hm.untaken_others_iff xs s v]
    exact huntaken
  rw [hm.seen_others v huntaken, hothers, ← hm.seen_others v hys]

end Separate

end Watched

end SaveAs
