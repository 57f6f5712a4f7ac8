import SaveAs.Proofs.Session.Slots

/-!
# The history of a place

What a place has is told from the requests: the trigger that was put there last, as its runs since then
have left it. Requests about other places, and those that are refused, leave no trace in it.
-/

namespace SaveAs.Session

/-- A trigger as it was put into a place, and the handles that it was run on there. -/
structure Tenancy where
  trigger : Trigger
  handles : List String := []

namespace Tenancy

/-- The trigger as its runs have left it. -/
def now (p : Tenancy) : Trigger :=
  p.handles.foldl Trigger.used p.trigger

def run (p : Tenancy) (handle : String) : Tenancy :=
  { p with handles := p.handles ++ [handle] }

theorem now_run (p : Tenancy) (handle : String) : (p.run handle).now = p.now.used handle := by
  rw [now, run, List.foldl_append]
  rfl

/-- Runs take from the resolver only. -/
theorem now_eq (p : Tenancy) :
    ∃ resolver, p.now = ⟨resolver, p.trigger.saver, p.trigger.options⟩ := by
  obtain ⟨t, handles⟩ := p
  show ∃ resolver, handles.foldl Trigger.used t = ⟨resolver, t.saver, t.options⟩
  induction handles generalizing t with
  | nil => exact ⟨t.resolver, rfl⟩
  | cons handle rest ih => exact ih (t.used handle)

end Tenancy

/-- What a request makes of the history of a place. -/
def tenancyAfter (slot : Slot) (s : State) (r : Request) (p : Option Tenancy) : Option Tenancy :=
  match built? s r with
  | some (k, t) => if k = slot then some { trigger := t } else p
  | none =>
    match ran? r with
    | some (k, handle) => if k = slot then p.map (·.run handle) else p
    | none => p

def tenancy? (slot : Slot) (s : State) (p : Option Tenancy) : List Request → Option Tenancy
  | [] => p
  | r :: rest => tenancy? slot (step s r).2 (tenancyAfter slot s r p) rest

def State.tenant? (s : State) (slot : Slot) : Option Trigger :=
  (s.occupant? slot).map (·.2)

variable {s : State} {slot : Slot} {p : Option Tenancy}

theorem tenancy?_append (slot : Slot) (s : State) (p : Option Tenancy) (xs ys : List Request) :
    tenancy? slot s p (xs ++ ys) = tenancy? slot (run s xs).2 (tenancy? slot s p xs) ys := by
  induction xs generalizing s p with
  | nil => rfl
  | cons r rest ih => exact ih _ _

theorem tenant?_of_number (s : State) (slot : Slot) :
    s.tenant? slot = (s.number? slot).bind (s.triggers[·]?) := by
  rw [State.tenant?, State.occupant?]
  cases s.number? slot with
  | none => rfl
  | some i => cases h : s.triggers[i]? <;> simp [h]

/-- One request does to the trigger in a place what it does to the history of the place. -/
theorem tenant?_step (hs : s.WellPlaced) (r : Request) (h : s.tenant? slot = p.map Tenancy.now) :
    (step s r).2.tenant? slot = (tenancyAfter slot s r p).map Tenancy.now := by
  rw [tenant?_of_number] at h ⊢
  cases step_effect hs r with
  | placed k t hbuilt htriggers hnumbers =>
    simp only [tenancyAfter, hbuilt, hnumbers, htriggers, eq_comm (a := slot)]
    by_cases hk : k = slot
    · rw [if_pos hk, if_pos hk]
      simp [Tenancy.now]
    · rw [if_neg hk, if_neg hk, ← h]
      cases hnumber : s.number? slot with
      | none => rfl
      | some i => exact List.getElem?_append_left (hs.bound hnumber)
  | used k handle i t hbuilt hran hslot htriggers hnumbers =>
    obtain ⟨hnumber, ht⟩ := occupant?_eq_some_iff.1 hslot
    simp only [tenancyAfter, hbuilt, hran, hnumbers, htriggers]
    by_cases hk : k = slot
    · subst hk
      obtain ⟨hlt, -⟩ := List.getElem?_eq_some_iff.1 ht
      rw [hnumber, Option.bind_some, ht] at h
      obtain ⟨q, rfl, rfl⟩ := Option.map_eq_some_iff.1 h.symm
      rw [if_pos rfl, hnumber, Option.bind_some, List.getElem?_set_self hlt, Option.map_some,
        Option.map_some, q.now_run]
    · rw [if_neg hk, ← h]
      cases hother : s.number? slot with
      | none => rfl
      | some j =>
        have hne : i ≠ j := by
          rintro rfl
          exact hk (hs.apart hnumber hother)
        exact List.getElem?_set_ne hne
  | kept hbuilt hran htriggers hnumbers =>
    simp only [tenancyAfter, hbuilt, hnumbers, htriggers]
    cases hrequest : ran? r with
    | none => exact h
    | some entry =>
      obtain ⟨k, handle⟩ := entry
      dsimp only
      by_cases hk : k = slot
      · subst hk
        rw [← tenant?_of_number, State.tenant?, hran k handle hrequest] at h ⊢
        rw [Option.map_eq_none_iff.1 h.symm, if_pos rfl]
        rfl
      · rw [if_neg hk, h]

theorem tenant?_run (hs : s.WellPlaced) (requests : List Request)
    (h : s.tenant? slot = p.map Tenancy.now) :
    (run s requests).2.tenant? slot = (tenancy? slot s p requests).map Tenancy.now := by
  induction requests generalizing s p with
  | nil => exact h
  | cons r rest ih => exact ih (step_wellPlaced hs r) (tenant?_step hs r h)

/-! ### The moment of building -/

/-- None of the requests puts a trigger into the place. -/
def Unbuilt (slot : Slot) : State → List Request → Prop
  | _, [] => True
  | s, r :: rest => (∀ t, built? s r ≠ some (slot, t)) ∧ Unbuilt slot (step s r).2 rest

theorem tenancyAfter_trigger {r : Request} {q : Tenancy}
    (h : tenancyAfter slot s r p = some q) :
    built? s r = some (slot, q.trigger) ∨
      (∀ t, built? s r ≠ some (slot, t)) ∧ ∃ q₀, p = some q₀ ∧ q₀.trigger = q.trigger := by
  rw [tenancyAfter] at h
  split at h
  · rename_i k t hbuilt
    split at h
    · rename_i hk
      obtain rfl := Option.some.inj h
      exact .inl (by rw [hbuilt, hk])
    · rename_i hk
      exact .inr ⟨by simp [hbuilt, hk], q, h, rfl⟩
  · rename_i hbuilt
    refine .inr ⟨by simp [hbuilt], ?_⟩
    split at h
    · split at h
      · obtain ⟨q₀, rfl, rfl⟩ := Option.map_eq_some_iff.1 h
        exact ⟨q₀, rfl, rfl⟩
      · exact ⟨q, h, rfl⟩
    · exact ⟨q, h, rfl⟩

theorem tenancyAfter_of_none {r : Request} (h : tenancyAfter slot s r p = none) :
    (∀ t, built? s r ≠ some (slot, t)) ∧ p = none := by
  rw [tenancyAfter] at h
  split at h
  · rename_i k t hbuilt
    split at h
    · cases h
    · rename_i hk
      exact ⟨by simp [hbuilt, hk], h⟩
  · rename_i hbuilt
    refine ⟨by simp [hbuilt], ?_⟩
    split at h
    · split at h
      · exact Option.map_eq_none_iff.1 h
      · exact h
    · exact h

/-- A place is vacant after a run only if no request of the run put a trigger into it. -/
theorem unbuilt_of_none {requests : List Request} (h : tenancy? slot s p requests = none) :
    Unbuilt slot s requests ∧ p = none := by
  induction requests generalizing s p with
  | nil => exact ⟨trivial, h⟩
  | cons r rest ih =>
    obtain ⟨hunbuilt, hafter⟩ := ih h
    obtain ⟨hnot, hp⟩ := tenancyAfter_of_none hafter
    exact ⟨⟨hnot, hunbuilt⟩, hp⟩

/-- A place that has a trigger after a run had it before, or one request of the run put it there and none
after that put another. -/
theorem exists_built_or_unbuilt {requests : List Request} {q : Tenancy}
    (h : tenancy? slot s p requests = some q) :
    (∃ before r after, requests = before ++ r :: after ∧
      built? (run s before).2 r = some (slot, q.trigger) ∧
      Unbuilt slot (run s (before ++ [r])).2 after) ∨
    (∃ q₀, p = some q₀ ∧ q₀.trigger = q.trigger) ∧ Unbuilt slot s requests := by
  induction requests generalizing s p with
  | nil => exact .inr ⟨⟨q, h, rfl⟩, trivial⟩
  | cons r rest ih =>
    obtain ⟨before, x, after, hrest, hbuilt, hunbuilt⟩ | ⟨⟨q₀, hp, htrigger⟩, hunbuilt⟩ := ih h
    · exact .inl ⟨r :: before, x, after, by rw [hrest]; rfl, hbuilt, hunbuilt⟩
    · obtain hbuilt | ⟨hnot, q₁, hq₁, htrigger'⟩ := tenancyAfter_trigger hp
      · rw [htrigger] at hbuilt
        exact .inl ⟨[], r, rest, rfl, hbuilt, hunbuilt⟩
      · exact .inr ⟨⟨q₁, hq₁, htrigger'.trans htrigger⟩, hnot, hunbuilt⟩

end SaveAs.Session
