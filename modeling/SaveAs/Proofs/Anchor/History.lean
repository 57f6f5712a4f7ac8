import SaveAs.Proofs.Anchor.Recording
import Mathlib.Data.List.Basic

/-!
# Saves in one recording document

Saves follow one another in a document, and in each of them other operations may fail. The events of all
saves tell what is in the body: the elements that were attached and not taken out, in the order in which
they were made. No two saves touch the same element.
-/

namespace SaveAs.Recorder

/-- A save, with the operations that fail in it. -/
structure Attempt where
  faults : RecorderFaults
  download : Download

def serve (r : Recorder) (a : Attempt) : Outcome String Event Recorder Unit :=
  document.save a.download { r with faults := a.faults }

/-- What each of some saves in a row does. -/
def history (r : Recorder) : List Attempt → List (Outcome String Event Recorder Unit)
  | [] => []
  | a :: rest => r.serve a :: history (r.serve a).world rest

def after (r : Recorder) (attempts : List Attempt) : Recorder :=
  attempts.foldl (fun r a => (r.serve a).world) r

/-- The faults that a document has meanwhile make no difference, since each save sets them anew. -/
theorem history_faults (r : Recorder) (faults : RecorderFaults) (attempts : List Attempt) :
    ({ r with faults := faults } : Recorder).history attempts = r.history attempts := by
  cases attempts <;> rfl

theorem after_faults (r : Recorder) (faults faults' : RecorderFaults) (attempts : List Attempt) :
    { ({ r with faults := faults } : Recorder).after attempts with faults := faults' } =
      { r.after attempts with faults := faults' } := by
  cases attempts <;> rfl

/-! ### What events tell -/

namespace Event

/-- The element that an event is about. -/
def id : Event → Nat
  | .create id | .attribute id _ _ | .hide id | .append id _ | .click id _ | .remove id _ => id

def created? : Event → Option Nat
  | create id => some id
  | _ => none

def appended? : Event → Option Nat
  | append id _ => some id
  | _ => none

def clicked? : Event → Option Nat
  | click id _ => some id
  | _ => none

def removed? : Event → Option Nat
  | remove id _ => some id
  | _ => none

end Event

/-- The elements that were attached and not taken out. -/
def leftIn (events : List Event) : List Nat :=
  (events.filterMap Event.appended?).filter fun id => id ∉ events.filterMap Event.removed?

/-! ### What the events of one save tell -/

variable {r : Recorder} {d : Download} {o : Outcome String Event Recorder Unit} {a : Attempt}
  {attempts : List Attempt}

@[simp] theorem created?_upToClick (id : Nat) (body : List Nat) (d : Download) :
    (upToClick id body d).filterMap Event.created? = [id] := rfl

@[simp] theorem appended?_upToClick (id : Nat) (body : List Nat) (d : Download) :
    (upToClick id body d).filterMap Event.appended? = [id] := rfl

@[simp] theorem clicked?_upToClick (id : Nat) (body : List Nat) (d : Download) :
    (upToClick id body d).filterMap Event.clicked? = [id] := rfl

@[simp] theorem removed?_upToClick (id : Nat) (body : List Nat) (d : Download) :
    (upToClick id body d).filterMap Event.removed? = [] := rfl

@[simp] theorem leftIn_upToClick (id : Nat) (body : List Nat) (d : Download) :
    leftIn (upToClick id body d) = [id] := by
  simp [leftIn]

@[simp] theorem leftIn_upToClick_remove (id : Nat) (body body' : List Nat) (d : Download) :
    leftIn (upToClick id body d ++ [.remove id body']) = [] := by
  simp [leftIn, Event.appended?, Event.removed?]

theorem filterMap_eq_nil_of_begins {f : Event → Option Nat} {events l : List Event}
    (h : events <+: l) (hf : ∀ e ∈ l, f e = none) : events.filterMap f = [] :=
  List.filterMap_eq_nil_iff.2 fun e he => hf e (h.subset he)

/-- An element that is made ready is made first, and nothing before its click makes another. -/
theorem filterMap_created?_of_prefix_ready {id : Nat} {events : List Event} (hne : events ≠ [])
    (h : events <+: ready id d) : events.filterMap Event.created? = [id] := by
  cases events with
  | nil => exact absurd rfl hne
  | cons e rest =>
    obtain ⟨rfl, hrest⟩ := List.cons_prefix_cons.1 h
    have hnone : rest.filterMap Event.created? = [] :=
      filterMap_eq_nil_of_begins hrest (by simp [Event.created?])
    rw [List.filterMap_cons, hnone]
    rfl

/-- What was only made ready is not in the body. -/
theorem leftIn_of_prefix_ready {id : Nat} {events : List Event} (h : events <+: ready id d) :
    leftIn events = [] := by
  have hnone : events.filterMap Event.appended? = [] :=
    filterMap_eq_nil_of_begins h (by simp [ready, Event.appended?])
  simp [leftIn, hnone]

namespace Saved

theorem bounded (hr : r.Bounded) (h : Saved r d o) : o.world.Bounded := by
  have hlater : ∀ id ∈ r.body, id < r.created + 1 := fun id hid => Nat.lt_succ_of_lt (hr id hid)
  cases h with
  | uncreated => exact hr
  | unattached => exact hlater
  | stranded =>
    intro id hid
    obtain hid | hid := List.mem_append.1 hid
    · exact hlater id hid
    · rw [List.mem_singleton.1 hid]
      exact Nat.lt_succ_self _
  | removed => exact hlater

theorem body_eq (h : Saved r d o) : o.world.body = r.body ++ leftIn o.events := by
  cases h with
  | uncreated => simp [leftIn]
  | unattached _ hne hready => simp [leftIn_of_prefix_ready hready]
  | stranded => simp
  | removed => simp

theorem range_created (h : Saved r d o) :
    List.range o.world.created = List.range r.created ++ o.events.filterMap Event.created? := by
  cases h with
  | uncreated => simp
  | unattached _ hne hready =>
    rw [filterMap_created?_of_prefix_ready hne hready]
    exact List.range_succ
  | stranded => simp [List.range_succ]
  | removed => simp [Event.created?, List.range_succ]

theorem id_eq (h : Saved r d o) : ∀ e ∈ o.events, e.id = r.created := by
  cases h with
  | uncreated => simp
  | unattached _ hne hready =>
    intro e he
    have hmem := hready.subset he
    simp only [ready, List.mem_cons, List.not_mem_nil, or_false] at hmem
    obtain rfl | rfl | rfl | rfl := hmem <;> rfl
  | stranded => simp [upToClick, ready, Event.id]
  | removed => simp [upToClick, ready, Event.id]

theorem created_lt (h : Saved r d o) : r.created ≤ o.world.created ∧
    (o.events ≠ [] → r.created < o.world.created) := by
  cases h with
  | uncreated => exact ⟨Nat.le_refl _, fun h => absurd rfl h⟩
  | _ => exact ⟨Nat.le_succ _, fun _ => Nat.lt_succ_self _⟩

/-- A click is on the element of its own save, once that is ready and in the body. -/
theorem click_eq {id : Nat} {body : List Nat} {earlier later : List Event} (h : Saved r d o)
    (hclick : o.events = earlier ++ .click id body :: later) :
    id = r.created ∧ body = r.body ++ [id] ∧ earlier = ready id d ++ [.append id body] := by
  have hsplit {more : List Event} (hmore : ∀ i b, Event.click i b ∉ more)
      (heq : upToClick r.created r.body d ++ more = earlier ++ .click id body :: later) :
      id = r.created ∧ body = r.body ++ [id] ∧ earlier = ready id d ++ [.append id body] := by
    have hends : upToClick r.created r.body d ++ more =
        (ready r.created d ++ [.append r.created (r.body ++ [r.created])]) ++
          .click r.created (r.body ++ [r.created]) :: more := by
      simp [upToClick]
    rw [hends, List.append_cons_inj_of_notMem (by simp [ready]) (hmore id body)] at heq
    obtain ⟨rfl, hevent, -⟩ := heq
    cases hevent
    exact ⟨rfl, rfl, rfl⟩
  cases h with
  | uncreated => simp at hclick
  | unattached _ hne hready =>
    have hmem : Event.click id body ∈ earlier ++ .click id body :: later := by simp
    rw [← hclick] at hmem
    simpa [ready] using hready.subset hmem
  | stranded => exact hsplit (fun _ _ => List.not_mem_nil) (by rw [List.append_nil]; exact hclick)
  | removed => exact hsplit (by simp) hclick

theorem clicked_sublist (h : Saved r d o) :
    (o.events.filterMap Event.clicked?).Sublist (o.events.filterMap Event.created?) := by
  cases h with
  | uncreated => simp
  | unattached _ hne hready =>
    rw [filterMap_eq_nil_of_begins (f := Event.clicked?) hready (by simp [ready, Event.clicked?])]
    exact List.nil_sublist _
  | stranded => simp
  | removed => simp [List.filterMap_cons, Event.clicked?, Event.created?]

theorem leftIn_sublist (h : Saved r d o) :
    (leftIn o.events).Sublist (o.events.filterMap Event.created?) := by
  cases h with
  | uncreated => simp [leftIn]
  | unattached _ hne hready => simp [leftIn_of_prefix_ready hready]
  | stranded => simp
  | removed => simp

end Saved

/-! ### Saves in a row -/

theorem Bounded.saved_serve (h : r.Bounded) (a : Attempt) :
    Saved { r with faults := a.faults } a.download (r.serve a) :=
  saved_save (r := { r with faults := a.faults }) h a.download

theorem Bounded.serve (h : r.Bounded) (a : Attempt) : (r.serve a).world.Bounded :=
  (h.saved_serve a).bounded (r := { r with faults := a.faults }) h

theorem bounded_empty : ({} : Recorder).Bounded := by
  intro id hid
  cases hid

theorem Bounded.after (h : r.Bounded) (attempts : List Attempt) : (r.after attempts).Bounded := by
  induction attempts generalizing r with
  | nil => exact h
  | cons a rest ih => exact ih (h.serve a)

theorem body_after (h : r.Bounded) (attempts : List Attempt) :
    (r.after attempts).body = r.body ++ (r.history attempts).flatMap fun o => leftIn o.events := by
  induction attempts generalizing r with
  | nil => simp [after, history]
  | cons a rest ih =>
    have hrest := ih (h.serve a)
    rw [(h.saved_serve a).body_eq, List.append_assoc] at hrest
    exact hrest

theorem range_created_after (h : r.Bounded) (attempts : List Attempt) :
    List.range (r.after attempts).created =
      List.range r.created ++
        (r.history attempts).flatMap fun o => o.events.filterMap Event.created? := by
  induction attempts generalizing r with
  | nil => simp [after, history]
  | cons a rest ih =>
    have hrest := ih (h.serve a)
    rw [(h.saved_serve a).range_created, List.append_assoc] at hrest
    exact hrest

/-- What each save leaves among the elements that it made, all saves leave among theirs. -/
theorem history_sublist {f : List Event → List Nat}
    (hf : ∀ {r d o}, Saved r d o → (f o.events).Sublist (o.events.filterMap Event.created?))
    (h : r.Bounded) (attempts : List Attempt) :
    ((r.history attempts).flatMap fun o => f o.events).Sublist
      ((r.history attempts).flatMap fun o => o.events.filterMap Event.created?) := by
  induction attempts generalizing r with
  | nil => exact List.Sublist.refl _
  | cons a rest ih => exact (hf (h.saved_serve a)).append (ih (h.serve a))

/-- Later saves have elements with greater numbers. -/
theorem created_le_id (h : r.Bounded) (attempts : List Attempt) :
    ∀ o ∈ r.history attempts, ∀ e ∈ o.events, r.created ≤ e.id := by
  induction attempts generalizing r with
  | nil => intro o ho; cases ho
  | cons a rest ih =>
    have hsaved := h.saved_serve a
    intro o ho e he
    obtain rfl | ho := List.mem_cons.1 ho
    · exact Nat.le_of_eq (hsaved.id_eq e he).symm
    · exact Nat.le_trans hsaved.created_lt.1 (ih (h.serve a) o ho e he)

theorem history_apart (h : r.Bounded) (attempts : List Attempt) :
    (r.history attempts).Pairwise fun o o' => ∀ e ∈ o.events, ∀ e' ∈ o'.events, e.id ≠ e'.id := by
  induction attempts generalizing r with
  | nil => exact List.Pairwise.nil
  | cons a rest ih =>
    have hsaved := h.saved_serve a
    refine List.Pairwise.cons (fun o ho e he e' he' => ?_) (ih (h.serve a))
    have hearlier := hsaved.id_eq e he
    have hlater := created_le_id (h.serve a) rest o ho e' he'
    have hmade := hsaved.created_lt.2 (List.ne_nil_of_mem he)
    rw [hearlier]
    exact Nat.ne_of_lt (Nat.lt_of_lt_of_le hmade hlater)

/-! ### What stays, from what fails -/

theorem Saved.result_eq_ok_iff (h : Saved r d o) :
    o.result = .ok () ↔ r.faults.Attach ∧ r.faults.remove = none := by
  cases h with
  | uncreated hattach => simp [hattach]
  | unattached hattach => simp [hattach]
  | stranded hattach hremove => simp [hremove]
  | removed hattach hremove => simp [hattach, hremove]

/-- Only a removal that fails leaves something: its own element. -/
theorem Saved.body_of_faults (h : Saved r d o) :
    o.world.body =
      if r.faults.Attach ∧ r.faults.remove ≠ none then r.body ++ [r.created] else r.body := by
  cases h with
  | uncreated hattach => simp [hattach]
  | unattached hattach => simp [hattach]
  | stranded hattach hremove => simp [hattach, hremove]
  | removed hattach hremove => simp [hremove]

theorem Saved.faults_eq (h : Saved r d o) : o.world.faults = r.faults := by
  cases h <;> rfl

/-! ### The balance of a row of saves -/

/-- What one save comes to. Its faults alone decide whether it succeeds and what stays in the body. -/
structure Balanced (r : Recorder) (a : Attempt) : Prop where
  own : ∀ e ∈ (r.serve a).events, e.id = r.created
  result : (r.serve a).result = .ok () ↔ a.faults.Attach ∧ a.faults.remove = none
  body : (r.serve a).world.body =
    if a.faults.Attach ∧ a.faults.remove ≠ none then r.body ++ [r.created] else r.body
  /-- A click is on an element that is in the body and was made ready before. -/
  click : ∀ {id body earlier later}, (r.serve a).events = earlier ++ .click id body :: later →
    id ∈ body ∧ .attribute id "href" a.download.href ∈ earlier ∧
      .attribute id "download" a.download.filename ∈ earlier ∧ .hide id ∈ earlier

/-- What a row of saves comes to in a document that was empty. -/
structure Tidy (attempts : List Attempt) : Prop where
  body_eq : (after {} attempts).body = (history {} attempts).flatMap fun o => leftIn o.events
  /-- Elements are numbered as they are made, without gaps. -/
  made : ((history {} attempts).flatMap fun o => o.events.filterMap Event.created?) =
    List.range (after {} attempts).created
  ordered : (after {} attempts).body.Sublist (List.range (after {} attempts).created)
  clicked : ((history {} attempts).flatMap fun o => o.events.filterMap Event.clicked?).Nodup
  apart : (history {} attempts).Pairwise fun o o' => ∀ e ∈ o.events, ∀ e' ∈ o'.events, e.id ≠ e'.id
  next : ∀ a, Balanced (after {} attempts) a

theorem Bounded.balanced (h : r.Bounded) (a : Attempt) : Balanced r a where
  own := (h.saved_serve a).id_eq
  result := (h.saved_serve a).result_eq_ok_iff
  body := (h.saved_serve a).body_of_faults
  click {id body earlier later} hevents := by
    obtain ⟨-, rfl, rfl⟩ := (h.saved_serve a).click_eq hevents
    simp [ready]

theorem tidy (attempts : List Attempt) : Tidy attempts := by
  have hmade : ((history {} attempts).flatMap fun o => o.events.filterMap Event.created?) =
      List.range (after {} attempts).created :=
    (range_created_after bounded_empty attempts).symm
  have hbody : (after {} attempts).body = (history {} attempts).flatMap fun o => leftIn o.events :=
    body_after bounded_empty attempts
  have hordered := history_sublist Saved.leftIn_sublist bounded_empty attempts
  have hclicked := history_sublist Saved.clicked_sublist bounded_empty attempts
  rw [hmade] at hordered hclicked
  exact
    { body_eq := hbody
      made := hmade
      ordered := hbody ▸ hordered
      clicked := hclicked.nodup List.nodup_range
      apart := history_apart bounded_empty attempts
      next := (bounded_empty.after attempts).balanced }

end SaveAs.Recorder
