import SaveAs.Proofs.Page.Naming

/-!
# The stages of a delivery on a page

A delivery consumes a handle, takes what it refers to for text, and saves it through an anchor. Whether one
of these stages fails is known before: it depends on what the page offers and throws and on what the handle
refers to, and on nothing that an earlier stage does. So the first stage that fails is where the delivery
ends, with the failure of that stage.
-/

namespace SaveAs.Page

inductive Stage
  | consume
  | text
  | create
  | href
  | download
  | hide
  | append
  | remove
  deriving DecidableEq, Repr

/-- What an operation throws, which may be set under several names. -/
def Settings.fault? (settings : Settings) (names : List String) : Option Literal :=
  names.findSome? settings.faults.get?

/-- How a stage fails that is reached, for what the handle refers to. A click that takes the anchor out of
the body, or the body away, is in the way of the removal. -/
def Stage.failure? (settings : Settings) (held : Value) : Stage → Option Failure
  | consume =>
    if settings.consumesHandles then (settings.fault? ["consume_js_object"]).map .handleNotConsumed
    else some (.handleNotConsumed (.exception "ReferenceError" "consume_js_object is not defined"))
  | text =>
    match held with
    | .string _ => none
    | _ => some .payloadNotText
  | create =>
    match settings.fault? ["createElement"] with
    | some thrown => some (.anchorNotCreated thrown)
    | none => if settings.htmlElements then none else some .anchorNotHtml
  | href => (settings.fault? ["setAttribute", "setAttribute:href"]).map (.attributeNotSet "href")
  | download =>
    (settings.fault? ["setAttribute", "setAttribute:download"]).map (.attributeNotSet "download")
  | hide => (settings.fault? ["setProperty", "setProperty:display"]).map .anchorNotHidden
  | append =>
    if settings.body then (settings.fault? ["appendChild"]).map .anchorNotAppended else some .noBody
  | remove =>
    if settings.body = false ∨ settings.onClick = .removeBody then some .noBody
    else
      match settings.fault? ["removeChild"] with
      | some thrown => some (.anchorNotRemoved thrown)
      | none =>
        if settings.onClick = .detach then
          some (.anchorNotRemoved (.exception "NotFoundError" "not a child of this node"))
        else none

/-- The stages of saving, which are the last ones. -/
def Stage.saving : List Stage := [create, href, download, hide, append, remove]

def Stage.all : List Stage := consume :: text :: saving

/-- The first stage that fails, with its failure. -/
def firstFailure? (settings : Settings) (held : Value) (stages : List Stage) : Option (Stage × Failure) :=
  stages.findSome? fun x => (x.failure? settings held).map (x, ·)

/-- How a delivery ends, of which some stage is the first to fail. -/
def endOf : Option (Stage × Failure) → Except Failure Unit
  | some (_, f) => .error f
  | none => .ok ()

variable {settings : Settings} {held : Value} {x : Stage} {stages : List Stage} {f : Failure}

theorem firstFailure?_of_some (h : x.failure? settings held = some f) (stages : List Stage) :
    firstFailure? settings held (x :: stages) = some (x, f) := by
  simp [firstFailure?, h]

theorem firstFailure?_of_none (h : x.failure? settings held = none) (stages : List Stage) :
    firstFailure? settings held (x :: stages) = firstFailure? settings held stages := by
  simp [firstFailure?, h]

theorem failure?_of_firstFailure? (h : firstFailure? settings held stages = some (x, f)) :
    x ∈ stages ∧ x.failure? settings held = some f := by
  obtain ⟨y, hy, hfailure⟩ := List.exists_of_findSome?_eq_some h
  obtain ⟨f', hf', hpair⟩ := Option.map_eq_some_iff.1 hfailure
  cases hpair
  exact ⟨hy, hf'⟩

/-! ### Saving -/

/-- The elements of the body were all made before. -/
def State.Bounded (s : State) : Prop :=
  ∀ id ∈ s.children, id ≤ s.elements

def State.created (s : State) : State := { s with elements := s.elements + 1 }

/-- A new element in the body. -/
def State.appended (s : State) : State :=
  { s.created with children := s.children ++ [s.elements + 1] }

/-- A new element in the body, after its click. -/
def State.clicked (s : State) : State := (click (s.elements + 1) s.appended).2

variable {s : State} {α : Type}

/-- What a save leaves, of which some stage is the first to fail. -/
def Leaves (s : State) : Option (Stage × Failure) → State → Prop
  | some (.remove, _), w => w = s.clicked
  | _, w => w = s ∨ w = s.created

theorem Leaves.cases {first : Option (Stage × Failure)} {w : State} (h : Leaves s first w) :
    w = s ∨ w = s.created ∨ w = s.clicked := by
  cases first with
  | none => exact h.imp_right .inl
  | some failing =>
    obtain ⟨x, f⟩ := failing
    cases x with
    | remove => exact .inr (.inr h)
    | _ => exact h.imp_right .inl

/-- A save goes through stages, up to the first that fails. -/
structure Saves (s : State) (held : Value) (stages : List Stage) (out : Outcome Failure Event State Unit) :
    Prop where
  result : out.result = endOf (firstFailure? s.settings held stages)
  leaves : Leaves s (firstFailure? s.settings held stages) out.world

theorem Saves.of_failed {e : List Event} {w : State} (hremove : x ≠ .remove)
    (h : x.failure? s.settings held = some f) (hw : w = s ∨ w = s.created) :
    Saves s held (x :: stages) ⟨.error f, e, w⟩ := by
  refine ⟨?_, ?_⟩ <;> rw [firstFailure?_of_some h]
  · rfl
  · cases x with
    | remove => exact absurd rfl hremove
    | _ => exact hw

theorem Saves.of_passed {out : Outcome Failure Event State Unit} (h : x.failure? s.settings held = none)
    {e : List Event} (hrest : Saves s held stages out) :
    Saves s held (x :: stages) ⟨out.result, e ++ out.events, out.world⟩ := by
  refine ⟨?_, ?_⟩ <;> rw [firstFailure?_of_none h]
  · exact hrest.result
  · exact hrest.leaves

theorem attempt_of_some {names : List String} {thrown : Literal} (wrap : Literal → Failure) (y : Act α)
    (h : s.settings.fault? names = some thrown) :
    attempt names wrap y s = ⟨.error (wrap thrown), [], s⟩ := by
  rw [Settings.fault?] at h
  rw [attempt, h]

theorem attempt_of_none {names : List String} (wrap : Literal → Failure) (y : Act α)
    (h : s.settings.fault? names = none) : attempt names wrap y s = y s := by
  rw [Settings.fault?] at h
  rw [attempt, h]

/-- The anchor is there, and an operation on it only emits an event. -/
theorem Saves.attempt {names : List String} {wrap : Literal → Failure} {e : Event} {k : Unit → Act Unit}
    (hfailure : x.failure? s.settings held = (s.settings.fault? names).map wrap) (hremove : x ≠ .remove)
    (hk : Saves s held stages (k () s.created)) :
    Saves s held (x :: stages) ((attempt names wrap (.emit e) >>= k) s.created) := by
  cases hfault : s.settings.fault? names with
  | some thrown =>
    have hfailed := attempt_of_some (s := s.created) wrap (.emit e) hfault
    rw [Action.bind_of_error hfailed]
    exact .of_failed hremove (by rw [hfailure, hfault]; rfl) (.inr rfl)
  | none =>
    have hpassed : Page.attempt names wrap (.emit e) s.created = ⟨.ok (), [e], s.created⟩ :=
      attempt_of_none (s := s.created) wrap (.emit e) hfault
    rw [Action.bind_of_ok hpassed]
    exact hk.of_passed (by rw [hfailure, hfault]; rfl)

theorem createAnchor_of_none (h : s.settings.fault? ["createElement"] = none) :
    createAnchor s =
      ⟨if s.settings.htmlElements then .ok (s.elements + 1) else .error .anchorNotHtml,
        [.createElement (s.elements + 1)], s.created⟩ := by
  have hmade : Page.attempt ["createElement"] .anchorNotCreated (fun s =>
      ⟨.ok (s.elements + 1), [.createElement (s.elements + 1)], s.created⟩) s =
      ⟨.ok (s.elements + 1), [.createElement (s.elements + 1)], s.created⟩ := attempt_of_none _ _ h
  refine (Action.bind_of_ok hmade _).trans ?_
  rw [Action.bind_of_ok (Action.read_apply _ _)]
  have hhtml : s.created.settings.htmlElements = s.settings.htmlElements := rfl
  rw [hhtml]
  cases s.settings.htmlElements <;> rfl

theorem Saves.create {k : Nat → Act Unit} (hk : Saves s held stages (k (s.elements + 1) s.created)) :
    Saves s held (.create :: stages) ((createAnchor >>= k) s) := by
  cases hfault : s.settings.fault? ["createElement"] with
  | some thrown =>
    have hcreate : createAnchor s = ⟨.error (.anchorNotCreated thrown), [], s⟩ :=
      Action.bind_of_error (attempt_of_some _ _ hfault) _
    rw [Action.bind_of_error hcreate]
    exact .of_failed (by simp) (by simp [Stage.failure?, hfault]) (.inl rfl)
  | none =>
    have hcreate := createAnchor_of_none hfault
    cases hhtml : s.settings.htmlElements with
    | true =>
      rw [hhtml] at hcreate
      rw [Action.bind_of_ok hcreate]
      exact hk.of_passed (by simp [Stage.failure?, hfault, hhtml])
    | false =>
      rw [hhtml] at hcreate
      rw [Action.bind_of_error hcreate]
      exact .of_failed (by simp) (by simp [Stage.failure?, hfault, hhtml]) (.inr rfl)

theorem body_of_false (h : s.settings.body = false) (y : Act Unit) :
    (do body; y : Act Unit) s = ⟨.error .noBody, [], s⟩ := by
  have hbody : body s = ⟨.error .noBody, [], s⟩ := by simp [body, h]
  exact Action.bind_of_error hbody _

theorem body_of_true (h : s.settings.body = true) (y : Act Unit) : (do body; y : Act Unit) s = y s := by
  have hbody : body s = ⟨.ok (), [], s⟩ := by simp [body, h]
  exact Action.bind_of_ok hbody _

theorem Saves.append {k : Unit → Act Unit} (hk : Saves s held stages (k () s.appended)) :
    Saves s held (.append :: stages) ((append (s.elements + 1) >>= k) s.created) := by
  cases hbody : s.settings.body with
  | false =>
    have happend : Page.append (s.elements + 1) s.created = ⟨.error .noBody, [], s.created⟩ :=
      body_of_false (s := s.created) hbody _
    rw [Action.bind_of_error happend]
    exact .of_failed (by simp) (by simp [Stage.failure?, hbody]) (.inr rfl)
  | true =>
    cases hfault : s.settings.fault? ["appendChild"] with
    | some thrown =>
      have happend : Page.append (s.elements + 1) s.created =
          ⟨.error (.anchorNotAppended thrown), [], s.created⟩ :=
        (body_of_true (s := s.created) hbody _).trans (attempt_of_some (s := s.created) _ _ hfault)
      rw [Action.bind_of_error happend]
      exact .of_failed (by simp) (by simp [Stage.failure?, hbody, hfault]) (.inr rfl)
    | none =>
      have happend : Page.append (s.elements + 1) s.created =
          ⟨.ok (), [.appendChild (s.elements + 1) s.appended.children], s.appended⟩ :=
        (body_of_true (s := s.created) hbody _).trans (attempt_of_none (s := s.created) _ _ hfault)
      rw [Action.bind_of_ok happend]
      exact hk.of_passed (by simp [Stage.failure?, hbody, hfault])

/-! ### The click and the removal -/

theorem State.Bounded.not_mem (h : s.Bounded) : s.elements + 1 ∉ s.children :=
  fun hmem => Nat.not_succ_le_self _ (h _ hmem)

theorem State.Bounded.erase_append (h : s.Bounded) :
    (s.children ++ [s.elements + 1]).erase (s.elements + 1) = s.children := by
  rw [List.erase_append_right _ h.not_mem, List.erase_cons_head, List.append_nil]

/-- A new element that is taken out of the body has only been made. -/
theorem State.Bounded.taken_out (h : s.Bounded) :
    ({ s.appended with children := s.appended.children.erase (s.elements + 1) } : State) = s.created := by
  rw [show s.appended.children = s.children ++ [s.elements + 1] from rfl, h.erase_append]
  rfl

theorem clicked_eq (s : State) :
    s.clicked = match s.settings.onClick with
      | .nothing => s.appended
      | .detach => { s.appended with children := s.appended.children.erase (s.elements + 1) }
      | .removeBody => { s.appended with settings := { s.settings with body := false } } := rfl

theorem clicked_of_nothing (hclick : s.settings.onClick = .nothing) : s.clicked = s.appended := by
  rw [clicked_eq, hclick]

theorem clicked_of_detach (h : s.Bounded) (hclick : s.settings.onClick = .detach) :
    s.clicked = s.created := by
  rw [clicked_eq, hclick]
  exact h.taken_out

theorem body_clicked (hclick : s.settings.onClick = .removeBody) : s.clicked.settings.body = false := by
  rw [clicked_eq, hclick]

theorem settings_clicked (hclick : s.settings.onClick ≠ .removeBody) :
    s.clicked.settings = s.settings := by
  rw [clicked_eq]
  cases heffect : s.settings.onClick with
  | removeBody => exact absurd heffect hclick
  | _ => rfl

theorem State.Bounded.created (h : s.Bounded) : s.created.Bounded :=
  fun id hid => Nat.le_succ_of_le (h id hid)

theorem State.Bounded.clicked (h : s.Bounded) : s.clicked.Bounded := by
  have happended : s.appended.Bounded := by
    intro id hid
    obtain hid | hid := List.mem_append.1 hid
    · exact h.created id hid
    · exact Nat.le_of_eq (List.mem_singleton.1 hid)
  rw [clicked_eq]
  cases s.settings.onClick with
  | detach => exact fun id hid => happended id (List.mem_of_mem_erase hid)
  | _ => exact happended

theorem remove_of_false (h : s.settings.body = false) (id : Nat) :
    remove id s = ⟨.error .noBody, [], s⟩ :=
  body_of_false h _

theorem remove_of_some {thrown : Literal} (hbody : s.settings.body = true)
    (hfault : s.settings.fault? ["removeChild"] = some thrown) (id : Nat) :
    remove id s = ⟨.error (.anchorNotRemoved thrown), [], s⟩ :=
  (body_of_true hbody _).trans (attempt_of_some _ _ hfault)

theorem remove_of_none (hbody : s.settings.body = true)
    (hfault : s.settings.fault? ["removeChild"] = none) (id : Nat) :
    remove id s =
      if id ∈ s.children then
        ⟨.ok (), [.removeChild id (s.children.erase id)], { s with children := s.children.erase id }⟩
      else ⟨.error (.anchorNotRemoved (.exception "NotFoundError" "not a child of this node")), [], s⟩ :=
  (body_of_true hbody _).trans (attempt_of_none _ _ hfault)

theorem Saves.of_stranded (h : Stage.remove.failure? s.settings held = some f) (e : List Event) :
    Saves s held [.remove] ⟨.error f, e, s.clicked⟩ := by
  constructor <;> rw [firstFailure?_of_some h] <;> rfl

theorem Saves.of_removed (h : Stage.remove.failure? s.settings held = none) (e : List Event) :
    Saves s held [.remove] ⟨.ok (), e, s.created⟩ := by
  constructor <;> rw [firstFailure?_of_none h]
  · rfl
  · exact .inr rfl

theorem Saves.remove (h : s.Bounded) : Saves s held [.remove] (remove (s.elements + 1) s.clicked) := by
  by_cases hremoved : s.settings.onClick = .removeBody
  · rw [remove_of_false (body_clicked hremoved)]
    exact .of_stranded (by simp [Stage.failure?, hremoved]) _
  have hsettings := settings_clicked hremoved
  cases hbody : s.settings.body with
  | false =>
    rw [remove_of_false (by rw [hsettings, hbody])]
    exact .of_stranded (by simp [Stage.failure?, hbody]) _
  | true =>
    cases hfault : s.settings.fault? ["removeChild"] with
    | some thrown =>
      rw [remove_of_some (by rw [hsettings, hbody]) (by rw [hsettings, hfault])]
      exact .of_stranded (by simp [Stage.failure?, hbody, hfault, hremoved]) _
    | none =>
      rw [remove_of_none (by rw [hsettings, hbody]) (by rw [hsettings, hfault])]
      cases hclick : s.settings.onClick with
      | nothing =>
        have hmem : s.elements + 1 ∈ s.appended.children := List.mem_append_right _ (List.mem_singleton.2 rfl)
        rw [clicked_of_nothing hclick, if_pos hmem, h.taken_out]
        exact .of_removed (by simp [Stage.failure?, hbody, hfault, hclick]) _
      | detach =>
        have hmem : s.elements + 1 ∉ s.clicked.children := by
          rw [clicked_of_detach h hclick]
          exact h.not_mem
        rw [if_neg hmem]
        exact .of_stranded (by simp [Stage.failure?, hbody, hfault, hclick]) _
      | removeBody => exact absurd hclick hremoved

theorem saves_save (h : s.Bounded) (held : Value) (d : Download) :
    Saves s held Stage.saving (anchors.save d s) := by
  refine .create ?_
  refine .attempt rfl (by simp) ?_
  refine .attempt rfl (by simp) ?_
  refine .attempt rfl (by simp) ?_
  refine .append ?_
  exact ⟨(Saves.remove h).result, (Saves.remove h).leaves⟩

end SaveAs.Page
