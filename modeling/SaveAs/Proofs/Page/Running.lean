import SaveAs.Page.Imports
import SaveAs.Proofs.Delivery

/-!
# Deliveries of a page

The document of a page, its log and its words take no notice of the heap, the handles and the stored
options. What changes there only is unseen by a delivery, but for what its own resolver looks at. What a
save emits is about its anchor and about the click that it gets.
-/

namespace SaveAs.Page

/-- A change of a page that its document, its log and its words do not depend on. -/
structure Unseen (f : State → State) : Prop where
  settings : ∀ s, (f s).settings = s.settings
  elements : ∀ s, (f s).elements = s.elements
  children : ∀ s, (f s).children = s.children
  handler : ∀ s, (f s).handler = s.handler
  logging : ∀ s, (f s).logging = s.logging
  ambient : ∀ s, (f s).ambient = s.ambient
  setSettings : ∀ s v, f { s with settings := v } = { f s with settings := v }
  setElements : ∀ s v, f { s with elements := v } = { f s with elements := v }
  setChildren : ∀ s v, f { s with children := v } = { f s with children := v }
  setHandler : ∀ s v, f { s with handler := v } = { f s with handler := v }
  setAmbient : ∀ s v, f { s with ambient := v } = { f s with ambient := v }

variable {f : State → State} {α : Type}

theorem Unseen.attempt (hf : Unseen f) (names : List String) (wrap : Literal → Failure) {x : Act α}
    (hx : x.Blind f) : (attempt names wrap x).Blind f := by
  intro s
  have hfaults : (f s).settings.faults = s.settings.faults := by rw [hf.settings]
  simp only [Page.attempt, hfaults]
  cases names.findSome? s.settings.faults.get? with
  | none => exact hx s
  | some thrown => rfl

theorem Unseen.document (hf : Unseen f) : document.Blind f := by
  intro s
  simp only [Page.document, hf.settings]
  cases s.settings.window <;> cases s.settings.document <;> rfl

theorem Unseen.log (hf : Unseen f) (line : Line) : (log line).Blind f := by
  intro s
  simp only [Page.log, hf.logging]
  rfl

theorem Unseen.drawName (hf : Unseen f) (o : Options) : (drawName o).Blind f := by
  intro s
  have hset := hf.setAmbient s (o.fileName s.ambient).2
  have hambient := hf.ambient s
  show Outcome.mk (.ok (o.fileName (f s).ambient).1) []
    ({ f s with ambient := (o.fileName (f s).ambient).2 } : State) = _
  rw [hambient]
  exact congrArg (Outcome.mk _ []) hset.symm

/-! ### The document -/

theorem Unseen.body (hf : Unseen f) : body.Blind f := by
  intro s
  simp only [Page.body, hf.settings]
  cases s.settings.body <;> rfl

theorem Unseen.createAnchor (hf : Unseen f) : createAnchor.Blind f := by
  refine (hf.attempt _ _ fun s => ?_).bind fun id =>
    (Action.Blind.read fun s => by rw [hf.settings]).bind fun html => ?_
  · have hset := hf.setElements s (s.elements + 1)
    have helements := hf.elements s
    show Outcome.mk (.ok ((f s).elements + 1)) [Event.createElement ((f s).elements + 1)]
      ({ f s with elements := (f s).elements + 1 } : State) = _
    rw [helements]
    exact congrArg (Outcome.mk _ _) hset.symm
  · cases html
    · exact Action.Blind.fail _
    · exact Action.Blind.pure _

theorem Unseen.append (hf : Unseen f) (id : Nat) : (append id).Blind f := by
  refine hf.body.bind fun _ => hf.attempt _ _ fun s => ?_
  have hset := hf.setChildren s (s.children ++ [id])
  have hchildren := hf.children s
  show Outcome.mk (.ok ()) [Event.appendChild id ((f s).children ++ [id])]
    ({ f s with children := (f s).children ++ [id] } : State) = _
  rw [hchildren]
  exact congrArg (Outcome.mk _ _) hset.symm

theorem Unseen.remove (hf : Unseen f) (id : Nat) : (remove id).Blind f := by
  refine hf.body.bind fun _ => hf.attempt _ _ fun s => ?_
  have hchildren := hf.children s
  simp only [hchildren]
  split
  · exact congrArg (Outcome.mk _ _) (hf.setChildren s (s.children.erase id)).symm
  · rfl

theorem Unseen.runHandler (hf : Unseen f) (s : State) : runHandler (f s) = runHandler s := by
  rw [Page.runHandler, hf.handler]
  rfl

theorem Unseen.click_snd (hf : Unseen f) (id : Nat) (s : State) :
    (click id (f s)).2 = f (click id s).2 := by
  have honClick : (f s).settings.onClick = s.settings.onClick := by rw [hf.settings]
  cases h : s.settings.onClick with
  | nothing => simp only [Page.click, honClick, h]
  | detach =>
    simp only [Page.click, honClick, h]
    rw [hf.setChildren s (s.children.erase id), hf.children]
  | removeBody =>
    simp only [Page.click, honClick, h]
    rw [hf.setSettings s { s.settings with body := false, onClick := .removeBody }, hf.settings]

theorem Unseen.click (hf : Unseen f) (id : Nat) :
    (Action.perform (click id) : Act Unit).Blind f := by
  intro s
  have hevents : (Page.click id (f s)).1 = (Page.click id s).1 := by
    simp only [Page.click, hf.children, hf.runHandler]
  rw [Action.perform_apply, Action.perform_apply, hevents, hf.click_snd]
  rfl

theorem Unseen.save (hf : Unseen f) (d : Download) : (anchors.save d).Blind f :=
  Document.save_blind hf.createAnchor
    (fun id name value => hf.attempt _ _ (Action.Blind.emit (.setAttribute id name value)))
    (fun id => hf.attempt _ _ (Action.Blind.emit (.setProperty id "display" "none")))
    hf.append hf.click hf.remove d

theorem Unseen.installHook (hf : Unseen f) (hook : ClickHook) : (installHook hook).Blind f :=
  hf.document.bind fun _ => (Action.Blind.emit _).bind fun _ =>
    Action.Blind.modify fun s => (hf.setHandler s (some hook)).symm

/-! ### What a delivery emits -/

/-- The events of a save. -/
inductive Event.OfSave (d : Download) : Event → Prop
  | create (id : Nat) : OfSave d (.createElement id)
  | href (id : Nat) : OfSave d (.setAttribute id "href" d.href)
  | name (id : Nat) : OfSave d (.setAttribute id "download" d.filename)
  | hide (id : Nat) : OfSave d (.setProperty id "display" "none")
  | append (id : Nat) (children : List Nat) : OfSave d (.appendChild id children)
  | click (id : Nat) : OfSave d (.click id)
  | handled : OfSave d .handled
  | hook (name : String) : OfSave d (.hook name)
  | remove (id : Nat) (children : List Nat) : OfSave d (.removeChild id children)

variable {p : Event → Prop} {d : Download}

theorem attempt_emits (names : List String) (wrap : Literal → Failure) {x : Act α} (hx : x.Emits p) :
    (attempt names wrap x).Emits p := by
  intro s e he
  rw [attempt] at he
  split at he
  · cases he
  · exact hx s e he

theorem log_emits {line : Line} (h : p (.console line)) : (log line).Emits p := by
  intro s e he
  rw [log] at he
  split at he
  · rw [List.mem_singleton.1 he]
    exact h
  · cases he

theorem body_emits : body.Emits p := by
  refine .of_nil fun s => ?_
  rw [body]
  split <;> rfl

theorem runHandler_ofSave (s : State) : ∀ e ∈ runHandler s, e.OfSave d := by
  intro e he
  rw [runHandler] at he
  split at he
  · cases he
  · obtain rfl | he := List.mem_cons.1 he
    · exact .handled
    · obtain ⟨name, -, rfl⟩ := List.mem_map.1 he
      exact .hook name

theorem save_emits_ofSave (d : Download) : (anchors.save d).Emits (Event.OfSave d) := by
  refine Document.save_emits ?_ (fun id => ?_) (fun id => ?_) (fun id => ?_) (fun id => ?_)
    (fun id => ?_) (fun id => ?_)
  · refine (attempt_emits _ _ (.of_singleton (fun s => .inr rfl) fun s => .create _)).bind
      fun id _ => (Action.Emits.read _).bind fun html _ => ?_
    cases html
    · exact .fail _
    · exact .pure id
  · exact attempt_emits _ _ (.emit (.href id))
  · exact attempt_emits _ _ (.emit (.name id))
  · exact attempt_emits _ _ (.emit (.hide id))
  · exact body_emits.bind fun _ _ =>
      attempt_emits _ _ (.of_singleton (fun s => .inr rfl) fun s => .append id _)
  · intro s e he
    obtain rfl | he := List.mem_cons.1 he
    · exact .click id
    · split at he
      · exact runHandler_ofSave s e he
      · cases he
  · refine body_emits.bind fun _ _ => attempt_emits _ _ (Action.Emits.of_singleton
      (g := fun s => .removeChild id (s.children.erase id)) (fun s => ?_) fun s => .remove id _)
    split
    · exact .inr rfl
    · exact .inl rfl

end SaveAs.Page
