import SaveAs.Anchor.Recorder

/-!
# One save in a recording document

A save makes an element ready, attaches it, clicks it and takes it out again, and the first operation
that fails ends it. So it can end in four ways, and in only one of them does something stay in the body.
-/

namespace SaveAs

/-- Nothing fails before an element is in the body. -/
def RecorderFaults.Attach (f : RecorderFaults) : Prop :=
  f.create = none ∧ f.href = none ∧ f.download = none ∧ f.hide = none ∧ f.append = none

instance (f : RecorderFaults) : Decidable f.Attach :=
  inferInstanceAs (Decidable (_ ∧ _))

namespace Recorder

variable (r : Recorder) (id : Nat) (value : String)

/-! ### The operations -/

theorem create_apply :
    document.create r = match r.faults.create with
      | some text => ⟨.error text, [], r⟩
      | none => ⟨.ok r.created, [.create r.created], { r with created := r.created + 1 }⟩ := rfl

theorem setHref_apply :
    document.setAttribute id "href" value r = match r.faults.href with
      | some text => ⟨.error text, [], r⟩
      | none => ⟨.ok (), [.attribute id "href" value], r⟩ := rfl

theorem setDownload_apply :
    document.setAttribute id "download" value r = match r.faults.download with
      | some text => ⟨.error text, [], r⟩
      | none => ⟨.ok (), [.attribute id "download" value], r⟩ := rfl

theorem hide_apply :
    document.hide id r = match r.faults.hide with
      | some text => ⟨.error text, [], r⟩
      | none => ⟨.ok (), [.hide id], r⟩ := rfl

theorem append_apply :
    document.append id r = match r.faults.append with
      | some text => ⟨.error text, [], r⟩
      | none => ⟨.ok (), [.append id (r.body ++ [id])], { r with body := r.body ++ [id] }⟩ := rfl

theorem click_apply :
    (Action.perform (document.click id) : Action String Event Recorder Unit) r =
      ⟨.ok (), [.click id r.body], r⟩ := rfl

theorem remove_apply :
    document.remove id r = match r.faults.remove with
      | some text => ⟨.error text, [], r⟩
      | none => ⟨.ok (), [.remove id (r.body.erase id)], { r with body := r.body.erase id }⟩ := rfl

/-! ### How a save ends -/

/-- What happens to an element before it is attached. -/
def ready (id : Nat) (d : Download) : List Event :=
  [.create id, .attribute id "href" d.href, .attribute id "download" d.filename, .hide id]

/-- What happens to an element up to its click; the body is the one before. -/
def upToClick (id : Nat) (body : List Nat) (d : Download) : List Event :=
  ready id d ++ [.append id (body ++ [id]), .click id (body ++ [id])]

inductive Saved (d : Download) : Outcome String Event Recorder Unit → Prop
  | uncreated {text : String} (hattach : ¬ r.faults.Attach) : Saved d ⟨.error text, [], r⟩
  | unattached {text : String} {events : List Event} (hattach : ¬ r.faults.Attach) (hne : events ≠ [])
      (hready : events <+: ready r.created d) :
      Saved d ⟨.error text, events, { r with created := r.created + 1 }⟩
  | stranded {text : String} (hattach : r.faults.Attach) (hremove : r.faults.remove = some text) :
      Saved d ⟨.error text, upToClick r.created r.body d,
        { r with created := r.created + 1, body := r.body ++ [r.created] }⟩
  | removed (hattach : r.faults.Attach) (hremove : r.faults.remove = none)
      (hbody : (r.body ++ [r.created]).erase r.created = r.body) :
      Saved d ⟨.ok (), upToClick r.created r.body d ++ [.remove r.created r.body],
        { r with created := r.created + 1 }⟩

variable {r} {d : Download}

/-- All elements of the body were made before. -/
def Bounded (r : Recorder) : Prop :=
  ∀ id ∈ r.body, id < r.created

theorem Bounded.erase_append (h : r.Bounded) : (r.body ++ [r.created]).erase r.created = r.body := by
  have hfresh : r.created ∉ r.body := fun hmem => Nat.lt_irrefl _ (h _ hmem)
  rw [List.erase_append_right _ hfresh, List.erase_cons_head, List.append_nil]

theorem saved_save (h : r.Bounded) (d : Download) : Saved r d (document.save d r) := by
  cases hcreate : r.faults.create with
  | some text =>
    rw [Document.save, Action.bind_of_error (by rw [create_apply, hcreate])]
    exact .uncreated (by simp [RecorderFaults.Attach, hcreate])
  | none =>
    rw [Document.save, Action.bind_of_ok (by rw [create_apply, hcreate])]
    cases hhref : r.faults.href with
    | some text =>
      rw [Action.bind_of_error (by rw [setHref_apply, hhref])]
      exact .unattached (by simp [RecorderFaults.Attach, hhref]) (by simp) ⟨_, rfl⟩
    | none =>
      rw [Action.bind_of_ok (by rw [setHref_apply, hhref])]
      cases hdownload : r.faults.download with
      | some text =>
        rw [Action.bind_of_error (by rw [setDownload_apply, hdownload])]
        exact .unattached (by simp [RecorderFaults.Attach, hdownload]) (by simp) ⟨_, rfl⟩
      | none =>
        rw [Action.bind_of_ok (by rw [setDownload_apply, hdownload])]
        cases hhide : r.faults.hide with
        | some text =>
          rw [Action.bind_of_error (by rw [hide_apply, hhide])]
          exact .unattached (by simp [RecorderFaults.Attach, hhide]) (by simp) ⟨_, rfl⟩
        | none =>
          rw [Action.bind_of_ok (by rw [hide_apply, hhide])]
          cases happend : r.faults.append with
          | some text =>
            rw [Action.bind_of_error (by rw [append_apply, happend])]
            exact .unattached (by simp [RecorderFaults.Attach, happend]) (by simp) ⟨[], rfl⟩
          | none =>
            rw [Action.bind_of_ok (by rw [append_apply, happend]),
              Action.bind_of_ok (click_apply _ _), remove_apply]
            have hattach : r.faults.Attach := ⟨hcreate, hhref, hdownload, hhide, happend⟩
            cases hremove : r.faults.remove with
            | some text => exact .stranded hattach hremove
            | none =>
              have hbody := h.erase_append
              simp only [hbody]
              exact .removed hattach hremove hbody

end Recorder

end SaveAs
