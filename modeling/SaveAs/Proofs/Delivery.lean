import SaveAs.Delivery
import SaveAs.Proofs.Action

/-!
# Deliveries, run

What a delivery leaves behind, from what its resolver and its saver do. The two ways in which it can go
are one equation each: a payload that does not resolve ends it before a name is drawn, and one that does
is handed to the saver, whose result is the delivery's. Both hold where logging and naming cannot fail,
as in a session and on a page.

Neither a delivery nor a save through an anchor looks at what its parts do not look at, and what they emit
is what it emits.
-/

namespace SaveAs

namespace Delivery

variable {ε ν σ : Type} {d : Delivery ε ν σ} {mimeType : String} {w w₁ : σ} {events : List ν}
  {log : Checkpoint → σ → List ν} {name : σ → String} {draw : σ → σ}

theorem run_of_unresolved {e : ε} (hlog : ∀ c w, d.checkpoint c w = ⟨.ok (), log c w, w⟩)
    (h : d.resolve w = ⟨.error e, events, w₁⟩) :
    d.run mimeType w = ⟨.error e, log .requested w ++ events, w₁⟩ := by
  rw [run, Action.bind_of_ok (hlog .requested w), Action.bind_of_error h]

/-- What is logged behind a save: the last checkpoint, if it succeeded. -/
def closing (log : Checkpoint → σ → List ν) (name : String) (saved : Outcome ε ν σ Unit) : List ν :=
  match saved.result with
  | .ok () => log (.triggered name) saved.world
  | .error _ => []

theorem run_of_resolved {payload : String} {saved : Outcome ε ν σ Unit}
    (hlog : ∀ c w, d.checkpoint c w = ⟨.ok (), log c w, w⟩)
    (hname : ∀ w, d.drawName w = ⟨.ok (name w), [], draw w⟩)
    (h : d.resolve w = ⟨.ok payload, events, w₁⟩)
    (hsave : d.save ⟨payload, mimeType, name w₁⟩ (draw w₁) = saved) :
    d.run mimeType w =
      ⟨saved.result,
        log .requested w ++ (events ++ (log (.resolved (name w₁) payload.utf8ByteSize) (draw w₁) ++
          (saved.events ++ closing log (name w₁) saved))),
        saved.world⟩ := by
  rw [run, Action.bind_of_ok (hlog .requested w), Action.bind_of_ok h, Action.bind_of_ok (hname w₁),
    Action.bind_of_ok (hlog _ _)]
  obtain ⟨result, more, w₂⟩ := saved
  cases result with
  | ok u => rw [Action.bind_of_ok hsave, hlog]; rfl
  | error e => rw [Action.bind_of_error hsave]; simp [closing]

/-! ### Deliveries in a changed world -/

variable {f : σ → σ}

/-- A delivery whose resolver changes the world on the way ends as the one whose resolver does not, but
for the change. -/
theorem run_moved {resolve : Action ε ν σ String}
    (hlog : ∀ c w, d.checkpoint c w = ⟨.ok (), log c w, w⟩)
    (hresolve : d.resolve w = (resolve w).moved f) (hcheckpoint : ∀ c, (d.checkpoint c).Blind f)
    (hname : d.drawName.Blind f) (hsave : ∀ download, (d.save download).Blind f) :
    d.run mimeType w = ((Delivery.run { d with resolve := resolve } mimeType) w).moved f := by
  rw [run, run, Action.bind_of_ok (hlog .requested w), Action.bind_of_ok (hlog .requested w)]
  have hrest := Action.bind_moved hresolve fun payload => hname.bind fun filename =>
    (hcheckpoint (.resolved filename payload.utf8ByteSize)).bind fun _ =>
      (hsave ⟨payload, mimeType, filename⟩).bind fun _ => hcheckpoint (.triggered filename)
  rw [hrest]
  rfl

theorem run_blind (hcheckpoint : ∀ c, (d.checkpoint c).Blind f) (hresolve : d.resolve.Blind f)
    (hname : d.drawName.Blind f) (hsave : ∀ download, (d.save download).Blind f) :
    (d.run mimeType).Blind f :=
  (hcheckpoint .requested).bind fun _ => hresolve.bind fun payload => hname.bind fun filename =>
    (hcheckpoint (.resolved filename payload.utf8ByteSize)).bind fun _ =>
      (hsave ⟨payload, mimeType, filename⟩).bind fun _ => hcheckpoint (.triggered filename)

/-! ### What deliveries emit -/

variable {p : ν → Prop}

/-- The events of a delivery that name a file are those of the last two checkpoints and of the save, all
of them with a name that was drawn. -/
theorem run_emits (hrequested : (d.checkpoint .requested).Emits p) (hresolve : d.resolve.Emits p)
    (hdraw : d.drawName.Emits p)
    (hnamed : ∀ filename, (∃ w, (d.drawName w).result = .ok filename) →
      (∀ bytes, (d.checkpoint (.resolved filename bytes)).Emits p) ∧
      (∀ payload, (d.save ⟨payload, mimeType, filename⟩).Emits p) ∧
      (d.checkpoint (.triggered filename)).Emits p) :
    (d.run mimeType).Emits p :=
  hrequested.bind fun _ _ => hresolve.bind fun payload _ => hdraw.bind fun filename hname =>
    have ⟨hresolved, hsave, htriggered⟩ := hnamed filename hname
    (hresolved _).bind fun _ _ => (hsave payload).bind fun _ _ => htriggered

end Delivery

/-! ### Saves through an anchor -/

namespace Document

variable {ε ν σ α : Type} {doc : Document ε ν σ α} {f : σ → σ}

theorem save_blind (hcreate : doc.create.Blind f)
    (hattribute : ∀ a name value, (doc.setAttribute a name value).Blind f)
    (hhide : ∀ a, (doc.hide a).Blind f) (happend : ∀ a, (doc.append a).Blind f)
    (hclick : ∀ a, (Action.perform (doc.click a) : Action ε ν σ Unit).Blind f)
    (hremove : ∀ a, (doc.remove a).Blind f) (d : Download) : (doc.save d).Blind f :=
  hcreate.bind fun a => (hattribute a _ _).bind fun _ => (hattribute a _ _).bind fun _ =>
    (hhide a).bind fun _ => (happend a).bind fun _ => (hclick a).bind fun _ => hremove a

variable {p : ν → Prop}

theorem save_emits {d : Download} (hcreate : doc.create.Emits p)
    (hhref : ∀ a, (doc.setAttribute a "href" d.href).Emits p)
    (hname : ∀ a, (doc.setAttribute a "download" d.filename).Emits p)
    (hhide : ∀ a, (doc.hide a).Emits p) (happend : ∀ a, (doc.append a).Emits p)
    (hclick : ∀ a, (Action.perform (doc.click a) : Action ε ν σ Unit).Emits p)
    (hremove : ∀ a, (doc.remove a).Emits p) : (doc.save d).Emits p :=
  hcreate.bind fun a _ => (hhref a).bind fun _ _ => (hname a).bind fun _ _ =>
    (hhide a).bind fun _ _ => (happend a).bind fun _ _ => (hclick a).bind fun _ _ => hremove a

end Document

end SaveAs
