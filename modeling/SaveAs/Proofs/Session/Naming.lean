import SaveAs.Proofs.Anchor.Recording
import SaveAs.Proofs.FileName
import SaveAs.Proofs.Session.Running

/-!
# The file names that a session shows

A file name is shown where a checkpoint logs it, where a saver is given it, and where an anchor carries
it. All of them that a delivery shows are drawn for the options of the delivery.
-/

namespace SaveAs

namespace Recorder

variable {p : Event → Prop} {d : Download}

/-- What a save emits, by the seven kinds of operations. -/
theorem save_emits (hcreate : ∀ id, p (.create id)) (hhref : ∀ id, p (.attribute id "href" d.href))
    (hname : ∀ id, p (.attribute id "download" d.filename)) (hhide : ∀ id, p (.hide id))
    (happend : ∀ id body, p (.append id body)) (hclick : ∀ id body, p (.click id body))
    (hremove : ∀ id body, p (.remove id body)) : (document.save d).Emits p := by
  refine Document.save_emits ?_ (fun id => ?_) (fun id => ?_) (fun id => ?_) (fun id => ?_)
    (fun id => ?_) (fun id => ?_)
  · refine .of_singleton (fun r => ?_) fun r => hcreate r.created
    rw [create_apply]
    cases r.faults.create <;> simp
  · refine .of_singleton (fun r => ?_) fun _ => hhref id
    rw [setHref_apply]
    cases r.faults.href <;> simp
  · refine .of_singleton (fun r => ?_) fun _ => hname id
    rw [setDownload_apply]
    cases r.faults.download <;> simp
  · refine .of_singleton (fun r => ?_) fun _ => hhide id
    rw [hide_apply]
    cases r.faults.hide <;> simp
  · refine .of_singleton (fun r => ?_) fun r => happend id (r.body ++ [id])
    rw [append_apply]
    cases r.faults.append <;> simp
  · exact .of_singleton (fun r => .inr rfl) fun r => hclick id r.body
  · refine .of_singleton (fun r => ?_) fun r => hremove id (r.body.erase id)
    rw [remove_apply]
    cases r.faults.remove <;> simp

end Recorder

/-- The file name that a checkpoint logs. -/
def Checkpoint.filename? : Checkpoint → Option String
  | requested => none
  | resolved filename _ => some filename
  | triggered filename => some filename

namespace Session

/-- The file name that an event shows. -/
def Event.filename? : Event → Option String
  | log c => c.filename?
  | save d => some d.filename
  | document (.attribute _ name value) => if name = "download" then some value else none
  | _ => none

open Options (namesShown_of_none namesShown_of_some)

variable {o : Options} {d : Download}

theorem saveInDocument_emits_named (i : Nat) (h : o.Names d.filename) :
    (saveInDocument i d).Emits (o.NamesShown Event.filename?) := by
  refine .focus (.mapError (Recorder.save_emits ?_ ?_ ?_ ?_ ?_ ?_ ?_) _) _ _
  · exact fun _ => namesShown_of_none rfl
  · exact fun _ => namesShown_of_none rfl
  · exact fun _ => namesShown_of_some rfl h
  · exact fun _ => namesShown_of_none rfl
  · exact fun _ _ => namesShown_of_none rfl
  · exact fun _ _ => namesShown_of_none rfl
  · exact fun _ _ => namesShown_of_none rfl

theorem saveWith_emits_named (saver : Saver) (h : o.Names d.filename) :
    (saveWith saver d).Emits (o.NamesShown Event.filename?) := by
  cases saver with
  | record => exact .emit (namesShown_of_some rfl h)
  | failing text => exact .fail _
  | anchor i => exact saveInDocument_emits_named i h
  | directory dir =>
    refine (Action.Emits.ofExcept _).bind fun bytes _ => .of_nil fun s => ?_
    cases s.files.write s.home (dir.join d.filename) bytes <;> rfl

/-- Deliveries draw the names that they show. -/
theorem deliver_emits_named {resolve : Act String} (hresolve : resolve.Emits (o.NamesShown Event.filename?))
    (saver : Saver) (source : Source) :
    (deliver resolve saver o source).Emits (o.NamesShown Event.filename?) := by
  refine Delivery.run_emits (.emit (namesShown_of_none rfl)) hresolve ?_ fun filename hdrawn => ?_
  · exact .of_nil fun s => congrArg Outcome.events (drawName_apply source o s)
  · obtain ⟨s, hs⟩ := hdrawn
    have hdraw : (drawName source o s).result = .ok (source.name o s) :=
      congrArg Outcome.result (drawName_apply source o s)
    have hname : o.Names filename := by
      rw [← Except.ok.inj (hdraw.symm.trans hs)]
      exact o.names_fileName (source.words s)
    exact ⟨fun bytes => .emit (namesShown_of_some rfl hname),
      fun payload => saveWith_emits_named saver hname, .emit (namesShown_of_some rfl hname)⟩

theorem resolve_emits_named (i : Nat) (handle : String) :
    (resolveWith i handle).Emits (o.NamesShown Event.filename?) := by
  intro s e he
  rw [resolveWith, Action.focus, List.map_id] at he
  rw [Resolver.eq_consume_of_mem he]
  exact namesShown_of_none rfl

theorem fire_emits_named (i : Nat) (t : Trigger) (handle : String) (source : Source) :
    (fire i t handle source).Emits (t.options.NamesShown Event.filename?) :=
  deliver_emits_named (resolve_emits_named i handle) t.saver source

end Session

end SaveAs
