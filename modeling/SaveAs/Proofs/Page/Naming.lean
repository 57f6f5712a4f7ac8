import SaveAs.Proofs.FileName
import SaveAs.Proofs.Page.Running

/-!
# The file names that a page sees

A file name is seen where a checkpoint is logged and where an anchor carries it. All of them that a
delivery shows are drawn for the options of the delivery.
-/

namespace SaveAs.Page

/-- The file name that an event shows. -/
def Event.filename? : Event → Option String
  | console (.checkpoint (.resolved filename _)) => some filename
  | console (.checkpoint (.triggered filename)) => some filename
  | setAttribute _ name value => if name = "download" then some value else none
  | _ => none

open Options (namesShown_of_none namesShown_of_some)

variable {o : Options} {d : Download}

theorem save_emits_named (h : o.Names d.filename) :
    (anchors.save d).Emits (o.NamesShown Event.filename?) := by
  intro s e he
  cases save_emits_ofSave d s e he with
  | name id => exact namesShown_of_some rfl h
  | _ => exact namesShown_of_none rfl

/-- Deliveries draw the names that they show. -/
theorem deliver_emits_named {payload : Act String} (hpayload : payload.Emits (o.NamesShown Event.filename?)) :
    (deliver payload o).Emits (o.NamesShown Event.filename?) := by
  refine Delivery.run_emits (log_emits (namesShown_of_none rfl)) hpayload (.update _) fun filename hdrawn => ?_
  obtain ⟨s, hs⟩ := hdrawn
  have hname : o.Names filename := by
    rw [← Except.ok.inj hs]
    exact o.names_fileName s.ambient
  exact ⟨fun bytes => log_emits (namesShown_of_some rfl hname), fun payload => save_emits_named hname,
    log_emits (namesShown_of_some rfl hname)⟩

theorem resolve_emits_named (handle : Value) : (resolve handle).Emits (o.NamesShown Event.filename?) := by
  refine Action.Emits.bind ?_ fun v _ => ?_
  · refine (Action.Emits.read _).bind fun there _ => ?_
    have hconsumes : (attempt ["consume_js_object"] .handleNotConsumed fun s =>
        ⟨.ok ((s.handles.get? (s.heap.literal handle).key).getD .undefined),
          [.consume (s.heap.literal handle)],
          { s with handles := s.handles.erase (s.heap.literal handle).key }⟩ : Act Value).Emits
        (o.NamesShown Event.filename?) :=
      attempt_emits _ _ (.of_singleton (fun s => .inr rfl) fun s => namesShown_of_none rfl)
    cases there
    · exact (Action.Emits.fail _).bind fun _ _ => hconsumes
    · exact hconsumes
  · cases v with
    | string payload => exact .pure payload
    | _ => exact .fail _

end SaveAs.Page
