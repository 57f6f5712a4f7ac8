import SaveAs.Session.Step

/-!
# Sessions: what is shown of a reply

A failure is shown by its message. Calls and direct saves draw from the ambient words, and the names in
their events are masked; a message shows a name as it is.
-/

namespace SaveAs.Session

def Failure.message : Failure → String
  | invalid f => f.message
  | unresolved text => text
  | noSuchHandle handle => "no such handle: " ++ handle
  | unsaved text => text
  | document text => text
  | undecodable filename d => filename ++ ": invalid base64 payload: " ++ d.message
  | unwritable p r => "Failed to write " ++ p.display ++ ": " ++ r.message
  | rejected text => text

def Event.mask (o : Options) : Event → Event
  | log c => log (c.mask o)
  | save d => save { d with filename := o.mask d.filename }
  | document (.attribute id "download" value) => document (.attribute id "download" (o.mask value))
  | e => e

def Reply.shown (r : Reply) : List Event :=
  match r.naming with
  | none => r.events
  | some o => r.events.map (·.mask o)

end SaveAs.Session
