import SaveAs.Proofs.Session.Handing

/-!
# The anchors of a session

Triggers, imported functions and direct saves may share one recording document, and at each step of the
session other operations of the document may fail. The saves that the steps make in it follow one
another as if nothing else were done, so that nothing stays in its body but elements whose removal
failed.
-/

namespace SaveAs.Session

/-- Says which operations of a recording document fail from now on. -/
def State.setFaults (s : State) (i : Nat) (faults : RecorderFaults) : State :=
  { s with documents := s.documents.modify i fun r => { r with faults := faults } }

/-- A run in which other operations of one document fail at each step. -/
def runFailing (i : Nat) (s : State) : List (RecorderFaults × Request) → List Reply × State
  | [] => ([], s)
  | (faults, r) :: rest =>
    let (reply, s) := step (s.setFaults i faults) r
    let (replies, s) := runFailing i s rest
    (reply :: replies, s)

/-- The download that a request hands to an anchor in a document. -/
def anchored? (i : Nat) (s : State) (r : Request) : Option Download :=
  match handed? s r with
  | some (.anchor j, d) => if j = i then some d else none
  | _ => none

/-- The saves that a run makes in one document, each with the reply that it is part of. -/
def savesIn (i : Nat) (s : State) : List (RecorderFaults × Request) → List (Recorder.Attempt × Reply)
  | [] => []
  | (faults, r) :: rest =>
    let (reply, s') := step (s.setFaults i faults) r
    match anchored? i (s.setFaults i faults) r with
    | some d => (⟨faults, d⟩, reply) :: savesIn i s' rest
    | none => savesIn i s' rest

variable {s s' : State} {saver : Saver} {d : Download} {events : List Event}
  {result : Except Failure Unit} {i : Nat} {r : Request} {recorder : Recorder} {faults : RecorderFaults}

theorem documents_setFaults (h : s.documents[i]? = some recorder) (faults : RecorderFaults) :
    (s.setFaults i faults).documents[i]? = some { recorder with faults := faults } := by
  rw [State.setFaults, List.getElem?_modify_eq, h]
  rfl

theorem handed?_of_anchored? (h : anchored? i s r = some d) : handed? s r = some (.anchor i, d) := by
  rw [anchored?] at h
  split at h
  · rename_i j d' hhanded
    split at h
    · rename_i hj
      rw [hhanded, hj, Option.some.inj h]
    · cases h
  · cases h

theorem Recorded.other (h : Recorded s saver d result events s') (hne : saver ≠ .anchor i) :
    s'.documents[i]? = s.documents[i]? := by
  cases saver with
  | anchor j =>
    have hj : j ≠ i := fun hj => hne (congrArg Saver.anchor hj)
    rw [h.2.2, List.getElem?_set_ne hj]
  | _ => rw [h.2]

/-- A step that hands nothing to an anchor of a document leaves the document as it is. -/
theorem documents_of_not_anchored (h : anchored? i s r = none) (hi : s.documents[i]? = some recorder) :
    (step s r).2.documents[i]? = some recorder := by
  have hstep := step_handed s r
  cases hhanded : handed? s r with
  | none =>
    rw [hhanded] at hstep
    obtain ⟨-, hdocuments | ⟨faults, hdocuments⟩⟩ := hstep
    · rw [hdocuments, hi]
    · obtain ⟨hlt, -⟩ := List.getElem?_eq_some_iff.1 hi
      rw [hdocuments, List.getElem?_append_left hlt, hi]
  | some handing =>
    obtain ⟨saver, d⟩ := handing
    rw [hhanded] at hstep
    obtain ⟨result, -, hrecorded⟩ := hstep
    have hne : saver ≠ .anchor i := by
      rintro rfl
      simp [anchored?, hhanded] at h
    rw [hrecorded.other hne, hi]

/-- A step that hands a download to an anchor of a document is a save in that document. -/
theorem step_anchored (h : anchored? i s r = some d) (hi : s.documents[i]? = some recorder) :
    let o := recorder.serve ⟨recorder.faults, d⟩
    (step s r).1.result = .ended (o.result.mapError .document) ∧
      (step s r).1.events.filterMap Event.document? = o.events ∧
      (step s r).2.documents[i]? = some o.world := by
  have hstep := step_handed s r
  rw [handed?_of_anchored? h] at hstep
  obtain ⟨result, hended, hresult, hevents, hdocuments⟩ := hstep
  have hget : s.documents.getD i {} = recorder := by
    rw [List.getD_eq_getElem?_getD, hi]
    rfl
  rw [hget] at hresult hevents hdocuments
  obtain ⟨hlt, -⟩ := List.getElem?_eq_some_iff.1 hi
  refine ⟨hended.trans (congrArg Result.ended hresult), hevents, ?_⟩
  rw [hdocuments, List.getElem?_set_self hlt]
  rfl

/-- What a save in a document does, as a reply shows it. -/
def shownSave (o : Outcome String Recorder.Event Recorder Unit) : Result × List Recorder.Event :=
  (.ended (o.result.mapError .document), o.events)

theorem documents_runFailing (steps : List (RecorderFaults × Request))
    (hi : s.documents[i]? = some recorder) :
    let attempts := (savesIn i s steps).map (·.1)
    (∃ faults, (runFailing i s steps).2.documents[i]? =
      some { recorder.after attempts with faults := faults }) ∧
    (savesIn i s steps).map (fun (_, reply) => (reply.result, reply.events.filterMap Event.document?)) =
      (recorder.history attempts).map shownSave := by
  induction steps generalizing s recorder with
  | nil => exact ⟨⟨recorder.faults, hi⟩, rfl⟩
  | cons entry rest ih =>
    obtain ⟨faults, r⟩ := entry
    have hset := documents_setFaults hi faults
    cases hanchored : anchored? i (s.setFaults i faults) r with
    | none =>
      obtain ⟨⟨last, hdocument⟩, hsaves⟩ := ih (documents_of_not_anchored hanchored hset)
      rw [Recorder.after_faults] at hdocument
      rw [Recorder.history_faults] at hsaves
      simp only [savesIn, runFailing, hanchored]
      exact ⟨⟨last, hdocument⟩, hsaves⟩
    | some d =>
      obtain ⟨hresult, hevents, hdocuments⟩ := step_anchored hanchored hset
      obtain ⟨hdocument, hsaves⟩ := ih hdocuments
      simp only [savesIn, runFailing, hanchored, List.map_cons, Recorder.history]
      refine ⟨hdocument, List.cons_eq_cons.2 ⟨?_, hsaves⟩⟩
      rw [hresult, hevents]
      rfl

theorem setFaults_self (hi : s.documents[i]? = some recorder) : s.setFaults i recorder.faults = s := by
  rw [State.setFaults, modify_eq_self hi]
  rfl

/-- A step leaves it as it is which operations of a document fail. -/
theorem step_faults (hi : s.documents[i]? = some recorder) (hbounded : recorder.Bounded) (r : Request) :
    ∃ after : Recorder, (step s r).2.documents[i]? = some after ∧ after.Bounded ∧
      after.faults = recorder.faults := by
  cases hanchored : anchored? i s r with
  | none => exact ⟨recorder, documents_of_not_anchored hanchored hi, hbounded, rfl⟩
  | some d =>
    have hsaved := hbounded.saved_serve ⟨recorder.faults, d⟩
    exact ⟨_, (step_anchored hanchored hi).2.2, hsaved.bounded hbounded, hsaved.faults_eq⟩

/-- A run in which the same operations fail throughout is a run of the session as it is. -/
theorem runFailing_eq_run (hi : s.documents[i]? = some recorder) (hbounded : recorder.Bounded)
    (requests : List Request) :
    runFailing i s (requests.map fun r => (recorder.faults, r)) = run s requests := by
  induction requests generalizing s recorder with
  | nil => rfl
  | cons r rest ih =>
    obtain ⟨after, hafter, hafterBounded, hfaults⟩ := step_faults hi hbounded r
    have hrest := ih hafter hafterBounded
    rw [hfaults] at hrest
    simp only [List.map_cons, runFailing, run, setFaults_self hi, hrest]

/-- Nothing stays in the body of a recording document but the elements of saves whose removal failed,
whatever fails in any of them. -/
theorem no_anchor_leaks :
    (∀ attempts, Recorder.Tidy attempts) ∧
    ∀ (s : State) (i : Nat) (faults : RecorderFaults), s.documents[i]? = some { faults := faults } →
      (∀ steps : List (RecorderFaults × Request),
        let attempts := (savesIn i s steps).map (·.1)
        (∃ last, (runFailing i s steps).2.documents[i]? =
          some { Recorder.after {} attempts with faults := last }) ∧
        (savesIn i s steps).map
            (fun (_, reply) => (reply.result, reply.events.filterMap Event.document?)) =
          (Recorder.history {} attempts).map shownSave) ∧
      ∀ requests : List Request,
        runFailing i s (requests.map fun r => (faults, r)) = run s requests := by
  refine ⟨Recorder.tidy, fun s i faults hi => ⟨fun steps => ?_, fun requests => ?_⟩⟩
  · obtain ⟨⟨last, hdocument⟩, hsaves⟩ := documents_runFailing steps hi
    rw [Recorder.after_faults {} faults] at hdocument
    rw [Recorder.history_faults {} faults] at hsaves
    exact ⟨⟨last, hdocument⟩, hsaves⟩
  · exact runFailing_eq_run hi (fun _ hid => absurd hid List.not_mem_nil) requests

/-- Of a trigger, a direct save and a save of bytes that share a document, the second is not taken out
again and the third makes no element. -/
theorem element_of_failed_removal_stays :
    let s := (run {} [⟨.absent, .defineSaver "page" (.anchor {})⟩,
      ⟨.absent, .buildTrigger "trigger" "page" .inline⟩]).2
    let steps : List (RecorderFaults × Request) :=
      [({}, ⟨.absent, .fire "trigger" "iQ=="⟩),
        ({ remove := some "held" }, ⟨.absent, .save "page" ⟨"iQ==", "image/png", "out.png"⟩⟩),
        ({ create := some "full" }, ⟨.absent, .saveBytes "page" [0x89]⟩)]
    (runFailing 0 s steps).2.documents[0]?.map (·.body) = some [1] ∧
      (savesIn 0 s steps).length = 3 := by
  intro s steps
  obtain ⟨⟨last, hdocument⟩, hsaves⟩ := (no_anchor_leaks.2 s 0 {} rfl).1 steps
  have hbody : (Recorder.after {} ((savesIn 0 s steps).map (·.1))).body = [1] := by decide +kernel
  have hlength := congrArg List.length hsaves
  rw [List.length_map] at hlength
  refine ⟨?_, hlength.trans (by decide +kernel)⟩
  rw [hdocument]
  exact congrArg some hbody

end SaveAs.Session
