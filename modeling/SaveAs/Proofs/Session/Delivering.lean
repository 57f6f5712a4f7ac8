import SaveAs.Proofs.Delivery
import SaveAs.Session.Delivering

/-!
# Deliveries of a session

The two equations of a delivery, with the words and the savers of a session. Everything that a trigger
or a direct save does is one of them.
-/

namespace SaveAs

/-- A resolver shows nothing but that it was asked for the handle. -/
theorem Resolver.eq_consume_of_mem {handle : String} {resolver : Resolver} {e : Session.Event}
    (h : e ∈ (Resolver.resolve handle resolver).events) : e = .consume handle := by
  cases resolver with
  | inline => cases h
  | failing text => cases h
  | table payloads =>
    rw [Resolver.resolve] at h
    split at h <;> exact List.mem_singleton.1 h

namespace Session

def Source.words (source : Source) (s : State) : Generator :=
  match source with
  | .generator => s.generator
  | .ambient => s.ambient

def Source.name (source : Source) (o : Options) (s : State) : String :=
  (o.fileName (source.words s)).1

def Source.draw (source : Source) (o : Options) (s : State) : State :=
  match source with
  | .generator => { s with generator := (o.fileName s.generator).2 }
  | .ambient => { s with ambient := (o.fileName s.ambient).2 }

@[simp] theorem Source.draw_documents (source : Source) (o : Options) (s : State) :
    (source.draw o s).documents = s.documents := by
  cases source <;> rfl

@[simp] theorem Source.draw_files (source : Source) (o : Options) (s : State) :
    (source.draw o s).files = s.files := by
  cases source <;> rfl

@[simp] theorem Source.draw_home (source : Source) (o : Options) (s : State) :
    (source.draw o s).home = s.home := by
  cases source <;> rfl

theorem drawName_apply (source : Source) (o : Options) (s : State) :
    drawName source o s = ⟨.ok (source.name o s), [], source.draw o s⟩ := by
  cases source <;> rfl

variable {resolve : Act String} {saver : Saver} {o : Options} {source : Source} {s s₁ : State}
  {events : List Event}

theorem deliver_of_unresolved {e : Failure} (h : resolve s = ⟨.error e, events, s₁⟩) :
    deliver resolve saver o source s = ⟨.error e, .log .requested :: events, s₁⟩ := by
  rw [deliver, Delivery.run_of_unresolved (fun _ _ => rfl) h]
  rfl

def handed (payload : String) (o : Options) (source : Source) (s : State) : Download :=
  ⟨payload, o.mimeType, source.name o s⟩

theorem deliver_of_resolved {payload : String} {saved : Outcome Failure Event State Unit}
    (h : resolve s = ⟨.ok payload, events, s₁⟩)
    (hsave : saveWith saver (handed payload o source s₁) (source.draw o s₁) = saved) :
    deliver resolve saver o source s =
      ⟨saved.result,
        .log .requested :: (events ++
          .log (.resolved (source.name o s₁) payload.utf8ByteSize) ::
            (saved.events ++ Delivery.closing (fun c _ => [.log c]) (source.name o s₁) saved)),
        saved.world⟩ := by
  rw [deliver, Delivery.run_of_resolved (fun _ _ => rfl) (drawName_apply source o) h hsave]
  rfl

/-- Behind a save nothing is shown but that the download is done. -/
theorem eq_triggered_of_mem_closing {name : String} {saved : Outcome Failure Event State Unit} {e : Event}
    (h : e ∈ Delivery.closing (fun c _ => [.log c]) name saved) : e = .log (.triggered name) := by
  rw [Delivery.closing] at h
  split at h
  · exact List.mem_singleton.1 h
  · cases h

/-! ### Saving to a directory -/

variable {dir : Path} {d : Download}

theorem saveToDirectory_of_undecodable {e : Base64.Defect} (h : Base64.decode d.payload = .error e) :
    saveToDirectory dir d s = ⟨.error (.undecodable d.filename e), [], s⟩ := by
  rw [saveToDirectory, h]
  rfl

theorem saveToDirectory_of_bytes {bytes : List UInt8} (h : Base64.decode d.payload = .ok bytes) :
    saveToDirectory dir d s =
      match s.files.write s.home (dir.join d.filename) bytes with
      | .ok files => ⟨.ok (), [], { s with files := files }⟩
      | .error r => ⟨.error (.unwritable (dir.join d.filename) r), [], s⟩ := by
  rw [saveToDirectory, h]
  rfl

/-- A payload that decodes is written where the joined path leads, or the refusal is the failure. -/
theorem saveToDirectory_of_decoded {bytes : List UInt8} (h : Base64.decode d.payload = .ok bytes) :
    saveToDirectory dir d s =
      match s.files.resolve s.home (dir.join d.filename) with
      | .ok l => ⟨.ok (), [], { s with files := s.files.put l (.file bytes) }⟩
      | .error r => ⟨.error (.unwritable (dir.join d.filename) r), [], s⟩ := by
  rw [saveToDirectory_of_bytes h, FileTree.write]
  cases s.files.resolve s.home (dir.join d.filename) <;> rfl

end Session

end SaveAs
