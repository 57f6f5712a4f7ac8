import SaveAs.Proofs.Session.Delivering

/-!
# Triggers, run

Running a trigger takes from its own resolver, draws words, and changes recording documents or files.
What the session keeps besides is not looked at, so a run in a session is the run of the trigger by
itself, after which the session has the resolver as the run left it.
-/

namespace SaveAs

theorem modify_eq_self {α : Type} {l : List α} {i : Nat} {a : α} {f : α → α} (h : l[i]? = some a)
    (hf : f a = a) : l.modify i f = l := by
  refine List.ext_getElem? fun j => ?_
  rw [List.getElem?_modify]
  split
  · rename_i hj
    rw [← hj, h]
    exact congrArg some hf
  · exact congrFun Option.map_id _

namespace Session

/-- A change of a session that savers and file names do not depend on. -/
structure Unseen (f : State → State) : Prop where
  generator : ∀ s, (f s).generator = s.generator
  ambient : ∀ s, (f s).ambient = s.ambient
  documents : ∀ s, (f s).documents = s.documents
  files : ∀ s, (f s).files = s.files
  home : ∀ s, (f s).home = s.home
  setGenerator : ∀ s g, f { s with generator := g } = { f s with generator := g }
  setAmbient : ∀ s g, f { s with ambient := g } = { f s with ambient := g }
  setDocuments : ∀ s ds, f { s with documents := ds } = { f s with documents := ds }
  setFiles : ∀ s t, f { s with files := t } = { f s with files := t }

variable {f : State → State} {resolve : Act String} {s : State} {t : Trigger} {i : Nat}

theorem Unseen.setResolver (i : Nat) (r : Resolver) : Unseen (·.setResolver i r) := by
  constructor <;> intros <;> rfl

theorem Unseen.name (hf : Unseen f) (source : Source) (o : Options) (s : State) :
    source.name o (f s) = source.name o s := by
  cases source with
  | generator => rw [Source.name, Source.words, hf.generator]; rfl
  | ambient => rw [Source.name, Source.words, hf.ambient]; rfl

theorem Unseen.draw (hf : Unseen f) (source : Source) (o : Options) (s : State) :
    source.draw o (f s) = f (source.draw o s) := by
  cases source with
  | generator => rw [Source.draw, Source.draw, hf.setGenerator s (o.fileName s.generator).2,
      hf.generator]
  | ambient => rw [Source.draw, Source.draw, hf.setAmbient s (o.fileName s.ambient).2, hf.ambient]

theorem Unseen.drawName (hf : Unseen f) (source : Source) (o : Options) :
    (drawName source o).Blind f := by
  intro w
  rw [drawName_apply, drawName_apply, hf.name, hf.draw]
  rfl

theorem Unseen.saveInDocument (hf : Unseen f) (i : Nat) (d : Download) :
    (saveInDocument i d).Blind f := by
  rw [Session.saveInDocument]
  refine Action.Blind.focus (fun w => ?_) (fun r w => ?_) _ _
  · rw [hf.documents]
  · rw [hf.setDocuments w (w.documents.set i r), hf.documents]

theorem Unseen.saveToDirectory (hf : Unseen f) (dir : Path) (d : Download) :
    (saveToDirectory dir d).Blind f := by
  refine (Action.Blind.ofExcept _).bind fun bytes w => ?_
  have hwrite : (f w).files.write (f w).home (dir.join d.filename) bytes =
      w.files.write w.home (dir.join d.filename) bytes := by
    rw [hf.files, hf.home]
  simp only [hwrite]
  cases w.files.write w.home (dir.join d.filename) bytes with
  | ok files => exact congrArg (Outcome.mk (.ok ()) []) (hf.setFiles w files).symm
  | error r => rfl

theorem Unseen.saveWith (hf : Unseen f) (saver : Saver) (d : Download) :
    (saveWith saver d).Blind f := by
  cases saver with
  | record => exact Action.Blind.emit _
  | failing text => exact Action.Blind.fail _
  | anchor document => exact hf.saveInDocument document d
  | directory dir => exact hf.saveToDirectory dir d

theorem Unseen.deliver (hf : Unseen f) (hresolve : resolve.Blind f) (saver : Saver) (o : Options)
    (source : Source) : (deliver resolve saver o source).Blind f :=
  Delivery.run_blind (fun _ => Action.Blind.emit _) hresolve (hf.drawName source o)
    fun d => hf.saveWith saver d

theorem Unseen.saveBytes (hf : Unseen f) (bytes : List UInt8) (saver : Saver) (o : Options) :
    (saveBytes bytes saver o).Blind f :=
  hf.deliver (Action.Blind.pure _) saver o .ambient

end Session

/-! ### A trigger by itself -/

namespace Trigger

/-- The trigger after a run on a handle: its resolver may have given a payload away. -/
def used (t : Trigger) (handle : String) : Trigger :=
  { t with resolver := (Resolver.resolve handle t.resolver).world }

def answer (t : Trigger) (handle : String) : Session.Act String := fun s =>
  ⟨(Resolver.resolve handle t.resolver).result, (Resolver.resolve handle t.resolver).events, s⟩

/-- Runs a trigger that no session keeps. -/
def run (t : Trigger) (handle : String) (source : Session.Source) : Session.Act Unit :=
  Session.deliver (t.answer handle) t.saver t.options source

theorem run_blind (t : Trigger) (handle : String) (source : Session.Source)
    {f : Session.State → Session.State} (hf : Session.Unseen f) : (t.run handle source).Blind f :=
  hf.deliver (fun _ => rfl) t.saver t.options source

end Trigger

namespace Session

variable {s : State} {t : Trigger} {i : Nat}

theorem resolver_of_trigger (h : s.triggers[i]? = some t) : s.resolver i = t.resolver := by
  rw [State.resolver, h]
  rfl

theorem resolveWith_of_trigger (h : s.triggers[i]? = some t) (handle : String) :
    resolveWith i handle s =
      (t.answer handle s).moved (·.setResolver i (t.used handle).resolver) := by
  simp only [resolveWith, Action.focus, resolver_of_trigger h, List.map_id]
  rfl

/-- A trigger of a session is run as it is, and the session then has its resolver as the run left it. -/
theorem fire_of_trigger (h : s.triggers[i]? = some t) (handle : String) (source : Source) :
    fire i t handle source s =
      (t.run handle source s).moved (·.setResolver i (t.used handle).resolver) := by
  have hf : Unseen (·.setResolver i (t.used handle).resolver) := .setResolver i _
  exact Delivery.run_moved (fun _ _ => rfl) (resolveWith_of_trigger h handle)
    (fun _ => Action.Blind.emit _) (hf.drawName source t.options) fun d => hf.saveWith t.saver d

theorem setResolver_self (h : s.triggers[i]? = some t) : s.setResolver i t.resolver = s := by
  rw [State.setResolver, modify_eq_self h]
  rfl

/-! ### What stays -/

structure SameTriggers (s s' : State) : Prop where
  triggers : s'.triggers = s.triggers
  triggerNames : s'.triggerNames = s.triggerNames
  namespaces : s'.namespaces = s.namespaces

/-- An action to which every unseen change is unseen leaves the triggers as they are. -/
theorem sameTriggers_of_blind {α : Type} {x : Act α} (h : ∀ f, Unseen f → x.Blind f) (s : State) :
    SameTriggers s (x s).world := by
  let f (w : State) : State :=
    { w with triggers := s.triggers, triggerNames := s.triggerNames, namespaces := s.namespaces }
  have hf : Unseen f := by constructor <;> intros <;> rfl
  have hworld : f (x s).world = (x s).world := (h f hf).world_eq rfl
  exact ⟨(congrArg State.triggers hworld).symm, (congrArg State.triggerNames hworld).symm,
    (congrArg State.namespaces hworld).symm⟩

theorem run_sameTriggers (t : Trigger) (handle : String) (source : Source) (s : State) :
    SameTriggers s (t.run handle source s).world :=
  sameTriggers_of_blind (fun _ hf => t.run_blind handle source hf) s

end Session

end SaveAs
