import SaveAs.Proofs.Page.Naming
import SaveAs.Proofs.Page.Snapshot
import SaveAs.Proofs.Session.Handing
import SaveAs.Proofs.Session.Naming
import SaveAs.Proofs.Session.Snapshot

/-!
# What is stored is valid

Sessions and pages store options as a whole or not at all: where they read and are valid. No other step
changes what is stored, so it is valid throughout a run, and so are the options of every trigger and
every function that took them. For valid options the number in a file name is below the bound that they
give, with nothing to correct.
-/

namespace SaveAs

/-- Of a system that answers one input after the other: each step stores options, which are valid, and its
answer tells which, or it leaves those that were stored. -/
structure StoresValid {σ ι ρ : Type} (step : σ → ι → ρ × σ) (run : σ → List ι → List ρ × σ)
    (options : σ → Options) (stored? : ι → ρ → Option Options) : Prop where
  run_nil : ∀ s, run s [] = ([], s)
  run_cons : ∀ s x xs,
    run s (x :: xs) = ((step s x).1 :: (run (step s x).2 xs).1, (run (step s x).2 xs).2)
  options_eq : ∀ s x, options (step s x).2 = (stored? x (step s x).1).getD (options s)
  valid : ∀ s x o, stored? x (step s x).1 = some o → o.Valid

namespace StoresValid

variable {σ ι ρ : Type} {step : σ → ι → ρ × σ} {run : σ → List ι → List ρ × σ} {options : σ → Options}
  {stored? : ι → ρ → Option Options} {s : σ}

theorem step_valid (h : StoresValid step run options stored?) (hs : (options s).Valid) (x : ι) :
    (options (step s x).2).Valid := by
  rw [h.options_eq]
  cases hstored : stored? x (step s x).1 with
  | none => exact hs
  | some o => exact h.valid s x o hstored

theorem run_valid (h : StoresValid step run options stored?) (hs : (options s).Valid) (xs : List ι) :
    (options (run s xs).2).Valid := by
  induction xs generalizing s with
  | nil => rwa [h.run_nil]
  | cons x rest ih =>
    rw [h.run_cons]
    exact ih (h.step_valid hs x)

/-- The last options that an answer tells of are stored, or those from before the run. -/
theorem run_options (h : StoresValid step run options stored?) (s : σ) (xs : List ι) :
    options (run s xs).2 =
      ((xs.zip (run s xs).1).filterMap fun (x, reply) => stored? x reply).getLast?.getD (options s) := by
  induction xs generalizing s with
  | nil => rw [h.run_nil]; rfl
  | cons x rest ih =>
    rw [h.run_cons, List.zip_cons_cons, getLast?_filterMap_cons, Option.getD_or, ← h.options_eq]
    exact ih (step s x).2

end StoresValid

namespace Session

/-- The options that a request stored, if it was answered so. -/
def stored? (r : Request) (reply : Reply) : Option Options :=
  match r.step, r.options.read, reply.result with
  | .setOptions, .ok given, .ended (.ok ()) => some (given.getD {})
  | _, _, _ => none

variable {s : State} {r : Request} {x : Step} {given : Option Options} {o : Options}

theorem step_setOptions (s : State) (source : Options.Source) :
    step s ⟨source, .setOptions⟩ =
      match source.read with
      | .error e => ({ result := .unread e }, s)
      | .ok given =>
        match (given.getD {}).validate with
        | .error f => ({ result := .ended (.error (.invalid f)) }, s)
        | .ok () => ({ result := .ended (.ok ()) }, { s with options := given.getD {} }) := by
  cases hread : source.read with
  | error e => exact step_of_unread hread _
  | ok given =>
    simp only [step_of_read hread, perform]
    cases hvalidate : (given.getD {}).validate <;>
    · rw [replyOf, setOptions, hvalidate]
      rfl

theorem ensureNamespace_options (s : State) (name : String) :
    (ensureNamespace s name).options = s.options := by
  rw [ensureNamespace]
  split <;> rfl

/-- The stored options serve a step as its own ones would. -/
theorem perform_given (s : State) (hchanges : x.changesOptions = false) :
    (perform given x s).2 = (perform (some (given.getD s.options)) x s).2 := by
  cases x with
  | setOptions => cases hchanges
  | register name saver resolver => simp only [perform, ensureNamespace_options, Option.getD_some]
  | _ => rfl

theorem perform_options (s : State) (hchanges : x.changesOptions = false) :
    (perform given x s).2.options = s.options := by
  cases htells : x.tellsOptions with
  | true =>
    cases x with
    | getOptions => rfl
    | _ => cases htells
  | false =>
    rw [perform_given s hchanges]
    have hput := perform_withOptions s s.options hchanges htells
      fun _ => Option.some_ne_none (given.getD s.options)
    exact congrArg (fun out => out.2.options) hput

theorem step_options_of_other (s : State) (hchanges : r.step.changesOptions = false) :
    (step s r).2.options = s.options := by
  obtain ⟨source, x⟩ := r
  cases hread : source.read with
  | error e => rw [step_of_unread hread]
  | ok given => rw [step_of_read hread, perform_options s hchanges]

theorem stored?_of_other (hchanges : r.step.changesOptions = false) (reply : Reply) :
    stored? r reply = none := by
  obtain ⟨source, x⟩ := r
  cases x with
  | setOptions => cases hchanges
  | _ => rfl

/-- What is stored after a step: the options that it stored, which are valid, or those before. -/
theorem step_options (s : State) (r : Request) :
    (step s r).2.options = (stored? r (step s r).1).getD s.options ∧
      ∀ o, stored? r (step s r).1 = some o → o.Valid := by
  cases hchanges : r.step.changesOptions with
  | false =>
    rw [stored?_of_other hchanges, step_options_of_other s hchanges]
    exact ⟨rfl, fun o ho => by cases ho⟩
  | true =>
    obtain ⟨source, x⟩ := r
    cases x with
    | setOptions =>
      rw [step_setOptions]
      cases hread : source.read with
      | error e =>
        simp only [stored?, hread]
        exact ⟨rfl, fun o ho => by cases ho⟩
      | ok given =>
        dsimp only
        cases hvalidate : (given.getD {}).validate with
        | error f =>
          simp only [stored?, hread]
          exact ⟨rfl, fun o ho => by cases ho⟩
        | ok u =>
          simp only [stored?, hread]
          refine ⟨rfl, fun o ho => ?_⟩
          obtain rfl := Option.some.inj ho
          exact (Options.validate_eq_ok_iff _).1 hvalidate
    | _ => cases hchanges

theorem storesValid : StoresValid step run State.options stored? where
  run_nil := fun _ => rfl
  run_cons := fun _ _ _ => rfl
  options_eq := fun s r => (step_options s r).1
  valid := fun s r => (step_options s r).2

/-- What requests stored, in their order, as the replies tell it. -/
def storedBy (requests : List Request) (replies : List Reply) : List Options :=
  (requests.zip replies).filterMap fun (r, reply) => stored? r reply

/-! ### Triggers that take what is stored -/

variable {slot : Slot} {i : Nat} {t : Trigger} {handle : String} {saver : Saver} {d : Download}

theorem names_handed (payload : String) (o : Options) (source : Source) (s : State) :
    o.Names (handed payload o source s).filename :=
  o.names_fileName (source.words s)

theorem names_of_download? {source : Source} (h : t.download? handle source s = some d) :
    t.options.Names d.filename := by
  rw [Trigger.download?] at h
  split at h
  · obtain rfl := Option.some.inj h
    exact names_handed _ _ _ _
  · cases h

/-- A download that the trigger of a place hands on has a name for the options of the trigger. -/
theorem names_of_handed (hran : ran? r = some (slot, handle)) (hslot : s.occupant? slot = some (i, t))
    (h : handed? s r = some (saver, d)) : t.options.Names d.filename := by
  rw [handed?_of_fired (fired?_of_ran hran hslot)] at h
  obtain ⟨download, hdownload, heq⟩ := Option.map_eq_some_iff.1 h
  cases heq
  exact names_of_download? hdownload

theorem step_emits_named (hran : ran? r = some (slot, handle)) (hslot : s.occupant? slot = some (i, t)) :
    ∀ e ∈ (step s r).1.events, t.options.NamesShown Event.filename? e := by
  rw [(step_of_ran hran hslot).events]
  exact fire_emits_named i t handle slot.source s

/-- Bytes that are saved without options of their own are named for the stored ones. -/
theorem step_saveBytes_named (s : State) (name : String) (bytes : List UInt8) :
    let r : Request := ⟨.absent, .saveBytes name bytes⟩
    (∀ saver d, handed? s r = some (saver, d) → s.options.Names d.filename) ∧
      ∀ e ∈ (step s r).1.events, s.options.NamesShown Event.filename? e := by
  intro r
  constructor
  · intro saver d hd
    obtain ⟨-, rfl⟩ := Prod.mk.inj (Option.some.inj hd)
    exact names_handed _ _ _ _
  · have hevents : (step s r).1.events = (saveBytes bytes (s.saver name) s.options s).events := rfl
    rw [hevents]
    exact deliver_emits_named (.pure _) (s.saver name) .ambient s

end Session

/-! ### Pages -/

namespace Page

/-- The options that a step stored, if it was answered so. -/
def stored? (x : Step) (reply : Reply) : Option Options :=
  match x, reply.result with
  | .configure v, .exported (.ok ()) => (optionsOf v).toOption
  | _, _ => none

variable {s : State} {x : Step} {o : Options}

theorem step_configure (s : State) (v : Literal) :
    step s (.configure v) =
      match optionsOf v with
      | .error e => ({ result := .exported (.error e) }, s)
      | .ok o =>
        match o.validate with
        | .error f => ({ result := .exported (.error (.invalid f)) }, s)
        | .ok () => ({ result := .exported (.ok ()) }, { s with options := o }) := by
  cases hread : optionsOf v with
  | error e =>
    rw [step, replyOf, configure, hread]
    rfl
  | ok o =>
    dsimp only
    cases hvalidate : o.validate <;>
    · rw [step, replyOf, configure, hread]
      show replyOf .exported (Action.ofExcept (o.validate.mapError .invalid) >>= fun _ =>
        .modify fun s => { s with options := o } : Act Unit) s = _
      rw [replyOf, hvalidate]
      rfl

theorem stored?_of_other (hx : ∀ v, x ≠ .configure v) (reply : Reply) : stored? x reply = none := by
  cases x with
  | configure v => exact absurd rfl (hx v)
  | _ => rfl

/-- What is stored after a step: the options that it stored, which are valid, or those before. -/
theorem step_options (s : State) (x : Step) :
    (step s x).2.options = (stored? x (step s x).1).getD s.options ∧
      ∀ o, stored? x (step s x).1 = some o → o.Valid := by
  cases x with
  | configure v =>
    rw [step_configure]
    cases hread : optionsOf v with
    | error e => exact ⟨rfl, fun o ho => by cases ho⟩
    | ok given =>
      dsimp only
      cases hvalidate : given.validate with
      | error f => exact ⟨rfl, fun o ho => by cases ho⟩
      | ok u =>
        simp only [stored?, hread]
        refine ⟨rfl, fun o ho => ?_⟩
        obtain rfl := Option.some.inj ho
        exact (Options.validate_eq_ok_iff _).1 hvalidate
  | _ =>
    rw [stored?_of_other (fun v h => by cases h), (step_stays s fun v h => by cases h).options]
    exact ⟨rfl, fun o ho => by cases ho⟩

theorem storesValid : StoresValid step run State.options stored? where
  run_nil := fun _ => rfl
  run_cons := fun _ _ _ => rfl
  options_eq := fun s x => (step_options s x).1
  valid := fun s x => (step_options s x).2

/-- What steps stored, in their order, as the replies tell it. -/
def storedBy (steps : List Step) (replies : List Reply) : List Options :=
  (steps.zip replies).filterMap fun (x, reply) => stored? x reply

/-! ### Functions that take what is stored -/

/-- All delivering functions of a page that began without objects have valid options. -/
theorem valid_of_deliver {start : State} (hstart : start.options.Valid) {steps : List Step} {ref : Nat}
    (h : (run start.cleared steps).2.heap.kind? ref = some (.function (.deliver o))) : o.Valid := by
  obtain ⟨before, x, after, -, -, -, -, rfl⟩ := exists_registration h rfl
  exact storesValid.run_valid (s := start.cleared) hstart before

theorem exists_kind_of_importedFunction {name function : String} {f : Function}
    (h : s.importedFunction? name function = some f) : ∃ ref, s.heap.kind? ref = some (.function f) := by
  obtain ⟨env, -, hfunction⟩ := Option.bind_eq_some_iff.1 h
  obtain ⟨v, -, hv⟩ := Option.bind_eq_some_iff.1 hfunction
  cases v with
  | object ref => exact ⟨ref, (s.heap.function?_eq_some_iff ref f).1 hv⟩
  | _ => cases hv

theorem step_call_emits_named {name function : String} (argument : Literal)
    (h : s.importedFunction? name function = some (.deliver o)) :
    ∀ e ∈ (step s (.call name function argument)).1.events, o.NamesShown Event.filename? e := by
  rw [step_call_of_deliver argument h]
  exact deliver_emits_named (resolve_emits_named _) _

theorem step_saveBytes_emits_named (s : State) (bytes : List UInt8) :
    ∀ e ∈ (step s (.saveBytes bytes)).1.events, s.options.NamesShown Event.filename? e := by
  cases hdocument : (document s).result with
  | error failure =>
    have hnone : (step s (.saveBytes bytes)).1.events = [] := by
      have happly := document_apply s
      rw [hdocument] at happly
      rw [step, replyOf, saveBytes, Action.bind_of_error happly]
    rw [hnone]
    intro e he
    cases he
  | ok u =>
    rw [step_saveBytes_of_document bytes hdocument]
    exact deliver_emits_named (.pure _) s

end Page

/-! ### Stored options in runs -/

/-- A name with an extension, and a number that is below the bound which the options themselves give. -/
def Options.NamesStrictly (o : Options) (name : String) : Prop :=
  o.extension ≠ "" ∧ ∃ n < o.maxSuffix.toNat, name = o.nameOf n

theorem Options.Valid.namesStrictly {o : Options} {name : String} (h : o.Valid) (hname : o.Names name) :
    o.NamesStrictly name :=
  ⟨h.2.2, h.names_iff.1 hname⟩

theorem Options.valid_default : ({} : Options).Valid := by
  decide

/-- The stored options are valid at every moment of a run, and are those of the last request that was
answered to have stored some. A request to store options that fails, as it reads them or as it checks
them, changes nothing, and no other step changes what is stored. So what took the stored options names
files with an extension and a number strictly below their bound. -/
theorem stored_options_stay_valid :
    -- a session, step by step
    (∀ (s : Session.State) (source : Options.Source),
      Session.step s ⟨source, .setOptions⟩ =
        match source.read with
        | .error e => ({ result := .unread e }, s)
        | .ok given =>
          match (given.getD {}).validate with
          | .error f => ({ result := .ended (.error (.invalid f)) }, s)
          | .ok () => ({ result := .ended (.ok ()) }, { s with options := given.getD {} })) ∧
    (∀ (s : Session.State) (r : Session.Request), r.step ≠ .setOptions →
      (Session.step s r).2.options = s.options) ∧
    -- a run of a session
    (∀ (start : Session.State) (requests : List Session.Request), start.options = {} →
      let (replies, s) := Session.run start requests
      s.options = (Session.storedBy requests replies).getLast?.getD {} ∧ s.options.validate = .ok ()) ∧
    -- a trigger of a session that is run
    (∀ (start : Session.State) (requests : List Session.Request) (r : Session.Request)
        (slot : Session.Slot) (handle : String) (i : Nat) (t : Trigger),
      let s := (Session.run start.cleared requests).2
      start.options = {} → Session.ran? r = some (slot, handle) → s.occupant? slot = some (i, t) →
      ∃ before b after given, requests = before ++ b :: after ∧
        (∃ u, Session.built? (Session.run start.cleared before).2 b = some (slot, u)) ∧
        Session.Unbuilt slot (Session.run start.cleared (before ++ [b])).2 after ∧
        b.options.read = .ok given ∧
        (given = none →
          t.options = (Session.run start.cleared before).2.options ∧ t.options.validate = .ok () ∧
          (∀ saver d, Session.handed? s r = some (saver, d) → t.options.NamesStrictly d.filename) ∧
          ∀ e ∈ (Session.step s r).1.events, ∀ name, e.filename? = some name →
            t.options.NamesStrictly name)) ∧
    -- bytes that a session saves with the stored options
    (∀ (start : Session.State) (requests : List Session.Request) (name : String) (bytes : List UInt8),
      let s := (Session.run start requests).2
      let r : Session.Request := ⟨.absent, .saveBytes name bytes⟩
      start.options = {} →
      (∀ saver d, Session.handed? s r = some (saver, d) → s.options.NamesStrictly d.filename) ∧
      ∀ e ∈ (Session.step s r).1.events, ∀ name, e.filename? = some name →
        s.options.NamesStrictly name) ∧
    -- a page, step by step
    (∀ (s : Page.State) (v : Page.Literal),
      Page.step s (.configure v) =
        match Page.optionsOf v with
        | .error e => ({ result := .exported (.error e) }, s)
        | .ok o =>
          match o.validate with
          | .error f => ({ result := .exported (.error (.invalid f)) }, s)
          | .ok () => ({ result := .exported (.ok ()) }, { s with options := o })) ∧
    (∀ (s : Page.State) (x : Page.Step), (∀ v, x ≠ .configure v) →
      (Page.step s x).2.options = s.options) ∧
    -- a run of a page
    (∀ (start : Page.State) (steps : List Page.Step), start.options = {} →
      let (replies, s) := Page.run start steps
      s.options = (Page.storedBy steps replies).getLast?.getD {} ∧ s.options.validate = .ok ()) ∧
    -- a function of a page that is called, and bytes that a page saves
    (∀ (start : Page.State) (steps : List Page.Step), start.options = {} →
      let s := (Page.run start.cleared steps).2
      (∀ name function argument o, s.importedFunction? name function = some (.deliver o) →
        o.validate = .ok () ∧
        ∀ e ∈ (Page.step s (.call name function argument)).1.events, ∀ name, e.filename? = some name →
          o.NamesStrictly name) ∧
      ∀ bytes, ∀ e ∈ (Page.step s (.saveBytes bytes)).1.events, ∀ name, e.filename? = some name →
        s.options.NamesStrictly name) := by
  refine ⟨Session.step_setOptions, ?_, ?_, ?_, ?_, Page.step_configure, ?_, ?_, ?_⟩
  · intro s r hr
    refine Session.step_options_of_other s ?_
    obtain ⟨source, x⟩ := r
    cases x with
    | setOptions => exact absurd rfl hr
    | _ => rfl
  · intro start requests hstart
    have hvalid : start.options.Valid := hstart ▸ Options.valid_default
    refine ⟨?_, (Options.validate_eq_ok_iff _).2 (Session.storesValid.run_valid hvalid requests)⟩
    have hlast := Session.storesValid.run_options start requests
    rwa [hstart] at hlast
  · intro start requests r slot handle i t s hstart hran hslot
    obtain ⟨before, b, after, given, hsplit, hbuilt, hunbuilt, hread, hoptions⟩ :=
      Session.exists_moment_of_occupant hslot
    refine ⟨before, b, after, given, hsplit, hbuilt, hunbuilt, hread, ?_⟩
    rintro rfl
    have hvalid : t.options.Valid := by
      rw [hoptions]
      have hcleared : start.cleared.options.Valid := hstart ▸ Options.valid_default
      exact Session.storesValid.run_valid hcleared before
    refine ⟨hoptions, (Options.validate_eq_ok_iff _).2 hvalid, fun saver d hd => ?_,
      fun e he name hname => ?_⟩
    · exact hvalid.namesStrictly (Session.names_of_handed hran hslot hd)
    · exact hvalid.namesStrictly (Session.step_emits_named hran hslot e he name hname)
  · intro start requests name bytes s r hstart
    have hstartValid : start.options.Valid := hstart ▸ Options.valid_default
    have hvalid : s.options.Valid := Session.storesValid.run_valid hstartValid requests
    obtain ⟨hhanded, hevents⟩ := Session.step_saveBytes_named s name bytes
    exact ⟨fun saver d hd => hvalid.namesStrictly (hhanded saver d hd),
      fun e he file hfile => hvalid.namesStrictly (hevents e he file hfile)⟩
  · intro s x hx
    exact (Page.step_stays s hx).options
  · intro start steps hstart
    have hvalid : start.options.Valid := hstart ▸ Options.valid_default
    refine ⟨?_, (Options.validate_eq_ok_iff _).2 (Page.storesValid.run_valid hvalid steps)⟩
    have hlast := Page.storesValid.run_options start steps
    rwa [hstart] at hlast
  · intro start steps hstart s
    have hstartValid : start.options.Valid := hstart ▸ Options.valid_default
    have hstored : s.options.Valid := Page.storesValid.run_valid (s := start.cleared) hstartValid steps
    refine ⟨fun name function argument o hfunction => ?_, fun bytes e he name hname => ?_⟩
    · obtain ⟨ref, href⟩ := Page.exists_kind_of_importedFunction hfunction
      have hvalid : o.Valid := Page.valid_of_deliver hstartValid href
      refine ⟨(Options.validate_eq_ok_iff _).2 hvalid, fun e he file hfile => ?_⟩
      exact hvalid.namesStrictly (Page.step_call_emits_named argument hfunction e he file hfile)
    · exact hstored.namesStrictly (Page.step_saveBytes_emits_named s bytes e he name hname)

/-- Options that are refused after others were stored, and what takes the stored ones then. -/
theorem refused_options_leave_the_stored :
    (let stored : Session.Request :=
        ⟨.value (.object [("fileExtension", .string "jpg"), ("maxSuffix", .natural 1)]), .setOptions⟩
      let refused : Session.Request := ⟨.value (.object [("maxSuffix", .natural 0)]), .setOptions⟩
      let requests := [stored, refused, ⟨.absent, .buildTrigger "trigger" "saver" .inline⟩]
      let s := (Session.run {} requests).2
      s.options = { extension := "jpg", maxSuffix := 1 } ∧
      ∀ e ∈ (Session.step s ⟨.absent, .fire "trigger" "text"⟩).1.events, ∀ name,
        e.filename? = some name → s.options.NamesStrictly name) ∧
    (let steps : List Page.Step := [.nameImport "imports" (.plain []),
        .configure (.plain [("fileExtension", .string "jpg")]),
        .configure (.plain [("fileExtension", .string "")]), .register "imports"]
      let s := (Page.run {} steps).2
      s.options = { extension := "jpg" } ∧
      ∀ e ∈ (Page.step s (.call "imports" importName (.string "handle"))).1.events, ∀ name,
        e.filename? = some name → s.options.NamesStrictly name) := by
  obtain ⟨-, -, hsession, htrigger, -, -, -, hpage, hfunction⟩ := stored_options_stay_valid
  refine ⟨?_, ?_⟩
  · intro stored refused requests s
    have hoptions : s.options = { extension := "jpg", maxSuffix := 1 } :=
      (hsession {} requests rfl).1.trans (by decide +kernel)
    refine ⟨hoptions, ?_⟩
    obtain ⟨before, b, after, given, hsplit, ⟨u, hbuilt⟩, -, hread, hnamed⟩ :=
      htrigger {} requests ⟨.absent, .fire "trigger" "text"⟩ (.named "trigger") "text" 0
        ⟨.inline, .record, { extension := "jpg", maxSuffix := 1 }⟩ rfl rfl rfl
    have hb : b ∈ requests := by
      rw [hsplit]
      simp
    have hgiven : given = none := by
      simp only [requests, List.mem_cons, List.not_mem_nil, or_false] at hb
      obtain rfl | rfl | rfl := hb
      · cases hbuilt
      · cases hbuilt
      · exact (Except.ok.inj hread).symm
    rw [hoptions]
    exact (hnamed hgiven).2.2.2
  · intro steps s
    have hoptions : s.options = { extension := "jpg" } :=
      (hpage {} steps rfl).1.trans (by decide +kernel)
    refine ⟨hoptions, ?_⟩
    rw [hoptions]
    exact ((hfunction {} steps rfl).1 "imports" importName (.string "handle") { extension := "jpg" }
      rfl).2

end SaveAs
