import SaveAs.Page.Step
import SaveAs.Proofs.Page.Growing
import SaveAs.Proofs.Page.Running

/-!
# Actions that have nothing to do with the stored options

All that a page does but three things is aloof from the stored options: it does the same whatever they
are, and leaves them alone. Configuring changes them, and registering and saving bytes take them. Only
registering makes delivering functions, each for the options of that moment.
-/

namespace SaveAs.Page

def State.withOptions (s : State) (o : Options) : State := { s with options := o }

theorem Unseen.withOptions (o : Options) : Unseen (·.withOptions o) := by
  constructor <;> intros <;> rfl

/-- The stored options are the same, and the heap has only grown. -/
structure Stays (p : Options → Prop) (s s' : State) : Prop where
  options : s'.options = s.options
  heap : Heap.Grown p s.heap s'.heap

/-- An action that does the same whatever options are stored, leaves them alone, and only adds to the
heap. -/
structure Aloof {α : Type} (p : Options → Prop) (x : Act α) : Prop where
  stays : ∀ s, Stays p s (x s).world
  blind : ∀ o, x.Blind (·.withOptions o)

variable {α β : Type} {p q : Options → Prop} {s : State}

theorem Stays.refl (p : Options → Prop) (s : State) : Stays p s s :=
  ⟨rfl, .refl p s.heap⟩

theorem Stays.mono (hpq : ∀ o, p o → q o) {s' : State} (h : Stays p s s') : Stays q s s' :=
  ⟨h.options, h.heap.mono hpq⟩

theorem stays_bind {x : Act α} {k : α → Act β} (hx : Stays p s (x s).world)
    (hk : ∀ a, (x s).result = .ok a → Stays p (x s).world (k a (x s).world).world) :
    Stays p s ((x >>= k) s).world := by
  cases hout : x s with
  | mk result events w =>
    rw [hout] at hx hk
    cases result with
    | ok a =>
      rw [Action.bind_of_ok hout]
      exact ⟨(hk a rfl).options.trans hx.options, hx.heap.trans (hk a rfl).heap⟩
    | error e =>
      rw [Action.bind_of_error hout]
      exact hx

namespace Aloof

theorem bind {x : Act α} {k : α → Act β} (hx : Aloof p x) (hk : ∀ a, Aloof p (k a)) :
    Aloof p (x >>= k) where
  stays s := stays_bind (hx.stays s) fun a _ => (hk a).stays (x s).world
  blind o := (hx.blind o).bind fun a => (hk a).blind o

theorem pure (a : α) : Aloof p (pure a : Act α) := ⟨Stays.refl p, fun _ => .pure a⟩

theorem fail (e : Failure) : Aloof p (.fail e : Act α) := ⟨Stays.refl p, fun _ => .fail e⟩

theorem emit (event : Event) : Aloof p (.emit event : Act Unit) := ⟨Stays.refl p, fun _ => .emit event⟩

theorem read {g : State → α} (hg : ∀ s o, g (s.withOptions o) = g s) : Aloof p (.read g : Act α) :=
  ⟨Stays.refl p, fun o => .read fun s => hg s o⟩

theorem modify {g : State → State} (hstays : ∀ s, (g s).options = s.options ∧ (g s).heap = s.heap)
    (hblind : ∀ s o, g (s.withOptions o) = (g s).withOptions o) : Aloof p (.modify g : Act Unit) where
  stays s := by
    refine ⟨(hstays s).1, ?_⟩
    show Heap.Grown p s.heap (g s).heap
    rw [(hstays s).2]
    exact .refl p s.heap
  blind o := .modify fun s => hblind s o

/-- What no unseen change touches has nothing to do with the options and the heap. -/
theorem of_unseen {x : Act α} (h : ∀ f, Unseen f → x.Blind f) : Aloof p x where
  stays s := by
    let f (w : State) : State := { w with options := s.options, heap := s.heap }
    have hf : Unseen f := by constructor <;> intros <;> rfl
    have hworld : f (x s).world = (x s).world := (h f hf).world_eq rfl
    have hheap : (x s).world.heap = s.heap := (congrArg State.heap hworld).symm
    refine ⟨(congrArg State.options hworld).symm, ?_⟩
    rw [hheap]
    exact .refl p s.heap
  blind o := h _ (.withOptions o)

theorem attempt (names : List String) (wrap : Literal → Failure) {x : Act α} (hx : Aloof p x) :
    Aloof p (attempt names wrap x) where
  stays s := by
    rw [Page.attempt]
    split
    · exact .refl p s
    · exact hx.stays s
  blind o := (Unseen.withOptions o).attempt names wrap (hx.blind o)

theorem offered {offers : State → Bool} (hoffers : ∀ s o, offers (s.withOptions o) = offers s)
    (e : Failure) {x : Act α} (hx : Aloof p x) :
    Aloof p (do
      if !(← .read offers) then .fail e
      x) :=
  (read hoffers).bind fun there => by
    cases there
    · exact (fail e).bind fun _ => hx
    · exact hx

theorem document : Aloof p document := .of_unseen fun _ hf => hf.document

theorem log (line : Line) : Aloof p (log line) := .of_unseen fun _ hf => hf.log line

theorem installHook (hook : ClickHook) : Aloof p (installHook hook) :=
  .of_unseen fun _ hf => hf.installHook hook

/-! ### Objects -/

theorem addObject {object : Object} (hobject : ∀ o, object.kind = .function (.deliver o) → p o) :
    Aloof p (addObject object) :=
  ⟨fun s => ⟨rfl, .add s.heap hobject⟩, fun _ _ => rfl⟩

theorem place (v : Literal) : Aloof p (place v) :=
  ⟨fun s => ⟨rfl, .place p s.heap v⟩, fun _ _ => rfl⟩

theorem readProperty (target : Value) (name : String) (wrap : Literal → Failure) :
    Aloof p (readProperty target name wrap) where
  stays s := by
    rw [Page.readProperty]
    split <;> exact .refl p s
  blind o s := by
    have hheap : (s.withOptions o).heap = s.heap := rfl
    simp only [Page.readProperty, hheap]
    cases s.heap.read target name <;> rfl

theorem writeProperty (target : Value) (name : String) (v : Value) (wrap : Literal → Failure) :
    Aloof p (writeProperty target name v wrap) where
  stays s := by
    rw [Page.writeProperty]
    split
    · rename_i heap hwrite
      exact ⟨rfl, .write p hwrite⟩
    · exact .refl p s
  blind o s := by
    have hheap : (s.withOptions o).heap = s.heap := rfl
    simp only [Page.writeProperty, hheap]
    cases s.heap.write target name v <;> rfl

theorem openEnv (target : Value) : Aloof p (openEnv target) := by
  refine (readProperty target "env" .envNotRead).bind fun env => ?_
  have hmade : Aloof p (do
      let env ← Page.addObject { kind := .plain }
      Page.writeProperty target "env" env .envNotCreated
      Pure.pure env) :=
    (addObject fun o h => by cases h).bind fun env =>
      (writeProperty target "env" env .envNotCreated).bind fun _ => pure env
  have hchecked : ∀ env, Aloof p (do
      if (← .read (·.heap.isObject env)) then Pure.pure env else .fail .envNotObject : Act Value) :=
    fun env => (read fun _ _ => rfl).bind fun b => by
      cases b
      · exact fail _
      · exact pure env
  cases env with
  | undefined => exact hmade
  | null => exact hmade
  | _ => exact hchecked _

theorem define (env : Value) (name : String) {f : Function} (hf : ∀ o, f = .deliver o → p o) :
    Aloof p (define env name f) :=
  (addObject fun o h => hf o (Kind.function.inj h)).bind fun v =>
    writeProperty env name v (.notDefined name)

theorem consumeHandle (handle : Value) : Aloof p (consumeHandle handle) :=
  .offered (fun _ _ => rfl) _ (.attempt _ _ ⟨fun s => ⟨rfl, .refl p s.heap⟩, fun _ _ => rfl⟩)

theorem resolve (handle : Value) : Aloof p (resolve handle) := by
  refine (consumeHandle handle).bind fun v => ?_
  cases v with
  | string payload => exact pure payload
  | _ => exact fail _

theorem deliver {payload : Act String} (hpayload : Aloof p payload) (o : Options) :
    Aloof p (deliver payload o) :=
  (log _).bind fun _ => hpayload.bind fun payload =>
    (of_unseen fun _ hf => hf.drawName o).bind fun filename => (log _).bind fun _ =>
      (of_unseen fun _ hf => hf.save ⟨payload, o.mimeType, filename⟩).bind fun _ =>
        log (.checkpoint (.triggered filename))

theorem addPlugin (plugin : Value) : Aloof p (addPlugin plugin) :=
  .offered (fun _ _ => rfl) _ (.attempt _ _ ⟨fun s => ⟨rfl, .refl p s.heap⟩, fun _ _ => rfl⟩)

theorem descriptor : Aloof p descriptor :=
  (addObject fun o h => by cases h).bind fun _ => addObject fun o h => by cases h

theorem shown {x : Act Value} (hx : Aloof p x) : Aloof p (shown x) :=
  hx.bind fun _ => read fun _ _ => rfl

theorem start : Aloof p start :=
  (modify (g := ({ · with logging := true })) (fun _ => ⟨rfl, rfl⟩) fun _ _ => rfl).bind fun _ =>
    (installHook .idle).bind fun _ => descriptor.bind fun plugin => (addPlugin plugin).bind fun _ =>
      log .pluginAdded

theorem callFunction {f : Function} (hf : f ≠ .register) (argument : Value) :
    Aloof p (callFunction f argument) := by
  cases f with
  | inert => exact pure _
  | register => exact absurd rfl hf
  | deliver o => exact (deliver (resolve argument) o).bind fun _ => pure _
  | probe failure =>
    refine (read fun _ _ => rfl).bind fun v => (emit _).bind fun _ => ?_
    cases failure with
    | none => exact pure _
    | some text => exact (fail _).bind fun _ => pure _

end Aloof

/-! ### Registrations -/

/-- A registration makes one delivering function, for the options stored now. -/
theorem registerImport_stays (target : Value) (s : State) :
    Stays (· = s.options) s (registerImport target s).world := by
  have henv := (Aloof.openEnv (p := (· = s.options)) target).stays s
  refine stays_bind henv fun env _ => ?_
  have hdocument := (Aloof.document (p := (· = s.options))).stays (openEnv target s).world
  refine stays_bind hdocument fun _ _ => ?_
  refine stays_bind (.refl _ _) fun o ho => ?_
  have hoptions : o = s.options := by
    rw [← henv.options, ← hdocument.options]
    exact (Except.ok.inj ho).symm
  refine (Aloof.define env importName fun o' h => ?_).stays _
  rw [← Function.deliver.inj h, hoptions]

theorem callFunction_stays (f : Function) (argument : Value) (s : State) :
    Stays (fun o => f = .register ∧ o = s.options) s (callFunction f argument s).world := by
  by_cases hf : f = .register
  · subst hf
    have hregister := (registerImport_stays argument s).mono fun o h =>
      (⟨rfl, h⟩ : Function.register = .register ∧ o = s.options)
    exact stays_bind hregister fun _ _ => .refl _ _
  · exact (Aloof.callFunction hf argument).stays s

theorem shown_stays {x : Act Value} (hx : Stays p s (x s).world) : Stays p s (shown x s).world :=
  stays_bind hx fun _ _ => .refl p _

theorem saveBytes_stays (bytes : List UInt8) (s : State) : Stays p s (saveBytes bytes s).world :=
  stays_bind (Aloof.document.stays s) fun _ _ => stays_bind (.refl p _) fun o _ =>
    (Aloof.deliver (Aloof.pure _) o).stays _

theorem configure_world (v : Literal) (s : State) :
    ∃ o, (configure v s).world = { s with options := o } := by
  rw [configure]
  cases optionsOf v with
  | error e => exact ⟨s.options, rfl⟩
  | ok o =>
    show ∃ o', ((Action.ofExcept (o.validate.mapError .invalid) >>= fun _ =>
      .modify fun s => { s with options := o } : Act Unit) s).world = { s with options := o' }
    cases o.validate with
    | error e => exact ⟨s.options, rfl⟩
    | ok u => exact ⟨o, rfl⟩

/-! ### Steps -/

/-- Whether a step calls for a registration, in a state of the page. -/
def State.registers (s : State) : Step → Bool
  | .register _ => true
  | .callPlugin plugin _ => s.pluginFunction? plugin = some .register
  | .call name function _ => s.importedFunction? name function = some .register
  | _ => false

/-- A step that does not configure leaves the stored options alone. Only registrations make delivering
functions, each for the options stored at that moment. -/
theorem step_stays (s : State) {x : Step} (hx : ∀ v, x ≠ .configure v) :
    Stays (fun o => s.registers x = true ∧ o = s.options) s (step s x).2 := by
  cases x with
  | start => exact Aloof.start.stays s
  | configure v => exact absurd rfl (hx v)
  | saveBytes bytes => exact saveBytes_stays bytes s
  | addHandle name v => exact ⟨rfl, .place _ s.heap v⟩
  | nameImport name v => exact ⟨rfl, .place _ s.heap v⟩
  | callPlugin plugin name =>
    rw [step]
    cases hf : s.pluginFunction? plugin with
    | none => exact .refl _ s
    | some f =>
      refine shown_stays ((callFunction_stays f (s.importObject name) s).mono fun o h => ⟨?_, h.2⟩)
      rw [State.registers, hf, h.1]
      exact decide_eq_true rfl
  | register name =>
    exact (registerImport_stays (s.importObject name) s).mono fun o h => ⟨rfl, h⟩
  | call name function argument =>
    rw [step]
    cases hf : s.importedFunction? name function with
    | none => exact .refl _ s
    | some f =>
      have hplaced := (Aloof.place (p := fun o =>
        s.registers (.call name function argument) = true ∧ o = s.options) argument).stays s
      refine shown_stays (stays_bind hplaced fun v _ => ?_)
      refine (callFunction_stays f v _).mono fun o h => ⟨?_, h.2.trans hplaced.options⟩
      rw [State.registers, hf, h.1]
      exact decide_eq_true rfl
  | define name function failure =>
    refine (Aloof.bind (Aloof.openEnv _) fun env => Aloof.define env function fun o h => ?_).stays s
    cases h
  | resolve handle => exact (Aloof.bind (Aloof.place handle) Aloof.resolve).stays s
  | document => exact Aloof.document.stays s
  | descriptor => exact Aloof.descriptor.shown.stays s
  | setHook hook => exact (Aloof.installHook hook).stays s
  | change settings => exact ⟨rfl, .refl _ s.heap⟩
  | _ => exact .refl _ s

theorem step_grown (s : State) (x : Step) :
    Heap.Grown (fun o => s.registers x = true ∧ o = s.options) s.heap (step s x).2.heap := by
  cases x with
  | configure v =>
    obtain ⟨o, hworld⟩ := configure_world v s
    show Heap.Grown _ s.heap (configure v s).world.heap
    rw [hworld]
    exact .refl _ s.heap
  | _ => exact (step_stays s fun v h => by cases h).heap

end SaveAs.Page
