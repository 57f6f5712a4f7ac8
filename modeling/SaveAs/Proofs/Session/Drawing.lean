import SaveAs.Proofs.FileName
import SaveAs.Proofs.Session.Checkpoints
import SaveAs.Proofs.Session.Files

/-!
# What is drawn from the generator

Of all that a session does, only a trigger that is fired by name draws from the generator, and only if its
resolver gives a payload: one name for its own options, whatever its saver then makes of it. So the names
of a run are those that would be drawn one after another from the words that were set last, and the words
that are gone are the one or two of each of these names. `step_generator` says this of one step and
`Accounted.run` of a run.
-/

namespace SaveAs

namespace Options

/-- The names that a generator gives one after another, each for its own options, and the generator after
them. -/
def drawNames : List Options → Generator → List String × Generator
  | [], g => ([], g)
  | o :: rest, g =>
    let (name, g) := o.fileName g
    let (names, g) := drawNames rest g
    (name :: names, g)

theorem drawNames_replicate (o : Options) (count : Nat) (g : Generator) :
    drawNames (List.replicate count o) g = o.fileNames count g := by
  induction count generalizing g with
  | zero => rfl
  | succ count ih =>
    rw [List.replicate_succ, drawNames, fileNames]
    simp only [ih]

/-- The last of the names is drawn from what the others have left. -/
theorem drawNames_concat (options : List Options) (o : Options) (g : Generator) :
    drawNames (options ++ [o]) g =
      ((drawNames options g).1 ++ [(o.fileName (drawNames options g).2).1],
        (o.fileName (drawNames options g).2).2) := by
  induction options generalizing g with
  | nil => rfl
  | cons first rest ih =>
    rw [List.cons_append, drawNames, drawNames]
    simp only [ih, List.cons_append]

/-- How many words the next name takes. -/
def wordsFor (o : Options) (g : Generator) : Nat :=
  Generator.wordsNeeded (g.word g.drawn) o.bound

theorem drawn_fileName (o : Options) (g : Generator) :
    (o.fileName g).2.drawn = g.drawn + o.wordsFor g :=
  rfl

theorem wordsFor_eq (o : Options) (g : Generator) : o.wordsFor g = 1 ∨ o.wordsFor g = 2 := by
  rw [wordsFor, Generator.wordsNeeded]
  split
  · exact .inr rfl
  · exact .inl rfl

end Options

namespace Session

/-- The words that a request sets the generator to. -/
def setWords? (r : Request) : Option (List UInt32) :=
  match r.options.read, r.step with
  | .ok _, .setGenerator words => some words
  | _, _ => none

namespace Moment

/-- The options that a moment draws a name for from the generator: those of a trigger that is fired by its
name, if its resolver gives a payload. -/
def drawn? (m : Moment) : Option Options :=
  match m.request.options.read, m.request.step with
  | .ok _, .fire name handle =>
    (trigger? m.state name).bind fun (_, t) =>
      match (Resolver.resolve handle t.resolver).result with
      | .ok _ => some t.options
      | .error _ => none
  | _, _ => none

/-- How many words a moment draws from the generator. -/
def wordCount (m : Moment) : Nat :=
  (m.drawn?.map (·.wordsFor m.state.generator)).getD 0

/-- The name that a moment draws from the generator: that of the download which it hands to a saver. -/
def drawnName? (m : Moment) : Option String :=
  m.drawn?.bind fun _ => (handed? m.state m.request).map (·.2.filename)

end Moment

variable {s : State} {r : Request} {f : Firing} {o : Options} {words : List UInt32}

/-! ### One step -/

theorem step_of_setWords (h : setWords? r = some words) (s : State) :
    (step s r).2.generator = .cycle words := by
  obtain ⟨source, x⟩ := r
  cases hread : source.read with
  | error e => simp only [setWords?, hread, reduceCtorEq] at h
  | ok given =>
    simp only [setWords?, hread] at h
    cases x with
    | setGenerator other =>
      obtain rfl := Option.some.inj h
      rw [step_of_read hread]
      rfl
    | _ => cases h

/-- The options that a run of a trigger draws a name for from the generator. -/
def Firing.drawn? (f : Firing) : Option Options :=
  match f.source, f.resolved.result with
  | .generator, .ok _ => some f.trigger.options
  | _, _ => none

theorem drawn?_of_fired (h : fired? s r = some f) : Moment.drawn? ⟨s, r⟩ = f.drawn? := by
  cases fires_of_fired h with
  | @named source given name handle i t hread htrigger =>
    simp only [Moment.drawn?, hread, htrigger, Option.bind_some, Firing.drawn?, Firing.resolved]
    cases (Resolver.resolve handle t.resolver).result <;> rfl
  | hosted hread =>
    simp only [Moment.drawn?, hread]
    rfl
  | direct hread =>
    simp only [Moment.drawn?, hread]
    rfl

theorem drawn?_of_unfired (h : fired? s r = none) : Moment.drawn? ⟨s, r⟩ = none := by
  obtain ⟨source, x⟩ := r
  cases hread : source.read with
  | error e => simp only [Moment.drawn?, hread]
  | ok given =>
    simp only [fired?, hread] at h
    cases x with
    | fire name handle =>
      simp only [Moment.drawn?, hread, Option.map_eq_none_iff.1 h, Option.bind_none]
    | _ => simp only [Moment.drawn?, hread]

theorem setWords?_of_drawn {m : Moment} (h : m.drawn? = some o) : setWords? m.request = none := by
  rw [Moment.drawn?] at h
  split at h
  · rename_i hread hstep
    simp only [setWords?, hread, hstep]
  · cases h

theorem saveWith_generator (saver : Saver) (d : Download) (s : State) :
    (saveWith saver d s).world.generator = s.generator := by
  obtain ⟨documents, hworld⟩ := saveWith_world saver d s
  rw [hworld]

/-- A trigger draws its name once its resolver has given a payload, before its saver is asked. -/
theorem Firing.run_generator (f : Firing) (s : State) :
    (f.run s).world.generator = f.drawn?.elim s.generator fun o => (o.fileName s.generator).2 := by
  rw [drawn?]
  cases hresolved : f.resolved.result with
  | error e =>
    rw [run_of_unresolved hresolved]
    cases f.source <;> rfl
  | ok payload =>
    rw [run_of_resolved hresolved, saved, saveWith_generator]
    cases f.source <;> rfl

theorem step_generator_of_idle (hfired : fired? s r = none) (hhanded : handed? s r = none)
    (hset : setWords? r = none) : (step s r).2.generator = s.generator := by
  obtain ⟨source, x⟩ := r
  cases hread : source.read with
  | error e => rw [step_of_unread hread]
  | ok given =>
    rw [step_of_read hread]
    simp only [fired?, hread] at hfired
    simp only [handed?, hread] at hhanded
    simp only [setWords?, hread] at hset
    cases x with
    | save saver d => cases hhanded
    | saveBytes saver bytes => cases hfired
    | setGenerator words => cases hset
    | fire name handle => rw [perform, Option.map_eq_none_iff.1 hfired]
    | call name function handle => rw [perform, Option.map_eq_none_iff.1 hfired]
    | setOptions =>
      simp only [perform, replyOf, setOptions]
      cases (given.getD {}).validate <;> rfl
    | defineSaver name plan => cases plan <;> rfl
    | register name saver resolver =>
      cases hrejection : (s.space name).rejection with
      | some text => rw [perform_register_of_rejected hrejection]
      | none =>
        obtain ⟨spaces, hperform, -⟩ := perform_register_of_accepted given saver resolver hrejection
        rw [hperform]
    | fireHook name =>
      rw [perform]
      cases s.hooks.get? name <;> rfl
    | writeFile path bytes =>
      rw [perform]
      cases s.files.write s.home (Path.home.join path) bytes <;> rfl
    | _ => rfl

/-- What a step leaves of the generator: new words if it sets them, what one name leaves if it fires a
trigger with a payload, and otherwise all of it. -/
theorem step_generator (s : State) (r : Request) :
    (step s r).2.generator =
      match setWords? r with
      | some words => .cycle words
      | none => (Moment.drawn? ⟨s, r⟩).elim s.generator fun o => (o.fileName s.generator).2 := by
  cases hset : setWords? r with
  | some words => exact step_of_setWords hset s
  | none =>
    cases hfired : fired? s r with
    | some f =>
      obtain ⟨-, -, g, hg, hstate⟩ := step_of_fired hfired
      rw [hstate, hg.generator, f.run_generator, drawn?_of_fired hfired]
    | none =>
      rw [drawn?_of_unfired hfired, Option.elim_none]
      obtain hhanded | ⟨saver, d, -, hstep⟩ := handed?_of_unfired hfired
      · exact step_generator_of_idle hfired hhanded hset
      · rw [hstep]
        exact saveWith_generator (s.saver saver) d s

/-- A moment that draws a name hands a download of that name to a saver, and logs it. -/
theorem Moment.named_of_drawn {m : Moment} (h : m.drawn? = some o) :
    ∃ saver d bytes, handed? m.state m.request = some (saver, d) ∧
      d.filename = (o.fileName m.state.generator).1 ∧
      .log (.resolved d.filename bytes) ∈ m.reply.events := by
  cases hfired : fired? m.state m.request with
  | none =>
    have hnone : m.drawn? = none := drawn?_of_unfired hfired
    rw [hnone] at h
    cases h
  | some f =>
    have hdrawn : m.drawn? = f.drawn? := drawn?_of_fired hfired
    rw [hdrawn, Firing.drawn?] at h
    split at h
    · rename_i payload hsource hresolved
      obtain rfl := Option.some.inj h
      have hlogged := logged_of_resolved hfired hresolved
      have hmem := hlogged.resolved_iff.2 ⟨payload, hresolved⟩
      obtain ⟨e, he, hcheckpoint⟩ := List.mem_filterMap.1 hmem
      refine ⟨_, _, payload.utf8ByteSize, handed?_of_resolved hfired hresolved, ?_, ?_⟩
      · show f.source.name f.trigger.options m.state = _
        rw [hsource]
        rfl
      · cases e <;> cases hcheckpoint
        exact he
    · cases h

namespace Moment

variable {m : Moment}

theorem wordCount_of_none (h : m.drawn? = none) : m.wordCount = 0 := by
  rw [wordCount, h]
  rfl

theorem wordCount_of_some (h : m.drawn? = some o) : m.wordCount = o.wordsFor m.state.generator := by
  rw [wordCount, h]
  rfl

theorem drawnName?_of_none (h : m.drawn? = none) : m.drawnName? = none := by
  rw [drawnName?, h]
  rfl

theorem drawnName?_of_some (h : m.drawn? = some o) :
    m.drawnName? = some (o.fileName m.state.generator).1 := by
  obtain ⟨saver, d, -, hhanded, hfilename, -⟩ := named_of_drawn h
  rw [drawnName?, h, hhanded, ← hfilename]
  rfl

/-- What a moment does with the generator. With options that a name is drawn for, that name is what the
moment hands on and logs, and it takes one word, or two where the first leaves the number open. Without
any, the generator stays, unless it is set. -/
def Draws (m : Moment) : Option Options → Prop
  | some o =>
    let g := m.state.generator
    (m.wordCount = 1 ∨ m.wordCount = 2) ∧
    (m.wordCount = 1 ↔ ∀ v v', Generator.pick (g.word g.drawn) v o.bound =
      Generator.pick (g.word g.drawn) v' o.bound) ∧
    (step m.state m.request).2.generator = { g with drawn := g.drawn + m.wordCount } ∧
    ∃ saver d bytes, handed? m.state m.request = some (saver, d) ∧
      m.drawnName? = some d.filename ∧ d.filename = (o.fileName g).1 ∧
      .log (.resolved d.filename bytes) ∈ m.reply.events
  | none =>
    m.wordCount = 0 ∧ m.drawnName? = none ∧
      (setWords? m.request = none → (step m.state m.request).2.generator = m.state.generator)

theorem draws (m : Moment) : m.Draws m.drawn? := by
  have hgenerator := step_generator m.state m.request
  cases hdrawn : m.drawn? with
  | none =>
    refine ⟨wordCount_of_none hdrawn, drawnName?_of_none hdrawn, fun hset => ?_⟩
    rw [hgenerator, hset, hdrawn]
    rfl
  | some o =>
    obtain ⟨saver, d, bytes, hhanded, hfilename, hlogged⟩ := named_of_drawn hdrawn
    refine ⟨?_, ?_, ?_, saver, d, bytes, hhanded, ?_, hfilename, hlogged⟩
    · rw [wordCount_of_some hdrawn]
      exact o.wordsFor_eq m.state.generator
    · simp only [wordCount_of_some hdrawn, Generator.pick_eq_scaled _ _ o.bound_pos o.bound_le]
      exact Generator.wordsNeeded_eq_one_iff _ o.bound_pos o.bound_le
    · rw [hgenerator, setWords?_of_drawn hdrawn, hdrawn, wordCount_of_some hdrawn]
      rfl
    · rw [drawnName?_of_some hdrawn, hfilename]

end Moment

/-! ### Runs -/

/-- A generator as it was set, and the moments since. -/
structure Stretch where
  generator : Generator
  moments : List Moment := []

namespace Stretch

def next (t : Stretch) (m : Moment) : Stretch :=
  match setWords? m.request with
  | some words => { generator := .cycle words }
  | none => { t with moments := t.moments ++ [m] }

/-- The options that names were drawn for in a stretch, in their order. -/
def options (t : Stretch) : List Options :=
  t.moments.filterMap Moment.drawn?

/-- How many words were drawn in a stretch. -/
def wordCount (t : Stretch) : Nat :=
  (t.moments.map Moment.wordCount).sum

/-- The names that were drawn in a stretch. -/
def names (t : Stretch) : List String :=
  t.moments.filterMap Moment.drawnName?

end Stretch

/-- What a run has done with its generator since that was last set. -/
def stretch (s : State) (requests : List Request) : Stretch :=
  (moments s requests).foldl Stretch.next { generator := s.generator }

/-- A stretch begins where the generator was last set, or else with the moments themselves. -/
theorem foldl_next_begins (g : Generator) (ms : List Moment) :
    let t := ms.foldl Stretch.next { generator := g }
    (∀ m ∈ t.moments, setWords? m.request = none) ∧
      (t.moments = ms ∧ t.generator = g ∨
        ∃ earlier m words, ms = earlier ++ m :: t.moments ∧ setWords? m.request = some words ∧
          t.generator = .cycle words) := by
  induction ms using List.reverseRecOn with
  | nil => exact ⟨fun m hm => absurd hm List.not_mem_nil, .inl ⟨rfl, rfl⟩⟩
  | append_singleton ms m ih =>
    intro t
    obtain ⟨hunset, hbegins⟩ := ih
    have ht : t = (ms.foldl Stretch.next { generator := g }).next m :=
      List.foldl_concat ..
    rw [ht, Stretch.next]
    cases hset : setWords? m.request with
    | some words =>
      exact ⟨fun m hm => absurd hm List.not_mem_nil, .inr ⟨ms, m, words, rfl, hset, rfl⟩⟩
    | none =>
      refine ⟨fun m' hm' => ?_, ?_⟩
      · obtain hm' | hm' := List.mem_append.1 hm'
        · exact hunset m' hm'
        · rw [List.mem_singleton.1 hm', hset]
      · obtain ⟨hmoments, hgenerator⟩ | ⟨earlier, m', words, hsplit, hwords, hgenerator⟩ := hbegins
        · exact .inl ⟨congrArg (· ++ [m]) hmoments, hgenerator⟩
        · refine .inr ⟨earlier, m', words, ?_, hwords, hgenerator⟩
          rw [← List.cons_append, ← List.append_assoc, ← hsplit]

/-- A generator after a stretch is what drawing the names of the stretch leaves. -/
structure Accounted (t : Stretch) (g : Generator) : Prop where
  drawn : g.drawn = t.generator.drawn + t.wordCount
  generator : g = (Options.drawNames t.options t.generator).2
  names : t.names = (Options.drawNames t.options t.generator).1

variable {t : Stretch} {m : Moment}

theorem Accounted.start (g : Generator) : Accounted { generator := g } g :=
  ⟨rfl, rfl, rfl⟩

/-- A moment that draws nothing leaves the account as it is. -/
theorem Accounted.pass {g : Generator} (h : Accounted t g) (hnone : m.drawn? = none) :
    Accounted { t with moments := t.moments ++ [m] } g := by
  have hcount := Moment.wordCount_of_none hnone
  have hname := Moment.drawnName?_of_none hnone
  obtain ⟨hdrawn, hgenerator, hnames⟩ := h
  constructor
  · simpa [Stretch.wordCount, hcount] using hdrawn
  · simpa [Stretch.options, hnone] using hgenerator
  · simpa [Stretch.options, Stretch.names, hnone, hname] using hnames

theorem Accounted.draw (h : Accounted t m.state.generator) (hsome : m.drawn? = some o) :
    Accounted { t with moments := t.moments ++ [m] } (o.fileName m.state.generator).2 := by
  have hcount := Moment.wordCount_of_some hsome
  have hname := Moment.drawnName?_of_some hsome
  have hoptions : Stretch.options { t with moments := t.moments ++ [m] } = t.options ++ [o] := by
    simp [Stretch.options, hsome]
  obtain ⟨hdrawn, hgenerator, hnames⟩ := h
  constructor
  · rw [Options.drawn_fileName, hdrawn]
    simp [Stretch.wordCount, hcount, Nat.add_assoc]
  · rw [hoptions, Options.drawNames_concat, ← hgenerator]
  · rw [hoptions, Options.drawNames_concat, ← hgenerator, ← hnames]
    simp [Stretch.names, hname]

theorem Accounted.step (h : Accounted t s.generator) (r : Request) :
    Accounted (t.next ⟨s, r⟩) (step s r).2.generator := by
  rw [step_generator]
  cases hset : setWords? r with
  | some words =>
    simp only [Stretch.next, hset]
    exact .start _
  | none =>
    simp only [Stretch.next, hset]
    cases hdrawn : Moment.drawn? ⟨s, r⟩ with
    | none => exact h.pass hdrawn
    | some o => exact h.draw hdrawn

theorem Accounted.run (h : Accounted t s.generator) (requests : List Request) :
    Accounted ((moments s requests).foldl Stretch.next t) (run s requests).2.generator := by
  induction requests generalizing s t with
  | nil => exact h
  | cons r rest ih => exact ih (h.step r)

/-- Take any session, from where its generator was last set. The words that are drawn since are those of
the triggers that were fired and whose resolvers gave a payload, one or two of each, also of those whose
savers failed. No other request draws any. The names of these triggers, which their savers were handed and
the log shows, are the names that the words give one after another, each for its own trigger's options,
whatever else was asked in between; where the options are the same, they are the names for these. -/
theorem words_drawn_are_accounted (start : State) (requests : List Request) :
    let ms := moments start requests
    let t := stretch start requests
    let g := (run start requests).2.generator
    -- where the stretch begins
    ((∀ m ∈ t.moments, setWords? m.request = none) ∧
      (t.moments = ms ∧ t.generator = start.generator ∨
        ∃ earlier m words, ms = earlier ++ m :: t.moments ∧ setWords? m.request = some words ∧
          t.generator = .cycle words)) ∧
    -- what is drawn in it
    (g.drawn = t.generator.drawn + (t.moments.map Moment.wordCount).sum ∧
      (start.generator.drawn = 0 → t.generator.drawn = 0)) ∧
    (t.moments.filterMap Moment.drawnName?, g) =
      Options.drawNames (t.moments.filterMap Moment.drawn?) t.generator ∧
    (∀ o count, Options.drawNames (List.replicate count o) t.generator = o.fileNames count t.generator) ∧
    -- what each moment draws
    ∀ m ∈ ms, m.Draws m.drawn? := by
  intro ms t g
  have hbegins := foldl_next_begins start.generator ms
  obtain ⟨hdrawn, hgenerator, hnames⟩ := (Accounted.start start.generator).run requests
  refine ⟨hbegins, ⟨hdrawn, fun hstart => ?_⟩, Prod.ext hnames hgenerator,
    fun o count => o.drawNames_replicate count t.generator, fun m _ => m.draws⟩
  obtain ⟨-, hbegins⟩ := hbegins
  obtain ⟨-, hsame⟩ | ⟨-, -, words, -, -, hset⟩ := hbegins
  · exact (congrArg Generator.drawn hsame).trans hstart
  · exact congrArg Generator.drawn hset

/-- Two triggers with bounds of their own share the words that were set, and neither a resolver that fails
nor a direct save nor a missing trigger takes any. The saver of the first one fails. -/
theorem two_triggers_share_words :
    let narrow : Options.Source :=
      .value (.object [("filePrefix", .string "shot"), ("maxSuffix", .natural 7)])
    let built : List Request := [⟨.absent, .defineSaver "full" (.failing "full")⟩,
      ⟨.absent, .buildTrigger "wide" "full" .inline⟩, ⟨narrow, .buildTrigger "narrow" "saver" .inline⟩,
      ⟨.absent, .buildTrigger "deaf" "saver" (.failing "deaf")⟩, ⟨.absent, .fire "narrow" "AAAA"⟩]
    let fired : List Request := [⟨.absent, .setGenerator [42950, 0xffffffff, 0x80000000]⟩,
      ⟨.absent, .fire "deaf" "AAAA"⟩, ⟨.absent, .fire "wide" "AAAA"⟩, ⟨.absent, .saveBytes "saver" [0]⟩,
      ⟨.absent, .fire "missing" "AAAA"⟩, ⟨.absent, .fire "narrow" "AAAA"⟩]
    let t := stretch {} (built ++ fired)
    (run {} (built ++ fired)).2.generator.drawn = 3 ∧
      t.moments.filterMap Moment.drawnName? = ["out1.png", "shot3.png"] ∧
      ∃ m ∈ moments {} (built ++ fired), m.reply.result = .ended (.error (.unsaved "full")) ∧
        (step m.state m.request).2.generator.drawn = m.state.generator.drawn + 2 := by
  intro narrow built fired t
  obtain ⟨-, ⟨hdrawn, hzero⟩, -, -, hmoments⟩ := words_drawn_are_accounted {} (built ++ fired)
  have hcount : (t.moments.map Moment.wordCount).sum = 3 := by decide +kernel
  let m : Moment := ⟨(run {} (built ++ fired.take 2)).2, ⟨.absent, .fire "wide" "AAAA"⟩⟩
  have hm : m ∈ moments {} (built ++ fired) := List.mem_of_getElem? (i := 7) rfl
  have hwords : m.wordCount = 2 := by decide +kernel
  have hdraws : m.Draws (some {}) := hmoments m hm
  obtain ⟨-, -, hgenerator, -⟩ := hdraws
  refine ⟨?_, by decide +kernel, m, hm, rfl, ?_⟩
  · rw [hdrawn, hcount, hzero rfl]
  · rw [hgenerator, hwords]

end Session

end SaveAs
