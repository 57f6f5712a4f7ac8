import SaveAs.Proofs.Session.Handing

/-!
# What becomes of the file tree

A session changes its file tree in three ways: as it is asked to make a directory, as it is asked to write
a file, and as a directory saver succeeds. A save that fails leaves the tree as it was, wherever it failed,
and one that succeeds writes one file. So the tree after a run is the first one with the changes of the
moments applied in their order, and a file that only saves have written is as the last of them left it.
-/

namespace SaveAs.Session

variable {s : State} {r : Request} {f : Firing} {saver : Saver} {d : Download} {dir : Path}
  {l : Location}

/-! ### One save -/

/-- The write that a save made, if it made one. -/
def written? (saver : Saver) (d : Download) (result : Except Failure Unit) : Option FileTree.Change :=
  match saver, result with
  | .directory dir, .ok () => (Base64.decode d.payload).toOption.map (.file (dir.join d.filename))
  | _, _ => none

/-- Why a save to a directory fails. -/
def Unsavable (s : State) (dir : Path) (d : Download) : Prop :=
  (∃ e, Base64.decode d.payload = .error e) ∨
    ∃ refusal, s.files.resolve s.home (dir.join d.filename) = .error refusal

theorem saveToDirectory_of_error {e : Failure} (h : (saveToDirectory dir d s).result = .error e) :
    (saveToDirectory dir d s).world = s ∧ Unsavable s dir d := by
  cases hbytes : Base64.decode d.payload with
  | error defect =>
    rw [saveToDirectory_of_undecodable hbytes]
    exact ⟨rfl, .inl ⟨defect, hbytes⟩⟩
  | ok bytes =>
    rw [saveToDirectory_of_decoded hbytes] at h ⊢
    cases hresolve : s.files.resolve s.home (dir.join d.filename) with
    | error refusal => exact ⟨rfl, .inr ⟨refusal, hresolve⟩⟩
    | ok l =>
      rw [hresolve] at h
      cases h

theorem saveToDirectory_of_ok (h : (saveToDirectory dir d s).result = .ok ()) :
    ∃ bytes l, Base64.decode d.payload = .ok bytes ∧
      s.files.resolve s.home (dir.join d.filename) = .ok l ∧
      (saveToDirectory dir d s).world = { s with files := s.files.put l (.file bytes) } := by
  cases hbytes : Base64.decode d.payload with
  | error defect =>
    rw [saveToDirectory_of_undecodable hbytes] at h
    cases h
  | ok bytes =>
    rw [saveToDirectory_of_decoded hbytes] at h ⊢
    cases hresolve : s.files.resolve s.home (dir.join d.filename) with
    | error refusal =>
      rw [hresolve] at h
      cases h
    | ok l => exact ⟨bytes, l, rfl, rfl, rfl⟩

/-- A save changes a recording document, or makes its write in the tree, and leaves all else as it was. -/
theorem saveWith_world (saver : Saver) (d : Download) (s : State) :
    ∃ documents, (saveWith saver d s).world =
      { s with
        documents := documents
        files := (written? saver d (saveWith saver d s).result).elim s.files (s.files.change s.home) } := by
  cases saver with
  | record => exact ⟨_, rfl⟩
  | failing text => exact ⟨_, rfl⟩
  | anchor i => exact ⟨_, rfl⟩
  | directory dir =>
    refine ⟨s.documents, ?_⟩
    rw [saveWith]
    cases hresult : (saveToDirectory dir d s).result with
    | error e => rw [(saveToDirectory_of_error hresult).1]; rfl
    | ok u =>
      obtain ⟨bytes, l, hbytes, hresolve, hworld⟩ := saveToDirectory_of_ok hresult
      have hwritten : written? (.directory dir) d (.ok u) =
          some (.file (dir.join d.filename) bytes) := by
        rw [written?, hbytes]
        rfl
      rw [hworld, hwritten, Option.elim_some, FileTree.change_file, hresolve]

theorem saveWith_files (saver : Saver) (d : Download) (s : State) :
    (saveWith saver d s).world.files =
        (written? saver d (saveWith saver d s).result).elim s.files (s.files.change s.home) ∧
      (saveWith saver d s).world.home = s.home := by
  obtain ⟨documents, hworld⟩ := saveWith_world saver d s
  rw [hworld]
  exact ⟨rfl, rfl⟩

/-! ### Steps -/

namespace Moment

/-- The write that a moment made as a saver, if it made one. -/
def saved? (m : Moment) : Option FileTree.Change :=
  match handed? m.state m.request, m.reply.result with
  | some (saver, d), .ended result => written? saver d result
  | _, _ => none

/-- What a moment does to the file tree: what it is asked to do, or the write of a save. -/
def change? (m : Moment) : Option FileTree.Change :=
  (Session.change? m.request).or m.saved?

/-- The bytes that a moment saved at a location. -/
def savedAt? (l : Location) (m : Moment) : Option (List UInt8) :=
  m.saved?.bind (·.bytesAt? m.state.files m.state.home l)

end Moment

/-- What asks for a change itself neither runs a trigger nor saves a download. -/
theorem idle_of_change {c : FileTree.Change} (h : change? r = some c) (s : State) :
    fired? s r = none ∧ handed? s r = none := by
  obtain ⟨source, x⟩ := r
  cases hread : source.read with
  | error e => simp only [fired?, handed?, hread, and_self]
  | ok given =>
    simp only [change?, hread] at h
    cases x with
    | makeDirectory path => simp only [fired?, handed?, hread, and_self]
    | writeFile path bytes => simp only [fired?, handed?, hread, and_self]
    | _ => cases h

theorem change?_of_fired (h : fired? s r = some f) : change? r = none := by
  cases hchange : change? r with
  | none => rfl
  | some c =>
    rw [(idle_of_change hchange s).1] at h
    cases h

theorem change?_of_handed (h : handed? s r = some (saver, d)) : change? r = none := by
  cases hchange : change? r with
  | none => rfl
  | some c =>
    rw [(idle_of_change hchange s).2] at h
    cases h

theorem change?_of_saved {result : Except Failure Unit} (hhanded : handed? s r = some (saver, d))
    (hresult : (step s r).1.result = .ended result) :
    Moment.change? ⟨s, r⟩ = written? saver d result := by
  simp only [Moment.change?, Moment.saved?, Moment.reply, change?_of_handed hhanded, hhanded, hresult,
    Option.none_or]

theorem change?_of_unsaved (hhanded : handed? s r = none) :
    Moment.change? ⟨s, r⟩ = Session.change? r := by
  simp only [Moment.change?, Moment.saved?, hhanded, Option.or_none]

theorem firing_files (hfired : fired? s r = some f) :
    (step s r).2.files = (Moment.change? ⟨s, r⟩).elim s.files (s.files.change s.home) ∧
      (step s r).2.home = s.home := by
  obtain ⟨hresult, -, g, hg, hstate⟩ := step_of_fired hfired
  rw [hstate, hg.files, hg.home]
  cases hresolved : f.resolved.result with
  | error e =>
    rw [change?_of_unsaved (handed?_of_unresolved hfired hresolved), change?_of_fired hfired,
      Firing.run_of_unresolved hresolved]
    exact ⟨rfl, rfl⟩
  | ok payload =>
    rw [change?_of_saved (handed?_of_resolved hfired hresolved) hresult,
      Firing.run_of_resolved hresolved]
    have hsaved := saveWith_files f.trigger.saver (f.handed payload s)
      (f.source.draw f.trigger.options s)
    rwa [Source.draw_files, Source.draw_home] at hsaved

/-- A step does to the tree what its moment says, and nothing else. -/
theorem step_files (s : State) (r : Request) :
    (step s r).2.files = (Moment.change? ⟨s, r⟩).elim s.files (s.files.change s.home) ∧
      (step s r).2.home = s.home := by
  cases hfired : fired? s r with
  | some f => exact firing_files hfired
  | none =>
    obtain hnone | ⟨saver, d, hhanded, hstep⟩ := handed?_of_unfired hfired
    · rw [change?_of_unsaved hnone]
      exact ⟨(step_idle hfired hnone).files, (step_idle hfired hnone).home⟩
    · rw [change?_of_saved hhanded (congrArg (·.1.result) hstep), hstep]
      exact saveWith_files (s.saver saver) d s

/-! ### Runs -/

theorem run_files (s : State) (requests : List Request) :
    (run s requests).2.files =
      ((moments s requests).filterMap Moment.change?).foldl (FileTree.change s.home) s.files := by
  induction requests generalizing s with
  | nil => rfl
  | cons r rest ih =>
    have hrest := ih (step s r).2
    obtain ⟨hfiles, hhome⟩ := step_files s r
    rw [hfiles, hhome] at hrest
    rw [moments, List.filterMap_cons]
    cases hchange : Moment.change? ⟨s, r⟩ <;>
    · rw [hchange] at hrest
      exact hrest

/-- No request of these moments asks to write a file at a location. Savers may write there. -/
def Unwritten (l : Location) (ms : List Moment) : Prop :=
  ∀ m ∈ ms, ∀ c, Session.change? m.request = some c → c.bytesAt? m.state.files m.state.home l = none

theorem step_holds (h : ∀ c, change? r = some c → c.bytesAt? s.files s.home l = none) :
    s.files.Holds l (step s r).2.files (Moment.savedAt? l ⟨s, r⟩) := by
  rw [(step_files s r).1, Moment.savedAt?]
  cases hrequest : change? r with
  | some c =>
    have hnone := (idle_of_change hrequest s).2
    have hsaved : Moment.saved? ⟨s, r⟩ = none := by simp only [Moment.saved?, hnone]
    rw [change?_of_unsaved hnone, hrequest, hsaved]
    have hholds := s.files.holds_change s.home l c
    rw [h c hrequest] at hholds
    exact hholds
  | none =>
    rw [Moment.change?, hrequest, Option.none_or]
    cases Moment.saved? ⟨s, r⟩ with
    | none => exact .refl s.files l
    | some c => exact s.files.holds_change s.home l c

theorem run_holds {requests : List Request} (h : Unwritten l (moments s requests)) :
    s.files.Holds l (run s requests).2.files
      ((moments s requests).filterMap (Moment.savedAt? l)).getLast? := by
  induction requests generalizing s with
  | nil => exact .refl s.files l
  | cons r rest ih =>
    obtain ⟨hfirst, hlater⟩ := List.forall_mem_cons.1 h
    rw [moments, getLast?_filterMap_cons]
    exact (step_holds hfirst).trans (ih hlater)

theorem saved?_of_not_ok
    (h : ∀ dir d, handed? s r = some (.directory dir, d) → (step s r).1.result ≠ .ended (.ok ())) :
    Moment.saved? ⟨s, r⟩ = none := by
  rw [Moment.saved?]
  split
  · rename_i saver d result hhanded hresult
    cases saver with
    | directory dir =>
      cases result with
      | ok u => exact absurd hresult (h dir d hhanded)
      | error e => rfl
    | _ => rfl
  · rfl

/-- A save to a directory that fails changes nothing at all, so that a file of its name keeps its bytes.
One that succeeds puts the decoded payload, as a regular file, where the joined path leads, and leaves
every other entry alone. Over a run the tree changes as directories are made and files written on request
and as such saves succeed, in their order, and in no other way. A file that only saves write has the bytes
of the last one that succeeded; without one, the tree has at its location what it had, but that a directory
may be made where nothing was. -/
theorem files_change_by_writes_alone :
    -- a save that fails, and one that succeeds
    (∀ (dir : Path) (d : Download) (s : State),
      let out := saveToDirectory dir d s
      (∀ e, out.result = .error e → out.world = s ∧ Unsavable s dir d) ∧
      (out.result = .ok () → ∃ bytes l, Base64.decode d.payload = .ok bytes ∧
        s.files.resolve s.home (dir.join d.filename) = .ok l ∧
        s.files.Wrote l bytes out.world.files)) ∧
    -- a run, and what it leaves at one location
    (∀ (s : State) (requests : List Request),
      let ms := moments s requests
      let files := (run s requests).2.files
      files = (ms.filterMap Moment.change?).foldl (FileTree.change s.home) s.files ∧
      ∀ l, Unwritten l ms → s.files.Holds l files (ms.filterMap (Moment.savedAt? l)).getLast?) ∧
    -- every other step
    ∀ (s : State) (r : Request), change? r = none →
      (∀ dir d, handed? s r = some (.directory dir, d) → (step s r).1.result ≠ .ended (.ok ())) →
      (step s r).2.files = s.files := by
  refine ⟨fun dir d s => ⟨fun e he => saveToDirectory_of_error he, fun hok => ?_⟩,
    fun s requests => ⟨run_files s requests, fun l hl => run_holds hl⟩, fun s r hrequest hsave => ?_⟩
  · obtain ⟨bytes, l, hbytes, hresolve, hworld⟩ := saveToDirectory_of_ok hok
    refine ⟨bytes, l, hbytes, hresolve, ?_⟩
    rw [hworld]
    exact FileTree.wrote_put hresolve bytes
  · rw [(step_files s r).1, Moment.change?, hrequest, saved?_of_not_ok hsave]
    rfl

/-- A file that is saved, a save of the same name with a payload that is none, and a directory asked for in
its place. -/
theorem bad_payload_leaves_the_saved :
    let requests : List Request := [⟨.absent, .defineSaver "saver" (.directory "")⟩,
      ⟨.absent, .save "saver" ⟨"AAAA", "image/png", "out.png"⟩⟩,
      ⟨.absent, .save "saver" ⟨"not base64!", "image/png", "out.png"⟩⟩,
      ⟨.absent, .makeDirectory "out.png"⟩]
    let s := (run {} requests).2
    let bad : Download := ⟨"not base64!", "image/png", "out.png"⟩
    s.files.get? ("out.png" :: homeLocation) = some (.file [0, 0, 0]) ∧
      (saveToDirectory (.join .home "") bad s).world = s := by
  intro requests s bad
  obtain ⟨hsave, hrun, -⟩ := files_change_by_writes_alone
  have hunwritten : Unwritten ("out.png" :: homeLocation) (moments {} requests) := by
    intro m hm c hc
    simp only [requests, moments, List.mem_cons, List.not_mem_nil, or_false] at hm
    obtain rfl | rfl | rfl | rfl := hm <;> cases hc
    rfl
  have hlast : ((moments {} requests).filterMap
      (Moment.savedAt? ("out.png" :: homeLocation))).getLast? = some [0, 0, 0] := by
    decide +kernel
  have hholds := (hrun {} requests).2 _ hunwritten
  rw [hlast] at hholds
  have hbad : Base64.decode bad.payload = .error (.symbol 32 3) := by
    decide +kernel
  have hfailed : (saveToDirectory (.join .home "") bad s).result = _ :=
    congrArg Outcome.result (saveToDirectory_of_undecodable hbad)
  exact ⟨hholds, ((hsave (.join .home "") bad s).1 _ hfailed).1⟩

end SaveAs.Session
