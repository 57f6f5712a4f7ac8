import SaveAs.Proofs.FileName
import SaveAs.Proofs.FileTree.Joining
import SaveAs.Proofs.Session.Files

/-!
# Where generated names can lead

A trigger that saves to a directory draws a name and joins it to the directory's path. If the stem and the
extension have no slash, the name is one name of a path and neither of the two that lead elsewhere,
because it has a digit. So the joined path leads to that name in the directory or nowhere, and the file of
that name is all that a run can change, however it ends.
-/

namespace SaveAs

namespace FileTree

variable {t : FileTree} {home l : Location} {p : Path} {name : String}

/-- A path leads to a location if every name on its way is the one of a directory. -/
def LeadsTo (t : FileTree) (home : Location) (p : Path) (l : Location) : Prop :=
  p.names.foldlM t.enter (p.start home) = .ok l

theorem exists_of_resolve_join (hslash : '/' ∉ name.toList) (hname : name ≠ "")
    (h : t.resolve home (p.join name) = .ok l) : ∃ dir, t.LeadsTo home p dir ∧ l = name :: dir := by
  rw [resolve_join hslash hname] at h
  split at h
  · cases h
  · split at h
    · cases h
    · obtain ⟨dir, hdir, h⟩ := Except.bind_eq_ok_iff.1 h
      exact ⟨dir, hdir, (fileAt_eq_ok h).1⟩

end FileTree

namespace Session

variable {f : Firing} {s : State} {r : Request} {dir : Path}

/-- A trigger with a directory writes one file where the joined path leads, or changes no file. -/
theorem Firing.run_files (hsaver : f.trigger.saver = .directory dir) (s : State) :
    (f.run s).world.files = s.files ∨
      ∃ bytes l, s.files.resolve s.home (dir.join (f.source.name f.trigger.options s)) = .ok l ∧
        (f.run s).world.files = s.files.put l (.file bytes) := by
  cases hresolved : f.resolved.result with
  | error e =>
    rw [run_of_unresolved hresolved]
    exact .inl rfl
  | ok payload =>
    rw [run_of_resolved hresolved, saved, hsaver, saveWith]
    cases hresult : (saveToDirectory dir (f.handed payload s)
        (f.source.draw f.trigger.options s)).result with
    | error e =>
      rw [(saveToDirectory_of_error hresult).1]
      exact .inl (f.source.draw_files f.trigger.options s)
    | ok u =>
      obtain ⟨bytes, l, -, hresolve, hworld⟩ := saveToDirectory_of_ok hresult
      rw [Source.draw_files, Source.draw_home] at hresolve
      rw [Source.draw_files] at hworld
      exact .inr ⟨bytes, l, hresolve, congrArg State.files hworld⟩

theorem files_of_fired (h : fired? s r = some f) : (step s r).2.files = (f.run s).world.files := by
  obtain ⟨-, -, g, hg, hstate⟩ := step_of_fired h
  rw [hstate, hg.files]

/-- A trigger whose stem and extension have no slash, run on any handle over any tree, with any words and
in any state. The name that it draws is one name of a path, stands behind those of its directory, and leads
to itself in that directory or nowhere. Whether the run succeeds or not, no other entry is made, changed or
taken away, and what is changed is no directory. The steps of a session that run the trigger leave the
same tree. -/
theorem generated_names_are_confined (f : Firing) (s : State) (dir : Path)
    (hsaver : f.trigger.saver = .directory dir)
    (hstem : '/' ∉ f.trigger.options.stem.toList)
    (hextension : '/' ∉ f.trigger.options.extension.toList) :
    let name := f.source.name f.trigger.options s
    let path := dir.join name
    let after := (f.run s).world.files
    (name ≠ "" ∧ name ≠ "." ∧ name ≠ ".." ∧ '/' ∉ name.toList) ∧
    (path.base = dir.base ∧ path.names = dir.names ++ [name]) ∧
    (∀ k, s.files.resolve s.home path = .ok k → ∃ l, s.files.LeadsTo s.home dir l ∧ k = name :: l) ∧
    (∀ k, after.get? k ≠ s.files.get? k →
      (∃ l, s.files.LeadsTo s.home dir l ∧ k = name :: l) ∧ s.files.get? k ≠ some .directory ∧
        ∃ bytes, after.get? k = some (.file bytes)) ∧
    ∀ r, fired? s r = some f → (step s r).2.files = after := by
  intro name path after
  have hslash : '/' ∉ name.toList := Options.slash_not_mem_nameOf hstem hextension _
  have hne : name ≠ "" := f.trigger.options.nameOf_ne_empty _
  have hleads : ∀ k, s.files.resolve s.home path = .ok k →
      ∃ l, s.files.LeadsTo s.home dir l ∧ k = name :: l :=
    fun k hk => FileTree.exists_of_resolve_join hslash hne hk
  refine ⟨⟨hne, f.trigger.options.nameOf_ne_dot _, f.trigger.options.nameOf_ne_dotdot _, hslash⟩,
    ⟨Path.base_join hslash, Path.names_join hslash hne⟩, hleads, fun k hk => ?_,
    fun r hfired => files_of_fired hfired⟩
  obtain hsame | ⟨bytes, l, hresolve, hafter⟩ := Firing.run_files hsaver s
  · exact absurd (congrArg (·.get? k) hsame) hk
  · have hwrote : s.files.Wrote l bytes (f.run s).world.files := by
      rw [hafter]
      exact FileTree.wrote_put hresolve bytes
    have hl : k = l := by
      by_contra hother
      exact hk (hwrote.others k hother)
    subst hl
    exact ⟨hleads k hresolve, hwrote.free, bytes, hwrote.file⟩

/-- A stem of two points and no extension still name a file in the directory. -/
theorem name_of_points_is_confined :
    let o : Options := { stem := "..", extension := "", maxSuffix := 0 }
    let f : Firing := ⟨⟨.inline, .directory .home, o⟩, "AAAA", .generator⟩
    (f.run {}).world.files.get? ("..0." :: homeLocation) = some (.file [0, 0, 0]) ∧
      ∃ l, ({} : State).files.LeadsTo homeLocation .home l ∧ "..0." :: homeLocation = "..0." :: l := by
  intro o f
  have hname : f.source.name f.trigger.options {} = "..0." := by decide +kernel
  have hwritten : (f.run {}).world.files.get? ("..0." :: homeLocation) = some (.file [0, 0, 0]) := by
    decide +kernel
  obtain ⟨-, -, -, hchanged, -⟩ :=
    generated_names_are_confined f {} .home rfl (by decide) (by decide)
  have hplace := (hchanged ("..0." :: homeLocation) (by rw [hwritten]; decide)).1
  rw [hname] at hplace
  exact ⟨hwritten, hplace⟩

end Session

end SaveAs
