import SaveAs.Proofs.Base64.Acceptance
import SaveAs.Proofs.FileName
import SaveAs.Proofs.FileTree.Joining
import SaveAs.Proofs.Session.Delivering

/-!
# Bytes that reach a file

Saving bytes to a directory encodes them, draws a name, decodes the payload again and writes it under
the joined path. The bytes in the file are the ones that were given, for every length and all options,
and no other entry of the tree changes.
-/

namespace SaveAs

namespace FileTree

variable {t : FileTree} {home dir : Location} {p : Path} {name : String}

theorem fileAt_of_free (hdot : name ≠ ".") (hdotdot : name ≠ "..")
    (hlength : name.utf8ByteSize ≤ longestName) (hfree : t.get? (name :: dir) ≠ some .directory) :
    t.fileAt dir name = .ok (name :: dir) := by
  rw [fileAt, if_neg (not_or.2 ⟨hdot, hdotdot⟩), if_neg (Nat.not_lt.2 hlength)]
  split
  · rename_i hdirectory
    exact absurd hdirectory hfree
  · rfl

end FileTree

namespace Session

variable {bytes : List UInt8} {dir : Path} {o : Options} {s : State}

def directDownload (bytes : List UInt8) (o : Options) (s : State) : Download :=
  handed (Base64.encode bytes) o .ambient s

/-- A direct save ends as its saver does, on the encoded bytes under the drawn name. -/
theorem saveBytes_eq_saved (bytes : List UInt8) (saver : Saver) (o : Options) (s : State) :
    (saveBytes bytes saver o s).result =
        (saveWith saver (directDownload bytes o s) (Source.ambient.draw o s)).result ∧
      (saveBytes bytes saver o s).world =
        (saveWith saver (directDownload bytes o s) (Source.ambient.draw o s)).world := by
  have hdeliver : saveBytes bytes saver o s = _ := deliver_of_resolved rfl rfl
  rw [hdeliver]
  exact ⟨rfl, rfl⟩

/-- The payload of a direct save decodes, so that the path alone decides. -/
theorem saveToDirectory_directDownload (bytes : List UInt8) (dir : Path) (o : Options) (s : State) :
    saveToDirectory dir (directDownload bytes o s) (Source.ambient.draw o s) =
      match s.files.resolve s.home (dir.join (o.fileName s.ambient).1) with
      | .ok l =>
        ⟨.ok (), [], { Source.ambient.draw o s with files := s.files.put l (.file bytes) }⟩
      | .error r =>
        ⟨.error (.unwritable (dir.join (o.fileName s.ambient).1) r), [], Source.ambient.draw o s⟩ := by
  have hdecode : Base64.decode (directDownload bytes o s).payload = .ok bytes :=
    Base64.decode_encode bytes
  exact saveToDirectory_of_decoded hdecode

theorem saveBytes_of_located {l : Location} (bytes : List UInt8)
    (h : s.files.resolve s.home (dir.join (o.fileName s.ambient).1) = .ok l) :
    (saveBytes bytes (.directory dir) o s).result = .ok () ∧
      (saveBytes bytes (.directory dir) o s).world.files = s.files.put l (.file bytes) := by
  obtain ⟨hresult, hworld⟩ := saveBytes_eq_saved bytes (.directory dir) o s
  rw [hresult, hworld, saveWith, saveToDirectory_directDownload, h]
  exact ⟨rfl, rfl⟩

theorem saveBytes_of_refused {r : Refusal}
    (h : s.files.resolve s.home (dir.join (o.fileName s.ambient).1) = .error r) :
    (saveBytes bytes (.directory dir) o s).result =
        .error (.unwritable (dir.join (o.fileName s.ambient).1) r) ∧
      (saveBytes bytes (.directory dir) o s).world.files = s.files := by
  obtain ⟨hresult, hworld⟩ := saveBytes_eq_saved bytes (.directory dir) o s
  rw [hresult, hworld, saveWith, saveToDirectory_directDownload, h]
  exact ⟨rfl, rfl⟩

/-- Saving bytes to an existing directory, with a drawn name that a file there can have, puts exactly
these bytes into the file of that name and changes no other entry. Of the limits on names only the one
on whole paths can still refuse it, and then nothing changes. -/
theorem saveBytes_writes_bytes (bytes : List UInt8) (o : Options) (s : State) (dir : Path) (l : Location)
    (hdir : s.files.DirectoryAt s.home dir l)
    (hslash : '/' ∉ (o.fileName s.ambient).1.toList)
    (hnul : '\x00' ∉ (o.fileName s.ambient).1.toList)
    (hlength : (o.fileName s.ambient).1.utf8ByteSize ≤ 255)
    (hfree : s.files.get? ((o.fileName s.ambient).1 :: l) ≠ some .directory) :
    let name := (o.fileName s.ambient).1
    let after := saveBytes bytes (.directory dir) o s
    ((dir.join name).size s.home ≤ FileTree.longestPath →
      after.result = .ok () ∧ after.world.files.get? (name :: l) = some (.file bytes) ∧
        ∀ k, k ≠ name :: l → after.world.files.get? k = s.files.get? k) ∧
    (FileTree.longestPath < (dir.join name).size s.home →
      after.result = .error (.unwritable (dir.join name) .nameTooLong) ∧ after.world.files = s.files) := by
  intro name after
  have hresolve : s.files.resolve s.home (dir.join name) = _ :=
    hdir.resolve_join hslash (o.nameOf_ne_empty _) hnul
  constructor
  · intro hlimit
    have hlocated : s.files.resolve s.home (dir.join name) = .ok (name :: l) := by
      rw [hresolve, if_neg (Nat.not_lt.2 hlimit)]
      exact FileTree.fileAt_of_free (o.nameOf_ne_dot _) (o.nameOf_ne_dotdot _) hlength hfree
    obtain ⟨hok, hfiles⟩ := saveBytes_of_located bytes hlocated
    refine ⟨hok, ?_, fun k hk => ?_⟩
    · rw [hfiles, FileTree.get?_put _ _ _ (List.cons_ne_nil _ _), if_pos rfl]
    · rw [hfiles, FileTree.get?_put _ _ _ (List.cons_ne_nil _ _), if_neg hk]
  · intro hlimit
    rw [if_pos hlimit] at hresolve
    exact saveBytes_of_refused hresolve

/-- The first eight bytes of an image, saved by a fresh session in its own directory. -/
theorem saveBytes_writes_signature :
    (saveBytes [0x89, 0x50, 0x4e, 0x47, 0x0d, 0x0a, 0x1a, 0x0a] (.directory .home) {} {}).world.files.get?
      ("out0.png" :: homeLocation) = some (.file [0x89, 0x50, 0x4e, 0x47, 0x0d, 0x0a, 0x1a, 0x0a]) := by
  have hname : (({} : Options).fileName ({} : State).ambient).1 = "out0.png" := by decide +kernel
  have hwritten := saveBytes_writes_bytes [0x89, 0x50, 0x4e, 0x47, 0x0d, 0x0a, 0x1a, 0x0a] {} {} .home
    homeLocation ⟨by decide, by rfl, by decide⟩ (by rw [hname]; decide) (by rw [hname]; decide)
    (by rw [hname]; decide) (by rw [hname]; decide)
  rw [hname] at hwritten
  exact (hwritten.1 (by decide)).2.1

/-- The limit on whole paths does refuse a name that a file there can have, in a directory that is there and
whose own path is short enough: in the home directory, spelled with 2036 names that lead nowhere. -/
theorem saveBytes_refused_in_long_spelling :
    let o : Options := { maxSuffix := 1 }
    let s : State := {}
    let dir := Path.home.dotted 2036
    let name := (o.fileName s.ambient).1
    let after := saveBytes [0x89] (.directory dir) o s
    s.files.DirectoryAt s.home dir s.home ∧ dir.size s.home ≤ FileTree.longestPath ∧
    ('/' ∉ name.toList ∧ '\x00' ∉ name.toList ∧ name.utf8ByteSize ≤ 255 ∧
      s.files.get? (name :: s.home) ≠ some .directory) ∧
    after.result = .error (.unwritable (dir.join name) .nameTooLong) ∧ after.world.files = s.files := by
  intro o s dir name after
  have hname : name = "out0.png" := by decide +kernel
  have hdir : s.files.DirectoryAt s.home dir s.home :=
    FileTree.DirectoryAt.dotted ⟨by decide, by rfl, by decide⟩ 2036
  have hend : Path.home.endsInSlash = false := by decide
  have hhome : Path.home.size s.home = 15 := by decide
  have hsize : dir.size s.home = 4087 := by rw [Path.size_dotted 2036 hend, hhome]
  have hslash : '/' ∉ name.toList := by rw [hname]; decide
  have hnul : '\x00' ∉ name.toList := by rw [hname]; decide
  have hlong : (dir.join name).size s.home = 4096 := by
    rw [Path.size_join hslash (Path.endsInSlash_dotted 2036 hend), hsize, hname]
    decide
  have hresolve := hdir.resolve_join hslash (o.nameOf_ne_empty _) hnul
  rw [hlong, if_pos (by decide)] at hresolve
  refine ⟨hdir, ?_, ⟨hslash, hnul, ?_, ?_⟩, saveBytes_of_refused hresolve⟩
  · rw [hsize]
    decide
  · rw [hname]
    decide
  · rw [hname]
    decide

end Session

end SaveAs
