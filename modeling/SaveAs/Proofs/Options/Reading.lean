import SaveAs.Options.OfText
import SaveAs.Proofs.Json.Passing
import SaveAs.Proofs.Options.Settings

/-!
# Reading options from the tokens of a tree

The reader meets one token at a time and keeps no tree. Over the tokens of a syntax tree it does what a
reader of the tree would do, member by member or item by item: a field is judged by the first token of
its value, and a value that no field asks for is passed over.
-/

namespace SaveAs.Options

open Json (Node Token Piece)

/-! ### What a reader of the tree would do -/

def takeField (settings : List Setting) (f : Field) (n : Node) : Except ReadError (List Setting) := do
  let found ← Found.ofToken n.head
  let setting ← f.accept found
  return settings ++ [setting]

def takeMember (settings : List Setting) (member : List Piece × Node) :
    Except ReadError (List Setting) :=
  match Node.text? member.1 with
  | none => .error .malformed
  | some name =>
    match Field.ofKey? name with
    | none => .ok settings
    | some f =>
      if settings.any (·.field = f) then .error (.duplicate f) else takeField settings f member.2

def takeItems : List Field → List Setting → List Node → Except ReadError (List Setting)
  | _, settings, [] => .ok settings
  | [], _, _ :: _ => .error .malformed
  | f :: fields, settings, n :: items => do
    let settings ← takeField settings f n
    takeItems fields settings items

/-- A field takes one token, and none that opens an array or an object. -/
theorem scalar_of_accept {f : Field} {t : Token} {found : Found} {s : Setting}
    (hfound : Found.ofToken t = .ok found) (haccept : f.accept found = .ok s) :
    Json.Nesting.Scalar t := by
  cases t with
  | null | boolean | number | string => trivial
  | opening b => cases b <;> cases hfound <;> cases f <;> cases haccept
  | _ => cases hfound

namespace Reader

variable {settings : List Setting} {reading next : Reading} {t : Token} {rest : List Token}

theorem run_cons (r : Reader) (t : Token) (ts : List Token) :
    r.run (t :: ts) = r.step t >>= fun r => r.run ts := rfl

theorem run_of_ok {r r' : Reader} (h : r.step t = .ok r') (ts : List Token) :
    r.run (t :: ts) = r'.run ts := by
  rw [run_cons, h]
  rfl

theorem run_of_error {r : Reader} {e : ReadError} (h : r.step t = .error e) (ts : List Token) :
    r.run (t :: ts) = .error e := by
  rw [run_cons, h]
  rfl

/-- Where a field is judged by the next token, its tree is judged. -/
theorem run_field (n : Node) (f : Field)
    (hstep : step ⟨settings, reading⟩ n.head = accept ⟨settings, reading⟩ f n.head next) :
    run ⟨settings, reading⟩ (n.tokens ++ rest) =
      takeField settings f n >>= fun settings => run ⟨settings, next⟩ rest := by
  obtain ⟨tail, htail⟩ := n.tokens_eq_cons
  rw [htail, List.cons_append, run_cons, hstep, accept, takeField]
  cases hfound : Found.ofToken n.head with
  | error e => rfl
  | ok found =>
    cases haccept : f.accept found with
    | error e =>
      simp only [bind, Except.bind, haccept]
    | ok s =>
      have hscalar := Json.Node.tokens_of_scalar (scalar_of_accept hfound haccept)
      rw [htail, List.cons_inj_right] at hscalar
      simp only [bind, Except.bind, haccept, hscalar]
      rfl

/-- What is passed over leaves the settings alone. -/
theorem run_skipping {nesting : Json.Nesting} {ts : List Token} (h : nesting.pass ts = some rest) :
    run ⟨settings, .skipping nesting⟩ ts = run ⟨settings, .afterMember⟩ rest := by
  induction ts generalizing nesting with
  | nil => cases h
  | cons t ts ih =>
    rw [Json.Nesting.pass] at h
    cases hstep : nesting.step t with
    | error e => simp [hstep] at h
    | ok after =>
      cases after with
      | none =>
        rw [hstep] at h
        have hended : step ⟨settings, .skipping nesting⟩ t = .ok ⟨settings, .afterMember⟩ := by
          simp only [step, skip, hstep]
        rw [run_of_ok hended, ← Option.some.inj h]
      | some inner =>
        rw [hstep] at h
        have hinner : step ⟨settings, .skipping nesting⟩ t = .ok ⟨settings, .skipping inner⟩ := by
          simp only [step, skip, hstep]
        rw [run_of_ok hinner, ih h]

theorem run_member (name : List Piece) (n : Node) :
    run ⟨settings, .name⟩ (.string name :: .colon :: (n.tokens ++ rest)) =
      takeMember settings (name, n) >>= fun settings => run ⟨settings, .afterMember⟩ rest := by
  rw [takeMember, Json.Node.text?]
  cases hjoin : Piece.join name with
  | none =>
    have hname : step ⟨settings, .name⟩ (.string name) = .error .malformed := by
      simp only [step, readName, hjoin]
    rw [run_of_error hname]
    rfl
  | some cs =>
    cases hkey : Field.ofKey? (String.ofList cs) with
    | none =>
      have hname : step ⟨settings, .name⟩ (.string name) = .ok ⟨settings, .colon none⟩ := by
        simp only [step, readName, hjoin, hkey]
      simp only [Option.map_some, hkey]
      rw [run_of_ok hname, run_of_ok (show step ⟨settings, .colon none⟩ .colon = .ok _ from rfl),
        run_skipping (n.pass_start rest)]
      rfl
    | some f =>
      simp only [Option.map_some, hkey]
      cases hgiven : settings.any (·.field = f) with
      | true =>
        have hname : step ⟨settings, .name⟩ (.string name) = .error (.duplicate f) := by
          simp only [step, readName, hjoin, hkey, given, hgiven, if_true]
        rw [run_of_error hname]
        rfl
      | false =>
        have hname : step ⟨settings, .name⟩ (.string name) = .ok ⟨settings, .colon (some f)⟩ := by
          simp only [step, readName, hjoin, hkey, given, hgiven]
          rfl
        rw [run_of_ok hname, run_of_ok (show step ⟨settings, .colon (some f)⟩ .colon = .ok _ from rfl)]
        exact run_field n f rfl

theorem step_firstName (ht : t ≠ .closing .curly) :
    step ⟨settings, .firstName⟩ t = step ⟨settings, .name⟩ t := by
  cases t with
  | closing b =>
    cases b with
    | square => rfl
    | curly => exact absurd rfl ht
  | _ => rfl

theorem run_laterMembers (members : List (List Piece × Node)) :
    run ⟨settings, .afterMember⟩ (Node.laterMembers members ++ [.closing .curly]) =
      (members.foldlM takeMember settings).map fun settings => ⟨settings, .finished⟩ := by
  induction members generalizing settings with
  | nil => rfl
  | cons member rest ih =>
    obtain ⟨name, n⟩ := member
    rw [Node.laterMembers, List.cons_append, List.cons_append, List.cons_append, List.append_assoc,
      run_of_ok (show step ⟨settings, .afterMember⟩ .comma = .ok ⟨settings, .name⟩ from rfl), run_member,
      List.foldlM_cons]
    cases takeMember settings (name, n) with
    | error e => rfl
    | ok settings => exact ih

theorem run_object (members : List (List Piece × Node)) :
    run ⟨[], .start⟩ (Node.object members).tokens =
      (members.foldlM takeMember []).map fun settings => ⟨settings, .finished⟩ := by
  cases members with
  | nil => rfl
  | cons member rest =>
    obtain ⟨name, n⟩ := member
    rw [Node.tokens, run_of_ok (show step ⟨[], .start⟩ (.opening .curly) = .ok ⟨[], .firstName⟩ from rfl),
      run_cons, step_firstName (by simp), ← run_cons, run_member, List.foldlM_cons]
    cases takeMember [] (name, n) with
    | error e => rfl
    | ok settings => exact run_laterMembers rest

theorem step_firstItem {fields : List Field} (ht : t ≠ .closing .square) :
    step ⟨settings, .firstItem fields⟩ t = step ⟨settings, .item fields⟩ t := by
  cases t with
  | closing b =>
    cases b with
    | square => exact absurd rfl ht
    | curly => rfl
  | _ => rfl

theorem run_item (fields : List Field) (n : Node) (items : List Node)
    (hlater : ∀ fields settings, run ⟨settings, .afterItem fields⟩ rest =
      (takeItems fields settings items).map fun settings => ⟨settings, .finished⟩) :
    run ⟨settings, .item fields⟩ (n.tokens ++ rest) =
      (takeItems fields settings (n :: items)).map fun settings => ⟨settings, .finished⟩ := by
  cases fields with
  | nil =>
    obtain ⟨tail, htail⟩ := n.tokens_eq_cons
    rw [htail, List.cons_append]
    exact run_of_error (show step ⟨settings, .item []⟩ n.head = .error .malformed from rfl) _
  | cons f fields =>
    rw [run_field n f (show step ⟨settings, .item (f :: fields)⟩ n.head = _ from rfl), takeItems]
    cases takeField settings f n with
    | error e => rfl
    | ok settings => exact hlater fields settings

theorem run_laterItems (items : List Node) : ∀ (fields : List Field) (settings : List Setting),
    run ⟨settings, .afterItem fields⟩ (Node.laterItems items ++ [.closing .square]) =
      (takeItems fields settings items).map fun settings => ⟨settings, .finished⟩ := by
  induction items with
  | nil =>
    intro fields settings
    rw [takeItems]
    rfl
  | cons n rest ih =>
    intro fields settings
    rw [Node.laterItems, List.cons_append, List.append_assoc,
      run_of_ok (show step ⟨settings, .afterItem fields⟩ .comma = .ok ⟨settings, .item fields⟩ from rfl)]
    exact run_item fields n rest ih

theorem run_array (items : List Node) :
    run ⟨[], .start⟩ (Node.array items).tokens =
      (takeItems Field.positional [] items).map fun settings => ⟨settings, .finished⟩ := by
  cases items with
  | nil => rfl
  | cons n rest =>
    obtain ⟨t, ts, htokens, ht⟩ := n.tokens_ne_close (Node.laterItems rest ++ [.closing .square])
    rw [Node.tokens, run_of_ok (show step ⟨[], .start⟩ (.opening .square) =
      .ok ⟨[], .firstItem Field.positional⟩ from rfl), htokens, run_cons, step_firstItem ht, ← run_cons,
      ← htokens]
    exact run_item Field.positional n rest (run_laterItems rest)

end Reader

/-! ### Reading a tree -/

theorem ofTokens_object (members : List (List Piece × Node)) :
    ofTokens (Node.object members).tokens = (members.foldlM takeMember []).map ofSettings := by
  rw [ofTokens, Reader.run_object]
  cases members.foldlM takeMember [] <;> rfl

theorem ofTokens_array (items : List Node) :
    ofTokens (Node.array items).tokens = (takeItems Field.positional [] items).map ofSettings := by
  rw [ofTokens, Reader.run_array]
  cases takeItems Field.positional [] items <;> rfl

theorem Reader.step_start_of_scalar {n : Node} (h : Json.Nesting.Scalar n.head) :
    step ⟨[], .start⟩ n.head =
      Found.ofToken n.head >>= fun found => .error (.wrongType found .options) := by
  cases n with
  | array | object => cases h
  | _ => rfl

/-- Options are not read from a value that is no array and no object. -/
theorem ofTokens_of_scalar {n : Node} (h : Json.Nesting.Scalar n.head) (o : Options) :
    ofTokens n.tokens ≠ .ok o := by
  have hstep : ∃ e, Reader.step ⟨[], .start⟩ n.head = .error e := by
    rw [Reader.step_start_of_scalar h]
    cases Found.ofToken n.head with
    | error e => exact ⟨e, rfl⟩
    | ok found => exact ⟨_, rfl⟩
  obtain ⟨e, he⟩ := hstep
  rw [Json.Node.tokens_of_scalar h, ofTokens, Reader.run_of_error he]
  intro hok
  cases hok

end SaveAs.Options
