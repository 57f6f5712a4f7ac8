import SaveAs.Proofs.Options.Reading

/-!
# Only trees are read

Where the reader gets through all tokens and ends as it should, these are the tokens of one syntax tree,
although it has not looked inside the values that it passed over. By what it stands in front of: a name,
an item, or what may follow one of these.
-/

namespace SaveAs.Options

open Json (Node Token Piece)

namespace Reader

variable {settings : List Setting} {reading next : Reading} {r : Reader} {t : Token} {ts : List Token}
  {f : Field} {fields : List Field}

/-- The reader gets through the tokens and ends where options end. -/
def Finishes (r : Reader) (ts : List Token) : Prop :=
  ∃ r', r.run ts = .ok r' ∧ r'.reading = .finished

theorem finishes_cons : r.Finishes (t :: ts) ↔ ∃ r', r.step t = .ok r' ∧ r'.Finishes ts := by
  rw [Finishes, run_cons]
  cases r.step t with
  | error e => exact iff_of_false (fun ⟨_, h, _⟩ => by cases h) fun ⟨_, h, _⟩ => by cases h
  | ok r' =>
    constructor
    · exact fun h => ⟨r', rfl, h⟩
    · rintro ⟨_, ⟨⟩, h⟩
      exact h

theorem finishes_nil : r.Finishes [] ↔ r.reading = .finished :=
  ⟨fun ⟨_, h, hr⟩ => by cases h; exact hr, fun h => ⟨r, rfl, h⟩⟩

theorem eq_nil_of_finished (h : Finishes ⟨settings, .finished⟩ ts) : ts = [] := by
  cases ts with
  | nil => rfl
  | cons t ts =>
    obtain ⟨r', hstep, -⟩ := finishes_cons.1 h
    cases hstep

/-! ### What a step asks of its token -/

theorem accept_inv {r' : Reader} (h : accept r f t next = .ok r') :
    Json.Nesting.Scalar t ∧ ∃ settings, r' = ⟨settings, next⟩ := by
  obtain ⟨found, hfound, h⟩ := Except.bind_eq_ok_iff.1 h
  obtain ⟨s, haccept, h⟩ := Except.bind_eq_ok_iff.1 h
  exact ⟨scalar_of_accept hfound haccept, _, (Except.pure_eq_ok_iff.1 h).symm⟩

theorem readName_inv {r' : Reader} (h : readName r t = .ok r') :
    ∃ name f, t = .string name ∧ r' = { r with reading := .colon f } := by
  cases t with
  | string name =>
    rw [readName] at h
    split at h
    · cases h
    · split at h
      · exact ⟨name, none, rfl, (Except.ok.inj h).symm⟩
      · split at h
        · cases h
        · exact ⟨name, _, rfl, (Except.ok.inj h).symm⟩
  | _ => cases h

theorem pass_of_finishes {nesting : Json.Nesting} (h : Finishes ⟨settings, .skipping nesting⟩ ts) :
    ∃ rest, nesting.pass ts = some rest ∧ Finishes ⟨settings, .afterMember⟩ rest := by
  induction ts generalizing nesting with
  | nil => cases finishes_nil.1 h
  | cons t ts ih =>
    obtain ⟨r', hstep, hrest⟩ := finishes_cons.1 h
    rw [Json.Nesting.pass]
    cases hnesting : nesting.step t with
    | error e =>
      simp only [step, skip, hnesting] at hstep
      cases hstep
    | ok after =>
      cases after with
      | none =>
        simp only [step, skip, hnesting] at hstep
        cases hstep
        exact ⟨ts, rfl, hrest⟩
      | some inner =>
        simp only [step, skip, hnesting] at hstep
        cases hstep
        exact ih hrest

/-- A value that a field takes, or that is passed over, is a tree. -/
theorem value_of_finishes {f : Option Field} (h : Finishes ⟨settings, .colon f⟩ ts) :
    ∃ n rest settings, ts = .colon :: (Node.tokens n ++ rest) ∧ Finishes ⟨settings, .afterMember⟩ rest := by
  cases ts with
  | nil => cases finishes_nil.1 h
  | cons t ts =>
    obtain ⟨r', hstep, hvalue⟩ := finishes_cons.1 h
    have hcolon : t = .colon := by
      cases t with
      | colon => rfl
      | _ => cases f <;> cases hstep
    subst hcolon
    cases f with
    | none =>
      cases hstep
      obtain ⟨rest, hpass, hrest⟩ := pass_of_finishes hvalue
      obtain ⟨n, rfl⟩ := Node.exists_of_pass_start hpass
      exact ⟨n, rest, settings, rfl, hrest⟩
    | some f =>
      cases hstep
      cases ts with
      | nil => cases finishes_nil.1 hvalue
      | cons t ts =>
        obtain ⟨r', hstep, hrest⟩ := finishes_cons.1 hvalue
        obtain ⟨hscalar, settings, rfl⟩ := accept_inv hstep
        obtain ⟨n, hn⟩ := Node.exists_of_scalar hscalar
        exact ⟨n, ts, settings, by rw [hn]; rfl, hrest⟩

theorem afterMember_inv {r' : Reader} (h : step ⟨settings, .afterMember⟩ t = .ok r') :
    t = .comma ∧ r' = ⟨settings, .name⟩ ∨ t = .closing .curly ∧ r' = ⟨settings, .finished⟩ := by
  cases t with
  | comma => exact .inl ⟨rfl, (Except.ok.inj h).symm⟩
  | closing b =>
    cases b with
    | square => cases h
    | curly => exact .inr ⟨rfl, (Except.ok.inj h).symm⟩
  | _ => cases h

theorem afterItem_inv {r' : Reader} (h : step ⟨settings, .afterItem fields⟩ t = .ok r') :
    t = .comma ∧ r' = ⟨settings, .item fields⟩ ∨
      t = .closing .square ∧ r' = ⟨settings, .finished⟩ := by
  cases t with
  | comma => exact .inl ⟨rfl, (Except.ok.inj h).symm⟩
  | closing b =>
    cases b with
    | square => exact .inr ⟨rfl, (Except.ok.inj h).symm⟩
    | curly => cases h
  | _ => cases h

/-! ### Members and items -/

theorem members_of_finishes {settings : List Setting} {ts : List Token}
    (h : Finishes ⟨settings, .name⟩ ts) :
    ∃ name n members, ts = .string name :: .colon ::
      (Node.tokens n ++ (Node.laterMembers members ++ [.closing .curly])) := by
  match ts with
  | [] => cases finishes_nil.1 h
  | t :: ts =>
    obtain ⟨r', hstep, hcolon⟩ := finishes_cons.1 h
    obtain ⟨name, f, rfl, rfl⟩ := readName_inv hstep
    obtain ⟨n, rest, after, hvalue, hrest⟩ := value_of_finishes hcolon
    match rest with
    | [] => cases finishes_nil.1 hrest
    | t :: rest =>
      have hshorter : rest.length < ts.length + 1 := by
        rw [hvalue]
        simp only [List.length_cons, List.length_append]
        omega
      obtain ⟨r', hstep, hend⟩ := finishes_cons.1 hrest
      obtain ⟨rfl, rfl⟩ | ⟨rfl, rfl⟩ := afterMember_inv hstep
      · obtain ⟨name', n', members, hmembers⟩ := members_of_finishes hend
        exact ⟨name, n, (name', n') :: members, by simp [hvalue, hmembers, Node.laterMembers]⟩
      · obtain rfl := eq_nil_of_finished hend
        exact ⟨name, n, [], by rw [hvalue]; rfl⟩
termination_by ts.length

theorem items_of_finishes {settings : List Setting} {fields : List Field} {ts : List Token}
    (h : Finishes ⟨settings, .item fields⟩ ts) :
    ∃ n items, ts = Node.tokens n ++ (Node.laterItems items ++ [.closing .square]) := by
  match ts, fields with
  | [], _ => cases finishes_nil.1 h
  | t :: ts, [] =>
    obtain ⟨r', hstep, -⟩ := finishes_cons.1 h
    cases hstep
  | t :: ts, f :: fields =>
    obtain ⟨r', hstep, hlater⟩ := finishes_cons.1 h
    obtain ⟨hscalar, settings, rfl⟩ := accept_inv hstep
    obtain ⟨n, hn⟩ := Node.exists_of_scalar hscalar
    match ts with
    | [] => cases finishes_nil.1 hlater
    | t' :: ts =>
      obtain ⟨r', hstep, hend⟩ := finishes_cons.1 hlater
      obtain ⟨rfl, rfl⟩ | ⟨rfl, rfl⟩ := afterItem_inv hstep
      · obtain ⟨n', items, rfl⟩ := items_of_finishes hend
        exact ⟨n, n' :: items, by simp [hn, Node.laterItems]⟩
      · obtain rfl := eq_nil_of_finished hend
        exact ⟨n, [], by rw [hn]; rfl⟩
termination_by ts.length

theorem object_of_finishes (h : Finishes ⟨settings, .firstName⟩ ts) :
    ∃ members, .opening .curly :: ts = (Node.object members).tokens := by
  cases ts with
  | nil => cases finishes_nil.1 h
  | cons t ts =>
    by_cases ht : t = .closing .curly
    · subst ht
      obtain ⟨r', hstep, hend⟩ := finishes_cons.1 h
      cases hstep
      obtain rfl := eq_nil_of_finished hend
      exact ⟨[], rfl⟩
    · rw [finishes_cons, step_firstName ht, ← finishes_cons] at h
      obtain ⟨name, n, members, hmembers⟩ := members_of_finishes h
      exact ⟨(name, n) :: members, by rw [hmembers, Node.tokens]⟩

theorem array_of_finishes (h : Finishes ⟨settings, .firstItem fields⟩ ts) :
    ∃ items, .opening .square :: ts = (Node.array items).tokens := by
  cases ts with
  | nil => cases finishes_nil.1 h
  | cons t ts =>
    by_cases ht : t = .closing .square
    · subst ht
      obtain ⟨r', hstep, hend⟩ := finishes_cons.1 h
      cases hstep
      obtain rfl := eq_nil_of_finished hend
      exact ⟨[], rfl⟩
    · rw [finishes_cons, step_firstItem ht, ← finishes_cons] at h
      obtain ⟨n, items, hitems⟩ := items_of_finishes h
      exact ⟨n :: items, by rw [hitems, Node.tokens]⟩

theorem exists_of_finishes (h : Finishes ⟨[], .start⟩ ts) : ∃ n : Node, ts = n.tokens := by
  cases ts with
  | nil => cases finishes_nil.1 h
  | cons t ts =>
    obtain ⟨r', hstep, hrest⟩ := finishes_cons.1 h
    cases t with
    | opening b =>
      cases b with
      | curly =>
        cases hstep
        obtain ⟨members, hmembers⟩ := object_of_finishes hrest
        exact ⟨.object members, hmembers⟩
      | square =>
        cases hstep
        obtain ⟨items, hitems⟩ := array_of_finishes hrest
        exact ⟨.array items, hitems⟩
    | _ =>
      obtain ⟨found, -, h⟩ := Except.bind_eq_ok_iff.1 hstep
      cases h

end Reader

theorem exists_of_ofTokens {ts : List Token} {o : Options} (h : ofTokens ts = .ok o) :
    ∃ n : Node, ts = n.tokens := by
  obtain ⟨r, hrun, hresult⟩ := Except.bind_eq_ok_iff.1 h
  refine Reader.exists_of_finishes ⟨r, hrun, ?_⟩
  split at hresult
  · rename_i hfinished
    exact hfinished
  · cases hresult

end SaveAs.Options
