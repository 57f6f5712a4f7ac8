import SaveAs.Proofs.Options.Holding

/-!
# Which field is blamed

A value may have several things that their fields do not hold, and one of them is reported: from a value
the one that comes first in the order in which fields are asked for, from a text the one that comes first
in the text. These differ where the text has the members in another order than that of their names, and
nowhere else.
-/

namespace SaveAs.Options

open Json (Node Token Value Piece)

/-- A field for which a value has something that it does not hold. -/
def Faulty (v : Value) (f : Field) : Prop :=
  ∃ x, given? v f = some x ∧ ¬ f.Holds x

/-- Fields with what a value has for them, as far as it has something. -/
def givenFor (fields : List Field) (v : Value) : List (Field × Value) :=
  fields.filterMap fun f => (given? v f).map fun x => (f, x)

/-- The settings that fields make of what they are given. -/
def settingsGiven (given : List (Field × Value)) : Except ReadError (List Setting) :=
  given.mapM fun (f, x) => f.accept (.ofValue x)

theorem settingsGiven_cons (f : Field) (x : Value) (rest : List (Field × Value)) :
    settingsGiven ((f, x) :: rest) = do return (← f.accept (.ofValue x)) :: (← settingsGiven rest) := by
  rw [settingsGiven, List.mapM_cons]
  rfl

variable {v w x : Value} {f : Field} {n : Node} {text : String} {items : List Node} {vs : List Value}
  {members : List (List Piece × Node)} {listed ws : List (String × Value)}

/-! ### From a value -/

/-- All of it is accepted, or the first that its field does not hold is reported. -/
theorem settingsGiven_cases (given : List (Field × Value)) :
    ((∀ e ∈ given, e.1.Holds e.2) ∧
      ∃ settings, settingsGiven given = .ok settings) ∨
    ∃ before f x after, given = before ++ (f, x) :: after ∧ (∀ e ∈ before, e.1.Holds e.2) ∧
      ¬ f.Holds x ∧ settingsGiven given = .error (f.complaint x) := by
  induction given with
  | nil => exact .inl ⟨nofun, [], rfl⟩
  | cons entry rest ih =>
    obtain ⟨k, y⟩ := entry
    rw [settingsGiven_cons]
    by_cases hk : k.Holds y
    · obtain ⟨s, hs⟩ := holds_iff.1 hk
      have hheld {before : List (Field × Value)} (hbefore : ∀ e ∈ before, e.1.Holds e.2) :
          ∀ e ∈ (k, y) :: before, e.1.Holds e.2 := by
        intro e he
        obtain rfl | he := List.mem_cons.1 he
        · exact hk
        · exact hbefore e he
      obtain ⟨hrest, settings, hsettings⟩ | ⟨before, f, x, after, rfl, hbefore, hf, herror⟩ := ih
      · left
        refine ⟨hheld hrest, s :: settings, ?_⟩
        rw [hs, hsettings]
        rfl
      · right
        refine ⟨(k, y) :: before, f, x, after, rfl, hheld hbefore, hf, ?_⟩
        rw [hs, herror]
        rfl
    · right
      refine ⟨[], k, y, rest, rfl, nofun, hk, ?_⟩
      rw [accept_of_not_holds hk]
      rfl

/-- Where all fields are asked for in some order, the first faulty one is reported. -/
theorem read_givenFor {fields : List Field} {precedes : Field → Field → Prop} (hrefl : ∀ f, precedes f f)
    (horder : fields.Pairwise precedes) (hall : ∀ f, f ∈ fields) (v : Value) :
    ((∀ f, ¬ Faulty v f) ∧
      ∃ o, (settingsGiven (givenFor fields v)).map ofSettings = .ok o) ∨
    ∃ f x, given? v f = some x ∧ ¬ f.Holds x ∧ (∀ g, Faulty v g → precedes f g) ∧
      (settingsGiven (givenFor fields v)).map ofSettings = .error (f.complaint x) := by
  have hgiven (f : Field) (x : Value) : (f, x) ∈ givenFor fields v ↔ given? v f = some x := by
    simp [givenFor, hall]
  have hpairwise : (givenFor fields v).Pairwise fun a b => precedes a.1 b.1 := by
    apply List.Pairwise.filterMap _ _ horder
    intro f g hfg a ha b hb
    obtain ⟨_, -, rfl⟩ := Option.map_eq_some_iff.1 ha
    obtain ⟨_, -, rfl⟩ := Option.map_eq_some_iff.1 hb
    exact hfg
  obtain ⟨hheld, settings, hok⟩ | ⟨before, f, x, after, hsplit, hbefore, hf, herror⟩ :=
    settingsGiven_cases (givenFor fields v)
  · left
    refine ⟨?_, ofSettings settings, by rw [hok, Except.map]⟩
    rintro f ⟨x, hx, hf⟩
    exact hf (hheld _ ((hgiven f x).2 hx))
  · right
    have hfound : (f, x) ∈ givenFor fields v := by simp [hsplit]
    refine ⟨f, x, (hgiven f x).1 hfound, hf, ?_, by rw [herror, Except.map]⟩
    rintro g ⟨y, hy, hg⟩
    have hmem := (hgiven g y).2 hy
    rw [hsplit] at hmem hpairwise
    rcases List.mem_append.1 hmem with hmem | hmem
    · exact absurd (hbefore _ hmem) hg
    · rcases List.mem_cons.1 hmem with heq | hmem
      · obtain rfl : g = f := congrArg Prod.fst heq
        exact hrefl g
      · exact (List.pairwise_cons.1 (List.pairwise_append.1 hpairwise).2.1).1 _ hmem

/-- An object is read without a faulty field, or the one of the least name is reported. -/
theorem ofValue_object (ws : List (String × Value)) :
    ((∀ f, ¬ Faulty (.object ws) f) ∧ ∃ o, ofValue (.object ws) = .ok o) ∨
    ∃ f x, given? (.object ws) f = some x ∧ ¬ f.Holds x ∧
      (∀ g, Faulty (.object ws) g → f.key ≤ g.key) ∧ ofValue (.object ws) = .error (f.complaint x) := by
  have horder : Field.sorted.Pairwise fun f g => f.key ≤ g.key := by decide
  have hall (f : Field) : f ∈ Field.sorted := by cases f <;> decide
  exact read_givenFor (fun f => String.le_refl f.key) horder hall (.object ws)

theorem ofValue_array_eq (hlength : vs.length ≤ 4) :
    ofValue (.array vs) = (settingsGiven (givenFor Field.positional (.array vs))).map ofSettings := by
  have hfit : ¬ Field.positional.length < vs.length := Nat.not_lt.2 hlength
  have hsettings : settingsOfItems vs = do
      let settings ← settingsGiven (Field.positional.zip vs)
      if Field.positional.length < vs.length then throw (.tooLong vs.length)
      return settings := rfl
  have hgiven : Field.positional.zip vs = givenFor Field.positional (.array vs) := zip_positional vs
  rw [ofValue, hsettings, hgiven]
  simp only [if_neg hfit]
  cases settingsGiven (givenFor Field.positional (.array vs)) <;> rfl

/-- So is an array with an item for each field at most, or the faulty one of the least position is
reported. -/
theorem ofValue_array (hlength : vs.length ≤ 4) :
    ((∀ f, ¬ Faulty (.array vs) f) ∧ ∃ o, ofValue (.array vs) = .ok o) ∨
    ∃ f x, given? (.array vs) f = some x ∧ ¬ f.Holds x ∧
      (∀ g, Faulty (.array vs) g → Field.positional.idxOf f ≤ Field.positional.idxOf g) ∧
      ofValue (.array vs) = .error (f.complaint x) := by
  have horder : Field.positional.Pairwise fun f g =>
      Field.positional.idxOf f ≤ Field.positional.idxOf g := by decide
  have hall (f : Field) : f ∈ Field.positional := by cases f <;> decide
  rw [ofValue_array_eq hlength]
  exact read_givenFor (fun f => Nat.le_refl (Field.positional.idxOf f)) horder hall (.array vs)

/-! ### From a text -/

theorem exists_of_forall₂ {α β : Type} {R : α → β → Prop} {as : List α} {bs : List β}
    (h : List.Forall₂ R as bs) {a : α} (ha : a ∈ as) : ∃ b ∈ bs, R a b := by
  induction h with
  | nil => cases ha
  | cons hab _ ih =>
    obtain rfl | ha := List.mem_cons.1 ha
    · exact ⟨_, List.mem_cons_self, hab⟩
    · obtain ⟨b, hb, hab⟩ := ih ha
      exact ⟨b, List.mem_cons_of_mem _ hb, hab⟩

theorem exists_first {α : Type} {p : α → Prop} {as : List α} (h : ∃ a ∈ as, p a) :
    ∃ before a after, as = before ++ a :: after ∧ p a ∧ ∀ b ∈ before, ¬ p b := by
  classical
  obtain ⟨c, hc, hpc⟩ := h
  have hsome : (as.find? fun a => decide (p a)).isSome := by
    rw [List.find?_isSome]
    exact ⟨c, hc, decide_eq_true hpc⟩
  obtain ⟨a, ha⟩ := Option.isSome_iff_exists.1 hsome
  obtain ⟨hpa, before, after, hsplit, hbefore⟩ := List.find?_eq_some_iff_append.1 ha
  refine ⟨before, a, after, hsplit, of_decide_eq_true hpa, fun b hb => ?_⟩
  simpa using hbefore b hb

/-- Members whose names denote texts and that give each field what a value has for it, once. -/
structure Presents (members : List (List Piece × Node)) (v : Value) : Prop where
  named : ∀ m ∈ members, ∃ name, Node.text? m.1 = some name
  given : ∀ m ∈ members, ∀ f, fieldOf? m = some f → ∃ x, given? v f = some x ∧ m.2.Denotes x
  found : ∀ f x, given? v f = some x → ∃ m ∈ members, fieldOf? m = some f
  nodup : (members.filterMap fieldOf?).Nodup

theorem filterMap_fieldOf? (h : List.Forall₂ Node.MemberDenotes members listed) :
    members.filterMap fieldOf? = (known listed).map (·.1) := by
  induction h with
  | nil => rfl
  | @cons member entry members listed hmember _ ih =>
    obtain @⟨pieces, name, n, v, hname, -⟩ := hmember
    have hfield : fieldOf? (pieces, n) = Field.ofKey? name := by
      rw [fieldOf?, hname]
      rfl
    cases hkey : Field.ofKey? name with
    | none => rw [List.filterMap_cons_none (hfield.trans hkey), known_of_none hkey, ih]
    | some f =>
      rw [List.filterMap_cons_some (hfield.trans hkey), known_of_some hkey, ih]
      rfl

theorem presents_of_denotes (h : (Node.object members).Denotes (.object ws))
    (hnames : (ws.map (·.1)).Nodup) : Presents members (.object ws) := by
  cases h with
  | @object members listed ws hmembers horder =>
    have hentry (f : Field) (x : Value) : given? (.object ws) f = some x ↔ (f.key, x) ∈ listed :=
      (member?_eq_some_iff hnames).trans horder.mem_iff.symm
    refine ⟨?_, ?_, ?_, ?_⟩
    · intro m hm
      obtain ⟨_, -, hname, -⟩ := exists_of_forall₂ hmembers hm
      exact ⟨_, hname⟩
    · intro m hm f hfield
      obtain ⟨_, hmem, hmember⟩ := exists_of_forall₂ hmembers hm
      obtain @⟨pieces, name, n, x, hname, hvalue⟩ := hmember
      obtain rfl : name = f.key := Option.some.inj (hname.symm.trans (fieldOf?_eq_some_iff.1 hfield))
      exact ⟨x, (hentry f x).2 hmem, hvalue⟩
    · intro f x hx
      obtain ⟨m, hm, hname, -⟩ := exists_of_forall₂ hmembers.flip ((hentry f x).1 hx)
      exact ⟨_, hm, fieldOf?_eq_some_iff.2 hname⟩
    · rw [filterMap_fieldOf? hmembers]
      exact nodup_known ((horder.map _).nodup_iff.2 hnames)

theorem Presents.fits (h : Presents members v) {m : List Piece × Node} (hm : m ∈ members)
    (hsound : ∀ f, fieldOf? m = some f → ¬ Faulty v f) : Fits m := by
  refine ⟨h.named m hm, fun f hfield => ?_⟩
  obtain ⟨x, hx, hvalue⟩ := h.given m hm f hfield
  refine ⟨x, hvalue, ?_⟩
  by_contra hholds
  exact hsound f hfield ⟨x, hx, hholds⟩

theorem ofText_object (htext : (Node.object members).Derives text) :
    ofText text = (members.foldlM takeMember []).map ofSettings := by
  rw [ofText, Node.scan_of_derives htext, ofTokens_object]

/-- Of the faulty members of a text the first is reported. -/
theorem Presents.ofText_eq_error (h : Presents members v) (htext : (Node.object members).Derives text)
    (hfaulty : ∃ f, Faulty v f) :
    ∃ before m after f x, members = before ++ m :: after ∧ fieldOf? m = some f ∧
      given? v f = some x ∧ ¬ f.Holds x ∧
      (∀ m' ∈ before, ∀ g, fieldOf? m' = some g → ¬ Faulty v g) ∧
      ofText text = .error (f.complaint x) := by
  have hmember : ∃ m ∈ members, ∃ f, fieldOf? m = some f ∧ Faulty v f := by
    obtain ⟨f, x, hx, hholds⟩ := hfaulty
    obtain ⟨m, hm, hfield⟩ := h.found f x hx
    exact ⟨m, hm, f, hfield, x, hx, hholds⟩
  obtain ⟨before, m, after, hsplit, ⟨f, hfield, x, hx, hholds⟩, hbefore⟩ := exists_first hmember
  have hsound : ∀ m' ∈ before, ∀ g, fieldOf? m' = some g → ¬ Faulty v g :=
    fun m' hm' g hg hfaulty => hbefore m' hm' ⟨g, hg, hfaulty⟩
  refine ⟨before, m, after, f, x, hsplit, hfield, hx, hholds, hsound, ?_⟩
  have hfits : ∀ m' ∈ before, Fits m' := by
    intro m' hm'
    exact h.fits (by simp [hsplit, hm']) (hsound m' hm')
  have hnodup := h.nodup
  rw [hsplit, List.filterMap_append, List.filterMap_cons_some hfield] at hnodup
  obtain ⟨final, hfinal, hfields⟩ :=
    @foldlM_takeMember_of_fits [] before hfits (List.nodup_append.1 hnodup).1
  have hnew : f ∉ final.map (·.field) := by
    rw [hfields]
    intro hf
    exact (List.nodup_append.1 hnodup).2.2 f hf f List.mem_cons_self rfl
  have hvalue : m.2.Denotes x := by
    obtain ⟨y, hy, hvalue⟩ := h.given m (by simp [hsplit]) f hfield
    rwa [Option.some.inj (hx.symm.trans hy)]
  rw [ofText_object htext, hsplit, List.foldlM_append, hfinal]
  simp only [bind, Except.bind, List.foldlM_cons, takeMember_of_field hfield hnew,
    takeField_of_not_holds hvalue hholds]
  rfl

theorem ofText_array (htext : (Node.array items).Derives text) (h : (Node.array items).Denotes (.array vs))
    (hlength : vs.length ≤ 4) : ofText text = ofValue (.array vs) := by
  cases h with
  | array hitems =>
    have hfit : vs.length ≤ Field.positional.length := hlength
    have hgiven : Field.positional.zip vs = givenFor Field.positional (.array vs) := zip_positional vs
    have hfound : accepted (Field.positional.zip (vs.map Found.ofValue)) =
        settingsGiven (givenFor Field.positional (.array vs)) := by
      rw [← hgiven, List.zip_map_right]
      exact accepted_map _
    rw [ofText, Node.scan_of_derives htext, ofTokens_array, ofValue_array_eq hlength,
      takeItems_eq hitems hfit, hfound]
    cases settingsGiven (givenFor Field.positional (.array vs)) <;> rfl

/-! ### Where both say the same -/

/-- A tree whose known members have their names in order, or an array with an item for each field at most. -/
def Ordered : Node → Prop
  | .object members => (members.filterMap fieldOf?).Pairwise fun f g => f.key < g.key
  | .array items => items.length ≤ 4
  | _ => True

/-- If the known members stand in the order of their names, the first faulty one has the least name. -/
theorem Presents.ofText_eq (h : Presents members (.object ws))
    (htext : (Node.object members).Derives text)
    (hvalue : (Node.object members).Denotes (.object ws)) (hnames : (ws.map (·.1)).Nodup)
    (hordered : Ordered (.object members)) : ofText text = ofValue (.object ws) := by
  obtain ⟨-, o, ho⟩ | ⟨f, x, hx, hf, hleast, herror⟩ := ofValue_object ws
  · rw [ho]
    exact (ofText_eq_ok_iff htext hvalue hnames o).2 ho
  · obtain ⟨before, m, after, g, y, hsplit, hfield, hy, hg, hbefore, herror'⟩ :=
      h.ofText_eq_error htext ⟨f, x, hx, hf⟩
    have hle : f.key ≤ g.key := hleast g ⟨y, hy, hg⟩
    have hge : g = f ∨ g.key < f.key := by
      obtain ⟨m', hm', hfield'⟩ := h.found f x hx
      rw [hsplit] at hm'
      obtain hm' | hm' := List.mem_append.1 hm'
      · exact absurd ⟨x, hx, hf⟩ (hbefore m' hm' f hfield')
      · obtain rfl | hm' := List.mem_cons.1 hm'
        · exact .inl (Option.some.inj (hfield.symm.trans hfield'))
        · right
          rw [Ordered, hsplit, List.filterMap_append, List.filterMap_cons_some hfield] at hordered
          have hlater := (List.pairwise_cons.1 (List.pairwise_append.1 hordered).2.1).1
          exact hlater f (List.mem_filterMap.2 ⟨m', hm', hfield'⟩)
    obtain rfl : g = f := by
      obtain heq | hlt := hge
      · exact heq
      · exact absurd hlt (String.not_lt.2 hle)
    rw [herror, herror', Option.some.inj (hx.symm.trans hy)]

theorem ofText_of_scalar (htext : n.Derives text) (h : n.Denotes v) (hscalar : Json.Nesting.Scalar n.head) :
    ofText text = ofValue v := by
  have hstep : Reader.step ⟨[], .start⟩ n.head = .error (.wrongType (Found.ofValue v) .options) := by
    rw [Reader.step_start_of_scalar hscalar, ofToken_head h]
    rfl
  rw [ofText, Node.scan_of_derives htext, Node.tokens_of_scalar hscalar, ofTokens,
    Reader.run_of_error hstep]
  cases h with
  | array | object => cases hscalar
  | _ => rfl

/-- Over a tree in order, a text is read as its value is, message and all. -/
theorem ofText_eq_ofValue (htext : n.Derives text) (h : n.Denotes v) (hnames : (names v).Nodup)
    (hordered : Ordered n) : ofText text = ofValue v := by
  cases n with
  | object members =>
    cases v with
    | object ws => exact (presents_of_denotes h hnames).ofText_eq htext h hnames hordered
    | _ => cases h
  | array items =>
    cases v with
    | array vs =>
      have hlength : vs.length ≤ 4 := by
        cases h with
        | array hitems => exact hitems.length_eq ▸ hordered
      exact ofText_array htext h hlength
    | _ => cases h
  | _ => exact ofText_of_scalar htext h trivial

theorem SameKnown.ofValue_eq (h : SameKnown v w) (hv : (names v).Nodup) (hw : (names w).Nodup) :
    ofValue v = ofValue w := by
  have hgiven := h.given?_eq hv hw
  cases h with
  | refl => rfl
  | @object members others h =>
    have hsettings (ws : List (String × Value)) :
        settingsOfMembers ws = settingsGiven (givenFor Field.sorted (.object ws)) := rfl
    rw [ofValue, ofValue, hsettings, hsettings, givenFor, givenFor]
    simp only [hgiven]

/-- Members under unknown names may be left out. -/
theorem foldlM_takeMember_filter (hnamed : ∀ m ∈ members, ∃ name, Node.text? m.1 = some name)
    (settings : List Setting) :
    members.foldlM takeMember settings =
      (members.filter fun m => (fieldOf? m).isSome).foldlM takeMember settings := by
  induction members generalizing settings with
  | nil => rfl
  | cons member rest ih =>
    have hrest := ih fun m hm => hnamed m (List.mem_cons_of_mem _ hm)
    cases hfield : fieldOf? member with
    | none =>
      rw [List.filter_cons_of_neg (by simp [hfield]), List.foldlM_cons,
        takeMember_of_no_field (hnamed member List.mem_cons_self) hfield]
      exact hrest settings
    | some f =>
      rw [List.filter_cons_of_pos (by simp [hfield]), List.foldlM_cons, List.foldlM_cons]
      cases takeMember settings member with
      | error e => rfl
      | ok next => exact hrest next

/-- Of several faulty fields one is reported: reading an object as a value, that of the least name, in
whatever order the members are listed; reading a text of it, that of the first member in the text; and
reading an array either way, that of the first position. So both readers say the same of a text that has
the known members in the order of their names and of an array of at most four items, and of any other
value that is no object; and neither minds members under unknown names. -/
theorem first_fault_is_reported :
    -- objects
    (∀ {ws : List (String × Value)}, (ws.map (·.1)).Nodup → (∃ f, Faulty (.object ws) f) →
      (∃ f x, given? (.object ws) f = some x ∧ ¬ f.Holds x ∧
        (∀ g, Faulty (.object ws) g → f.key ≤ g.key) ∧
        ofValue (.object ws) = .error (f.complaint x)) ∧
      ∀ {members : List (List Piece × Node)} {text : String}, (Node.object members).Derives text →
        (Node.object members).Denotes (.object ws) →
        ∃ before m after f x, members = before ++ m :: after ∧ fieldOf? m = some f ∧
          given? (.object ws) f = some x ∧ ¬ f.Holds x ∧
          (∀ m' ∈ before, ∀ g, fieldOf? m' = some g → ¬ Faulty (.object ws) g) ∧
          ofText text = .error (f.complaint x)) ∧
    -- arrays
    (∀ {vs : List Value}, vs.length ≤ 4 → (∃ f, Faulty (.array vs) f) →
      ∃ f x, given? (.array vs) f = some x ∧ ¬ f.Holds x ∧
        (∀ g, Faulty (.array vs) g → Field.positional.idxOf f ≤ Field.positional.idxOf g) ∧
        ofValue (.array vs) = .error (f.complaint x) ∧
        ∀ {items : List Node} {text : String}, (Node.array items).Derives text →
          (Node.array items).Denotes (.array vs) → ofText text = .error (f.complaint x)) ∧
    -- one answer
    (∀ {n : Node} {v : Value} {text : String}, n.Derives text → n.Denotes v → (names v).Nodup →
      Ordered n → ofText text = ofValue v) ∧
    -- unknown members
    (∀ {v w : Value}, SameKnown v w → (names v).Nodup → (names w).Nodup → ofValue v = ofValue w) ∧
    (∀ {members others : List (List Piece × Node)} {text other : String},
      (Node.object members).Derives text → (Node.object others).Derives other →
      (∀ m ∈ members ++ others, ∃ name, Node.text? m.1 = some name) →
      (members.filter fun m => (fieldOf? m).isSome) = (others.filter fun m => (fieldOf? m).isSome) →
      ofText text = ofText other) := by
  refine ⟨?_, ?_, ?_, ?_, ?_⟩
  · intro ws hnames hfaulty
    refine ⟨?_, fun htext hvalue => (presents_of_denotes hvalue hnames).ofText_eq_error htext hfaulty⟩
    obtain ⟨hsound, -⟩ | hreported := ofValue_object ws
    · obtain ⟨f, hf⟩ := hfaulty
      exact absurd hf (hsound f)
    · exact hreported
  · intro vs hlength hfaulty
    obtain ⟨hsound, -⟩ | ⟨f, x, hx, hf, hleast, herror⟩ := ofValue_array hlength
    · obtain ⟨f, hf⟩ := hfaulty
      exact absurd hf (hsound f)
    · refine ⟨f, x, hx, hf, hleast, herror, fun htext hvalue => ?_⟩
      rw [ofText_array htext hvalue hlength, herror]
  · intro n v text htext hvalue hnames hordered
    exact ofText_eq_ofValue htext hvalue hnames hordered
  · intro v w hsame hv hw
    exact hsame.ofValue_eq hv hw
  · intro members others text other htext hother hnamed hknown
    have hmembers : ∀ m ∈ members, ∃ name, Node.text? m.1 = some name :=
      fun m hm => hnamed m (List.mem_append_left _ hm)
    have hothers : ∀ m ∈ others, ∃ name, Node.text? m.1 = some name :=
      fun m hm => hnamed m (List.mem_append_right _ hm)
    rw [ofText_object htext, ofText_object hother, foldlM_takeMember_filter hmembers,
      foldlM_takeMember_filter hothers, hknown]

/-- Two faulty members in an order other than that of their names, the same in order, and two faulty
items. -/
theorem faults_of_disordered_members :
    ofValue (.object [("mimeType", .null), ("fileExtension", .natural 5)]) =
        .error (.wrongType (.integer 5) .string) ∧
      ofText "\x7b\"mimeType\": null, \"fileExtension\": 5\x7d" = .error (.wrongType .null .string) ∧
      ofText "[null, true]" = .error (.wrongType .null .string) ∧
      ofText "\x7b\"fileExtension\": 5, \"mimeType\": null\x7d" =
        ofValue (.object [("mimeType", .null), ("fileExtension", .natural 5)]) ∧
      ofValue (.object [("x", .null), ("mimeType", .null), ("fileExtension", .natural 5)]) =
        ofValue (.object [("mimeType", .null), ("fileExtension", .natural 5)]) ∧
      ofText "\x7b\"x\": [], \"mimeType\": null, \"fileExtension\": 5\x7d" =
        ofText "\x7b\"mimeType\": null, \"fileExtension\": 5\x7d" := by
  obtain ⟨hobject, harray, hone, hvalue, htext⟩ := first_fault_is_reported
  let type : List Piece × Node := ("mimeType".toList.map .char, .null)
  let extension : List Piece × Node := ("fileExtension".toList.map .char, .number ⟨false, ['5'], none, none⟩)
  have htype : Node.MemberDenotes type ("mimeType", .null) := .intro (by decide) .null
  have hextension : Node.MemberDenotes extension ("fileExtension", .natural 5) :=
    .intro (by decide) (.number (by decide))
  have hdisordered : (Node.object [type, extension]).Derives
      "\x7b\"mimeType\": null, \"fileExtension\": 5\x7d" :=
    Node.derives_of_scan (by decide +kernel)
  have hfaulty : Faulty (.object [("mimeType", .null), ("fileExtension", .natural 5)]) .extension :=
    ⟨.natural 5, rfl, nofun⟩
  obtain ⟨hleast, hfirst⟩ := hobject (by decide) ⟨_, hfaulty⟩
  refine ⟨?_, ?_, ?_, ?_, ?_, ?_⟩
  · obtain ⟨f, x, hx, -, hf, herror⟩ := hleast
    have hle := hf .extension hfaulty
    cases f with
    | extension => exact herror.trans (by cases hx; rfl)
    | stem => cases hx
    | maxSuffix | mimeType => exact absurd hle (by decide)
  · obtain ⟨before, m, after, f, x, hsplit, hm, hx, -, hbefore, herror⟩ :=
      hfirst hdisordered (.object (.cons htype (.cons hextension .nil)) (.refl _))
    cases before with
    | nil =>
      obtain ⟨rfl, -⟩ := List.cons.inj hsplit
      obtain rfl : Field.mimeType = f := Option.some.inj hm
      cases hx
      exact herror
    | cons member rest =>
      obtain ⟨rfl, -⟩ := List.cons.inj hsplit
      exact absurd ⟨.null, rfl, nofun⟩ (hbefore _ List.mem_cons_self .mimeType rfl)
  · obtain ⟨f, x, hx, -, hf, -, herror⟩ :=
      @harray [.null, .boolean true] (by decide) ⟨.mimeType, .null, rfl, nofun⟩
    have hle := hf .mimeType ⟨.null, rfl, nofun⟩
    cases f with
    | mimeType =>
      cases hx
      exact herror (Node.derives_of_scan (n := .array [.null, .boolean true]) (by decide +kernel))
        (.array (.cons .null (.cons (.boolean true) .nil)))
    | stem | extension | maxSuffix => exact absurd hle (by decide)
  · exact hone (n := .object [extension, type]) (Node.derives_of_scan (by decide +kernel))
      (.object (.cons hextension (.cons htype .nil)) (.swap _ _ _)) (by decide) (by unfold Ordered; decide)
  · exact hvalue (.object (.refl _)) (by decide) (by decide)
  · have hlonger : (Node.object [(['x'].map .char, .array []), type, extension]).Derives
        "\x7b\"x\": [], \"mimeType\": null, \"fileExtension\": 5\x7d" :=
      Node.derives_of_scan (by decide +kernel)
    refine htext hlonger hdisordered ?_ rfl
    intro m hm
    simp only [List.cons_append, List.nil_append, List.mem_cons, List.not_mem_nil, or_false] at hm
    rcases hm with rfl | rfl | rfl | rfl | rfl <;> exact ⟨_, rfl⟩

end SaveAs.Options
