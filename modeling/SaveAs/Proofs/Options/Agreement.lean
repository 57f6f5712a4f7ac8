import SaveAs.Proofs.Options.Taking

/-!
# Two readers, one language

Options are read from a value by a lookup for each field, and from a text token by token. Both decide
field by field, so a text is read just like the value that it denotes. A text that is read at all is one
of the grammar, and the reader has told a repeated field and an item too many from it.
-/

namespace SaveAs.Options

open Json (Node Token Value Piece)

variable {members : List (List Piece × Node)} {items : List Node} {n : Node} {v : Value} {f : Field}
  {settings final : List Setting} {o : Options} {text : String}

/-! ### Fields as values -/

/-- A setting as the value that gives it. -/
def Setting.value : Setting → Value
  | .mimeType s | .stem s | .extension s => .string s
  | .maxSuffix n => .natural n.toNat

def value (o : Options) (f : Field) : Value :=
  (o.setting f).value

theorem setting_field (o : Options) (f : Field) : (o.setting f).field = f := by
  cases f <;> rfl

theorem ofValue_eq_string {s : String} (h : Found.ofValue v = .string s) : v = .string s := by
  cases v with
  | string => exact congrArg Value.string (Found.string.inj h)
  | number x => cases x <;> cases h
  | _ => cases h

theorem ofValue_eq_integer {m : Int} (h : Found.ofValue v = .integer m) : v = .number (.integer m) := by
  cases v with
  | number x =>
    cases x with
    | integer => rw [Found.integer.inj h]
    | float => cases h
  | _ => cases h

/-- A field accepts just the value of its settings. -/
theorem accept_ofValue_iff {s : Setting} :
    f.accept (.ofValue v) = .ok s ↔ s.field = f ∧ s.value = v := by
  constructor
  · intro h
    refine ⟨Field.field_of_accept h, ?_⟩
    unfold Field.accept at h
    split at h
    case h_1 hv | h_2 hv | h_3 hv =>
      cases h
      exact (ofValue_eq_string hv).symm
    case h_4 hv =>
      split at h
      · rename_i hrange
        cases h
        rw [ofValue_eq_integer hv, Setting.value, UInt32.toNat_ofNat_of_lt' (by omega), Value.natural,
          Int.toNat_of_nonneg hrange.1]
      · cases h
    case h_5 => cases h
  · rintro ⟨rfl, rfl⟩
    cases s with
    | maxSuffix n =>
      have hlt := n.toNat_lt_size
      rw [Setting.field, Setting.value, Value.natural, Found.ofValue, Found.ofNumber, Field.accept,
        if_pos ⟨by omega, by omega⟩, Int.toNat_natCast, UInt32.ofNat_toNat]
    | _ => rfl

theorem gives_iff (o base : Options) (f : Field) (given : Option Value) :
    o.Gives base f (given.map Found.ofValue) ↔ o.value f = given.getD (base.value f) := by
  have hsome (v : Value) : f.accept (.ofValue v) = .ok (o.setting f) ↔ o.value f = v :=
    accept_ofValue_iff.trans (and_iff_right (o.setting_field f))
  cases given with
  | some v => exact hsome v
  | none =>
    -- the default is what its own value gives
    have hbase : f.accept (.ofValue (base.value f)) = .ok (base.setting f) :=
      accept_ofValue_iff.2 ⟨base.setting_field f, rfl⟩
    rw [Option.map_none, Gives, Option.getD_none, ← hsome, hbase, Except.ok.injEq, eq_comm]

/-! ### One language -/

/-- The names of an object; those of objects inside of it are not asked for. -/
def names : Value → List String
  | .object members => members.map (·.1)
  | _ => []

/-- Reading the tokens of a tree is reading the value that it denotes. -/
theorem ofTokens_eq_ok_iff (h : n.Denotes v) (hnames : (names v).Nodup) (o : Options) :
    ofTokens n.tokens = .ok o ↔ ofValue v = .ok o := by
  cases h with
  | null | boolean | number | string =>
    exact iff_of_false (ofTokens_of_scalar (by trivial) o) fun h => by cases h
  | @object members listed vs hmembers horder =>
    have hlisted : (listed.map (·.1)).Nodup := (horder.map _).nodup_iff.2 hnames
    rw [ofTokens_object, @foldlM_takeMember _ _ [] hmembers (nodup_known hlisted), ofValue_eq_ok_iff]
    have hfold : ((accepted (known listed)).map fun taken => [] ++ taken).map ofSettings =
        (accepted (known listed)).map (·.foldl Setting.apply {}) := by
      cases accepted (known listed) <;> rfl
    rw [hfold, foldl_accepted_iff (nodup_known hlisted)]
    simp only [lookup_known, given?, member?_of_perm horder hnames, Readable, true_and]
  | @array items vs hitems =>
    have htaken (final : List Setting) : takeItems Field.positional [] items = .ok final ↔
        settingsOfItems vs = .ok final := by
      rw [takeItems_eq_ok_iff hitems, settingsOfItems_eq_ok_iff, zip_positional]
      simp only [List.getElem?_map, List.nil_append]
      exact and_congr_right fun _ => iff_of_eq (congrArg (· = Except.ok final) (congrFun Except.map_id _))
    rw [ofTokens_array, ofValue, Except.map_eq_ok_iff, Except.map_eq_ok_iff]
    simp only [htaken]

/-! ### What the reader of tokens has told -/

/-- The field of a member, if its name is known. -/
def fieldOf? (member : List Piece × Node) : Option Field :=
  (Node.text? member.1).bind Field.ofKey?

theorem takeField_inv (h : takeField settings f n = .ok final) :
    ∃ s : Setting, s.field = f ∧ final = settings ++ [s] := by
  obtain ⟨found, -, h⟩ := Except.bind_eq_ok_iff.1 h
  obtain ⟨s, haccept, h⟩ := Except.bind_eq_ok_iff.1 h
  exact ⟨s, Field.field_of_accept haccept, (Except.pure_eq_ok_iff.1 h).symm⟩

theorem takeMember_inv {member : List Piece × Node} (h : takeMember settings member = .ok final) :
    fieldOf? member = none ∧ final = settings ∨
      ∃ s : Setting, fieldOf? member = some s.field ∧ s.field ∉ settings.map (·.field) ∧
        final = settings ++ [s] := by
  rw [takeMember] at h
  rw [fieldOf?]
  split at h
  · cases h
  · rename_i name hname
    rw [hname, Option.bind_some]
    split at h
    · rename_i hkey
      exact .inl ⟨hkey, (Except.ok.inj h).symm⟩
    · rename_i f hkey
      split at h
      · cases h
      · rename_i hnew
        obtain ⟨s, rfl, rfl⟩ := takeField_inv h
        refine .inr ⟨s, hkey, fun hmem => hnew ?_, rfl⟩
        obtain ⟨t, ht, hfield⟩ := List.mem_map.1 hmem
        exact List.any_eq_true.2 ⟨t, ht, decide_eq_true hfield⟩

/-- No field is taken twice. -/
theorem nodup_of_foldlM_takeMember (h : members.foldlM takeMember settings = .ok final)
    (hnodup : (settings.map (·.field)).Nodup) :
    (settings.map (·.field) ++ members.filterMap fieldOf?).Nodup := by
  induction members generalizing settings with
  | nil => simpa using hnodup
  | cons member rest ih =>
    rw [List.foldlM_cons] at h
    obtain ⟨next, hmember, hrest⟩ := Except.bind_eq_ok_iff.1 h
    obtain ⟨hfield, rfl⟩ | ⟨s, hfield, hnew, rfl⟩ := takeMember_inv hmember
    · rw [List.filterMap_cons_none hfield]
      exact ih hrest hnodup
    · rw [List.filterMap_cons_some hfield]
      have hnext : ((settings ++ [s]).map (·.field)).Nodup := by
        rw [List.map_append]
        exact hnodup.append (List.nodup_singleton _) (by simpa using hnew)
      simpa using ih hrest hnext

/-- A tree that options may be read from: an object that gives no field twice, or an array of at most
four items. -/
def Shaped : Node → Prop
  | .object members => (members.filterMap fieldOf?).Nodup
  | .array items => items.length ≤ 4
  | _ => False

theorem shaped_of_ofTokens (h : ofTokens n.tokens = .ok o) : Shaped n := by
  cases n with
  | null | boolean | number | string => exact ofTokens_of_scalar (by trivial) o h
  | object members =>
    rw [ofTokens_object] at h
    obtain ⟨final, hfinal, -⟩ := Except.map_eq_ok_iff.1 h
    exact nodup_of_foldlM_takeMember hfinal List.nodup_nil
  | array items =>
    rw [ofTokens_array] at h
    obtain ⟨final, hfinal, -⟩ := Except.map_eq_ok_iff.1 h
    exact length_le_of_takeItems hfinal

/-! ### Unknown members and order -/

/-- Values that have the same known members, in whatever order and among whatever others. -/
inductive SameKnown : Value → Value → Prop
  | refl (v : Value) : SameKnown v v
  | object {members others : List (String × Value)}
      (h : (members.filter fun m => (Field.ofKey? m.1).isSome).Perm
        (others.filter fun m => (Field.ofKey? m.1).isSome)) :
      SameKnown (.object members) (.object others)

theorem SameKnown.given?_eq {v w : Value} (h : SameKnown v w) (hv : (names v).Nodup)
    (hw : (names w).Nodup) (f : Field) : given? v f = given? w f := by
  cases h with
  | refl => rfl
  | @object members others h =>
    have hknown (u : Value) (rest : List (String × Value)) :
        (f.key, u) ∈ rest ↔ (f.key, u) ∈ rest.filter fun m => (Field.ofKey? m.1).isSome := by
      simp [Field.ofKey?_key]
    refine Option.ext fun u => ?_
    rw [given?, given?, member?_eq_some_iff hv, member?_eq_some_iff hw, hknown u members,
      hknown u others, h.mem_iff]

theorem SameKnown.ofValue_eq_ok_iff {v w : Value} (h : SameKnown v w) (hv : (names v).Nodup)
    (hw : (names w).Nodup) (o : Options) : ofValue v = .ok o ↔ ofValue w = .ok o := by
  have hreadable : Readable v ↔ Readable w := by
    cases h with
    | refl => rfl
    | object => exact iff_of_true trivial trivial
  rw [Options.ofValue_eq_ok_iff, Options.ofValue_eq_ok_iff, hreadable]
  simp only [h.given?_eq hv hw]

/-! ### Texts -/

theorem ofText_eq_ok_iff (htext : n.Derives text) (h : n.Denotes v) (hnames : (names v).Nodup)
    (o : Options) : ofText text = .ok o ↔ ofValue v = .ok o := by
  rw [ofText, Node.scan_of_derives htext]
  exact ofTokens_eq_ok_iff h hnames o

/-- A text of a value, with any blanks, escapes and order of members, is read just like the value. An
integer and a binary64 number are different values, as they are to a field. -/
theorem readers_agree :
    -- a text and a value that it denotes
    (∀ {n : Node} {v : Value} {text : String}, n.Derives text → n.Denotes v → (names v).Nodup →
      ∀ o : Options, (ofText text = .ok o ↔ ofValue v = .ok o) ∧
        (ofText text = .ok o ↔
          Readable v ∧ ∀ f, o.value f = (given? v f).getD (({} : Options).value f))) ∧
    -- two texts of the same known members, or of one value
    (∀ {n m : Node} {v w : Value} {text other : String}, n.Derives text → m.Derives other →
      n.Denotes v → m.Denotes w → (names v).Nodup → (names w).Nodup → SameKnown v w →
      ∀ o : Options, ofText text = .ok o ↔ ofText other = .ok o) ∧
    -- any text at all
    (∀ {text : String} {o : Options}, ofText text = .ok o → ∃ n : Node, n.Derives text ∧ Shaped n) := by
  refine ⟨?_, ?_, ?_⟩
  · intro n v text htext h hnames o
    have hagree := ofText_eq_ok_iff htext h hnames o
    refine ⟨hagree, hagree.trans ((ofValue_eq_ok_iff v o).trans ?_)⟩
    exact and_congr_right fun _ => forall_congr' fun f => gives_iff o {} f (given? v f)
  · intro n m v w text other htext hother h hm hnames hothers hsame o
    rw [ofText_eq_ok_iff htext h hnames, ofText_eq_ok_iff hother hm hothers]
    exact hsame.ofValue_eq_ok_iff hnames hothers o
  · intro text o h
    obtain ⟨n, hn⟩ := exists_of_ofTokens h
    rw [ofText, hn] at h
    exact ⟨n, Node.derives_of_scan hn, shaped_of_ofTokens h⟩

/-- Blanks, escapes in a known name and in its text, an unknown member, and a value that lists them in
another order. -/
theorem read_of_spaced_text :
    ofText "\x7b \"y\" : [null] ,\"\\u006daxSuffix\":10, \"filePrefix\" : \"drawing\\u002d\" \x7d " =
      .ok { stem := "drawing-", maxSuffix := 10 } := by
  have hvalue : Node.Denotes
      (.object [([.char 'y'], .array [.null]),
        (.unit 0x6d :: "axSuffix".toList.map .char, .number ⟨false, ['1', '0'], none, none⟩),
        ("filePrefix".toList.map .char, .string ("drawing".toList.map .char ++ [.unit 0x2d]))])
      (.object [("maxSuffix", .natural 10), ("y", .array [.null]), ("filePrefix", .string "drawing-")]) :=
    .object
      (.cons (.intro (by decide) (.array (.cons .null .nil)))
        (.cons (.intro (by decide) (.number (by decide)))
          (.cons (.intro (by decide) (.string (by decide))) .nil)))
      (.swap _ _ _)
  exact (readers_agree.1 (Node.derives_of_scan (by decide +kernel)) hvalue (by decide) _).1.2 (by decide)

end SaveAs.Options
