import SaveAs.Proofs.Base64.Groups
import SaveAs.Proofs.Session.Delivering

/-!
# Base64: which defect is reported

The decoder reads group by group, looks at a byte left alone at the end first, and lets `=` pass in the
last group only. What it reports is what one scan finds all the same: everything is decided by where the
first byte outside of the alphabet stands, and by what follows it.
-/

namespace SaveAs.Base64

/-- Where the first byte outside of the alphabet stands; the length, if there is none. -/
def foreignAt (bytes : List UInt8) : Nat :=
  bytes.findIdx fun b => (value? b).isNone

/-- How many values the low bits have that no byte takes of the last of some symbols: four bits behind one
byte, and two behind two. -/
def spareValues (symbols : Nat) : Nat :=
  match symbols % 4 with
  | 2 => 16
  | 3 => 4
  | _ => 1

/-- What one scan finds in bytes that start at an offset: a foreign byte that is no padding, then one
symbol too many, then a last symbol with bits that no byte takes. -/
def defectFrom? (offset : Nat) (bytes : List UInt8) : Option Defect :=
  let s := foreignAt bytes
  if s < bytes.length ∧
      (s % 4 < 2 ∨ (∃ b ∈ bytes.drop s, b ≠ pad) ∨ 4 - s % 4 < bytes.length - s) then
    bytes[s]?.map (.symbol · (offset + s))
  else if s % 4 = 1 then some (.length (offset + s))
  else
    (bytes[s - 1]?.filter fun b => (value? b).any (· % spareValues s ≠ 0)).map
      (.lastSymbol · (offset + (s - 1)))

/-- What one scan finds: a foreign last byte that leaves a group of one comes before all else. -/
def firstDefect? (bytes : List UInt8) : Option Defect :=
  if bytes.length % 4 = 1 ∧ ∃ b ∈ bytes.getLast?, b ≠ pad ∧ value? b = none then
    bytes.getLast?.map (.symbol · (bytes.length - 1))
  else defectFrom? 0 bytes

/-- The byte that a defect names stands at its offset; a length is that of the input. -/
def Defect.FoundIn (bytes : List UInt8) : Defect → Prop
  | symbol b i | lastSymbol b i => bytes[i]? = some b
  | length n => n = bytes.length

variable {offset position : Nat} {bytes group rest : List UInt8} {values : List Nat} {d : Defect}

/-! ### Where the symbols end -/

theorem foreignAt_le (bytes : List UInt8) : foreignAt bytes ≤ bytes.length :=
  List.findIdx_le_length

theorem foreignAt_cons (b : UInt8) (rest : List UInt8) :
    foreignAt (b :: rest) = if value? b = none then 0 else foreignAt rest + 1 := by
  rw [foreignAt, List.findIdx_cons]
  cases value? b <;> rfl

/-- Symbols are followed by the foreign bytes of what stands behind them. -/
theorem foreignAt_map_append (h : ∀ n ∈ values, n < 64) (rest : List UInt8) :
    foreignAt (values.map symbol ++ rest) = values.length + foreignAt rest := by
  induction values with
  | nil => simp
  | cons n ns ih =>
    obtain ⟨hn, hns⟩ := List.forall_mem_cons.1 h
    rw [List.map_cons, List.cons_append, foreignAt_cons, value?_symbol hn, if_neg (by simp), ih hns,
      List.length_cons]
    omega

theorem foreignAt_replicate_pad (k : Nat) : foreignAt (List.replicate k pad) = 0 := by
  cases k with
  | zero => rfl
  | succ k => rw [List.replicate_succ, foreignAt_cons, if_pos value?_pad]

/-! ### One group in front of others -/

/-- A group of four is decoded if all of it is in the alphabet; else its first foreign byte is named. -/
theorem error?_decodeQuad (a b c d : UInt8) (offset : Nat) :
    Except.error? (decodeQuad a b c d offset) =
      [a, b, c, d][foreignAt [a, b, c, d]]?.map (.symbol · (offset + foreignAt [a, b, c, d])) := by
  simp only [decodeQuad, valueAt, foreignAt_cons]
  cases value? a with
  | none => rfl
  | some p =>
    cases value? b with
    | none => rfl
    | some q =>
      cases value? c with
      | none => rfl
      | some r => cases value? d <;> rfl

/-- A foreign byte in a group that others follow is a defect, whatever stands behind it. -/
theorem defectFrom?_of_lt (h : foreignAt group < 4) (hgroup : group.length = 4) (hrest : rest ≠ []) :
    defectFrom? offset (group ++ rest) =
      group[foreignAt group]?.map (.symbol · (offset + foreignAt group)) := by
  have hfirst : foreignAt (group ++ rest) = foreignAt group := by
    rw [foreignAt, List.findIdx_append, if_pos (by rw [hgroup]; exact h)]
    rfl
  have hmore := List.length_pos_iff.2 hrest
  rw [defectFrom?, hfirst, List.length_append, hgroup, if_pos (by omega),
    List.getElem?_append_left (by omega)]

/-- Four symbols that others follow shift what is found by four. -/
theorem defectFrom?_of_symbols (h : foreignAt group = 4) (hgroup : group.length = 4) (hrest : rest ≠ []) :
    defectFrom? offset (group ++ rest) = defectFrom? (offset + 4) rest := by
  have hshift : foreignAt (group ++ rest) = foreignAt rest + 4 := by
    rw [foreignAt, List.findIdx_append, if_neg (by rw [hgroup]; exact Nat.not_lt.2 (Nat.le_of_eq h.symm)),
      hgroup]
    rfl
  have hmore := List.length_pos_iff.2 hrest
  have hdrop : (group ++ rest).drop (foreignAt rest + 4) = rest.drop (foreignAt rest) := by
    rw [Nat.add_comm, ← List.drop_drop, List.drop_left' hgroup]
  have hbyte (i : Nat) : (group ++ rest)[i + 4]? = rest[i]? := by
    rw [List.getElem?_append_right (by omega), hgroup, Nat.add_sub_cancel]
  have hmod : (foreignAt rest + 4) % 4 = foreignAt rest % 4 := Nat.add_mod_right _ _
  have hspare : spareValues (foreignAt rest + 4) = spareValues (foreignAt rest) := by
    rw [spareValues, spareValues, hmod]
  have hlt : foreignAt rest + 4 < 4 + rest.length ↔ foreignAt rest < rest.length := by omega
  have hsub : 4 + rest.length - (foreignAt rest + 4) = rest.length - foreignAt rest := by omega
  have hoffset (i : Nat) : offset + (i + 4) = offset + 4 + i := by omega
  simp only [defectFrom?, hshift, hdrop, List.length_append, hgroup, hmod, hspare, hlt, hsub,
    hbyte (foreignAt rest), hoffset (foreignAt rest)]
  split
  · rfl
  · rename_i hplaced
    -- a foreign byte in front would be misplaced, so the last symbol is behind the four
    obtain ⟨i, hi⟩ : ∃ i, foreignAt rest = i + 1 := by
      refine Nat.exists_eq_add_one.2 (Nat.pos_of_ne_zero fun hzero => hplaced ⟨by omega, ?_⟩)
      rw [hzero]
      exact .inl (by decide)
    rw [hi, show i + 1 + 4 - 1 = i + 4 by omega, hbyte, hoffset i, Nat.add_sub_cancel]

/-! ### The last group -/

/-- The symbols of the last group are read up to the first foreign byte, which has to be padding. -/
theorem error?_lastSymbols (offset position : Nat) (group : List UInt8) :
    Except.error? (lastSymbols offset position group) =
      if position + foreignAt group < 2 ∨ ∃ b ∈ group.drop (foreignAt group), b ≠ pad then
        group[foreignAt group]?.map (.symbol · (offset + (position + foreignAt group)))
      else none := by
  induction group generalizing position with
  | nil => simp [lastSymbols, foreignAt, Except.error?]
  | cons b rest ih =>
    rw [lastSymbols, foreignAt_cons]
    by_cases hb : b = pad
    · subst hb
      rw [if_pos rfl, if_pos value?_pad, Nat.add_zero, List.drop_zero]
      by_cases hposition : position < 2
      · rw [if_pos hposition, if_pos (.inl hposition)]
        rfl
      · rw [if_neg hposition, expectPadding]
        by_cases hrest : ∃ b ∈ rest, b ≠ pad
        · rw [if_neg (by simpa using hrest), if_pos (.inr (by simpa using hrest))]
          rfl
        · rw [if_pos (by simpa using hrest), if_neg (by simpa [hposition] using hrest)]
          rfl
    · rw [if_neg hb, valueAt]
      cases hvalue : value? b with
      | none =>
        rw [if_pos rfl, if_pos (.inr ⟨b, by simp, hb⟩)]
        rfl
      | some n =>
        have hread : Except.error? (do
            let n ← Except.ok n
            return n :: (← lastSymbols offset (position + 1) rest) : Except Defect (List Nat)) =
            Except.error? (lastSymbols offset (position + 1) rest) := by
          cases lastSymbols offset (position + 1) rest <;> rfl
        rw [if_neg (Option.some_ne_none n), List.drop_succ_cons, List.getElem?_cons_succ]
        refine hread.trans ((ih (position + 1)).trans ?_)
        rw [Nat.add_right_comm position 1, ← Nat.add_assoc position]

/-- The symbols that were read are those in front of the padding. -/
theorem foreignAt_of_lastSymbols (h : lastSymbols offset position group = .ok values) :
    foreignAt group = values.length ∧ values.map symbol <+: group := by
  obtain ⟨hvalues, k, -, rfl⟩ := lastSymbols_eq_ok_iff.1 h
  rw [foreignAt_map_append hvalues, foreignAt_replicate_pad]
  exact ⟨rfl, _, rfl⟩

theorem filter_symbol {n : Nat} (h : n < 64) (spare : Nat) :
    ((some (symbol n)).filter fun b => (value? b).any (· % spare ≠ 0)) =
      if n % spare = 0 then none else some (symbol n) := by
  rw [Option.filter_some, value?_symbol h]
  by_cases hn : n % spare = 0 <;> simp [hn]

/-- What keeps the symbols of the last group from being bytes. -/
theorem error?_joinLast (hvalues : ∀ n ∈ values, n < 64) (hlen : values.length ≤ 4) (offset : Nat) :
    Except.error? (joinLast offset values) =
      if values.length = 1 then some (.length (offset + 1))
      else
        ((values.map symbol)[values.length - 1]?.filter fun b =>
          (value? b).any (· % spareValues values.length ≠ 0)).map
            (.lastSymbol · (offset + (values.length - 1))) := by
  match values with
  | [] | [_] => rfl
  | [p, q] =>
    show _ = ((some (symbol q)).filter fun b => (value? b).any (· % 16 ≠ 0)).map _
    rw [filter_symbol (hvalues q (by simp)), joinLast]
    show _ = Option.map _ (if q % 16 = 0 then _ else _)
    split <;> rfl
  | [p, q, r] =>
    show _ = ((some (symbol r)).filter fun b => (value? b).any (· % 4 ≠ 0)).map _
    rw [filter_symbol (hvalues r (by simp)), joinLast]
    show _ = Option.map _ (if r % 4 = 0 then _ else _)
    split <;> rfl
  | [p, q, r, s] =>
    show _ = ((some (symbol s)).filter fun b => (value? b).any (· % spareValues 4 ≠ 0)).map _
    rw [filter_symbol (hvalues s (by simp)), if_pos (show s % spareValues 4 = 0 from Nat.mod_one s)]
    rfl
  | _ :: _ :: _ :: _ :: _ :: _ =>
    simp only [List.length_cons] at hlen
    omega

theorem error?_decodeLast (hlen : group.length ≤ 4) (offset : Nat) :
    Except.error? (decodeLast offset group) = defectFrom? offset group := by
  have hle := foreignAt_le group
  have hsymbols := error?_lastSymbols offset 0 group
  rw [Nat.zero_add] at hsymbols
  cases h : lastSymbols offset 0 group with
  | error e =>
    have hlast : Except.error? (decodeLast offset group) = some e := by
      rw [decodeLast, h]
      rfl
    rw [h] at hsymbols
    split at hsymbols
    · rename_i hbad
      obtain ⟨b, hb, -⟩ := Option.map_eq_some_iff.1 hsymbols.symm
      have hlt := (List.getElem?_eq_some_iff.1 hb).1
      have hmod : foreignAt group % 4 = foreignAt group := Nat.mod_eq_of_lt (by omega)
      rw [hlast, defectFrom?, hmod, if_pos ⟨hlt, hbad.imp_right .inl⟩]
      exact hsymbols
    · cases hsymbols
  | ok values =>
    obtain ⟨hcount, hprefix⟩ := foreignAt_of_lastSymbols h
    have hlast : Except.error? (decodeLast offset group) = Except.error? (joinLast offset values) := by
      rw [decodeLast, h]
      rfl
    have hplaced : ¬ (foreignAt group < group.length ∧ (foreignAt group % 4 < 2 ∨
        (∃ b ∈ group.drop (foreignAt group), b ≠ pad) ∨
          4 - foreignAt group % 4 < group.length - foreignAt group)) := by
      rintro ⟨hlt, hbad⟩
      have hmod : foreignAt group % 4 = foreignAt group := Nat.mod_eq_of_lt (by omega)
      rw [hmod] at hbad
      have hshort : ¬ 4 - foreignAt group < group.length - foreignAt group := by omega
      rw [h, if_pos (by simpa only [hshort, or_false] using hbad), List.getElem?_eq_getElem hlt]
        at hsymbols
      cases hsymbols
    have hread : (values.map symbol)[values.length - 1]? = group[values.length - 1]? := by
      obtain ⟨more, rfl⟩ := hprefix
      cases values with
      | nil =>
        -- without symbols there is nothing at all, since padding needs two of them
        cases more with
        | nil => rfl
        | cons b rest =>
          rw [hcount] at hplaced
          exact absurd ⟨Nat.succ_pos _, .inl (by decide)⟩ hplaced
      | cons n ns => rw [List.getElem?_append_left (by simp)]
    rw [hlast, error?_joinLast (lastSymbols_eq_ok_iff.1 h).1 (by omega), defectFrom?, if_neg hplaced,
      hcount, hread]
    by_cases hone : values.length = 1
    · rw [if_pos hone, if_pos (by omega), hone]
    · rw [if_neg hone, if_neg (by omega)]

/-! ### All groups -/

theorem error?_decodeGroups (offset : Nat) (bytes : List UInt8) :
    Except.error? (decodeGroups offset bytes) = defectFrom? offset bytes := by
  induction offset, bytes using decodeGroups.induct with
  | case1 offset a b c d e rest ih =>
    show _ = defectFrom? offset ([a, b, c, d] ++ e :: rest)
    have hquad := error?_decodeQuad a b c d offset
    have hle := foreignAt_le [a, b, c, d]
    by_cases hlt : foreignAt [a, b, c, d] < 4
    · rw [defectFrom?_of_lt hlt rfl (by simp), ← hquad, decodeGroups]
      cases hdecoded : decodeQuad a b c d offset with
      | error e => rfl
      | ok bytes =>
        rw [hdecoded, List.getElem?_eq_getElem hlt] at hquad
        cases hquad
    · have hfour : foreignAt [a, b, c, d] = 4 := Nat.le_antisymm hle (Nat.not_lt.1 hlt)
      rw [defectFrom?_of_symbols hfour rfl (by simp), ← ih, decodeGroups]
      rw [hfour] at hquad
      cases hdecoded : decodeQuad a b c d offset with
      | error e =>
        rw [hdecoded] at hquad
        cases hquad
      | ok bytes => cases decodeGroups (offset + 4) (e :: rest) <;> rfl
  | case2 offset group hshort =>
    rw [decodeGroups, error?_decodeLast (length_le_four hshort)]
    exact hshort

theorem error?_checkLoneByte (bytes : List UInt8) :
    Except.error? (checkLoneByte bytes) =
      if bytes.length % 4 = 1 ∧ ∃ b ∈ bytes.getLast?, b ≠ pad ∧ value? b = none then
        bytes.getLast?.map (.symbol · (bytes.length - 1))
      else none := by
  rw [checkLoneByte]
  by_cases hone : bytes.length % 4 = 1
  · rw [if_pos hone]
    cases bytes.getLast? with
    | none => rw [if_neg (by simp)]; rfl
    | some b =>
      by_cases hb : b = pad
      · rw [if_neg (by simp [hb])]
        simp only [if_pos hb]
        rfl
      · simp only [if_neg hb, valueAt]
        cases hvalue : value? b with
        | none => rw [if_pos ⟨hone, b, rfl, hb, hvalue⟩]; rfl
        | some n => rw [if_neg (by simp [hvalue])]; rfl
  · rw [if_neg hone, if_neg fun h => hone h.1]
    rfl

theorem error?_decodeBytes (bytes : List UInt8) :
    Except.error? (decodeBytes bytes) = firstDefect? bytes := by
  have hlone := error?_checkLoneByte bytes
  rw [firstDefect?, ← error?_decodeGroups, decodeBytes]
  by_cases hforeign : bytes.length % 4 = 1 ∧ ∃ b ∈ bytes.getLast?, b ≠ pad ∧ value? b = none
  · rw [if_pos hforeign] at hlone ⊢
    obtain ⟨-, b, hb, -⟩ := hforeign
    rw [Option.mem_def.1 hb] at hlone ⊢
    cases h : checkLoneByte bytes with
    | ok u =>
      rw [h] at hlone
      cases hlone
    | error e =>
      rw [h] at hlone
      exact hlone
  · rw [if_neg hforeign] at hlone ⊢
    cases h : checkLoneByte bytes with
    | ok u => rfl
    | error e =>
      rw [h] at hlone
      cases hlone

/-! ### What is reported is there -/

theorem foundIn_of_firstDefect? (h : firstDefect? bytes = some d) : d.FoundIn bytes := by
  rw [firstDefect?] at h
  split at h
  · obtain ⟨b, hb, rfl⟩ := Option.map_eq_some_iff.1 h
    rw [List.getLast?_eq_getElem?] at hb
    exact hb
  · rw [defectFrom?] at h
    split at h
    · obtain ⟨b, hb, rfl⟩ := Option.map_eq_some_iff.1 h
      rw [Nat.zero_add]
      exact hb
    · rename_i hplaced
      split at h
      · rename_i hone
        obtain rfl := Option.some.inj h
        rw [Nat.zero_add]
        -- a foreign byte behind one symbol of a group would be misplaced
        have hend : ¬ foreignAt bytes < bytes.length := fun hlt => hplaced ⟨hlt, .inl (by omega)⟩
        exact Nat.le_antisymm (foreignAt_le bytes) (Nat.not_lt.1 hend)
      · obtain ⟨b, hb, rfl⟩ := Option.map_eq_some_iff.1 h
        rw [Nat.zero_add]
        exact (Option.filter_eq_some_iff.1 hb).1

/-- What is reported of bytes that are not base64 is what one scan finds, and it is there. A save to a
directory fails with it, and writes nothing. -/
theorem reported_defect_is_first_found (bytes : List UInt8) :
    (∀ d, decodeBytes bytes = .error d ↔ firstDefect? bytes = some d) ∧
    ((∃ decoded, decodeBytes bytes = .ok decoded) ↔ firstDefect? bytes = none) ∧
    (∀ d, decodeBytes bytes = .error d → d.FoundIn bytes) ∧
    ∀ (dir : Path) (download : Download) (s : Session.State) (d : Defect),
      utf8 download.payload = bytes →
      (Session.saveToDirectory dir download s =
        ⟨.error (.undecodable download.filename d), [], s⟩ ↔ firstDefect? bytes = some d) := by
  have hfirst := error?_decodeBytes bytes
  refine ⟨fun d => ?_, ?_, fun d hd => ?_, fun dir download s d hbytes => ?_⟩
  · rw [← hfirst, Except.error?_eq_some_iff]
  · rw [← hfirst, Except.error?_eq_none_iff]
  · refine foundIn_of_firstDefect? ?_
    rw [← hfirst, hd]
    rfl
  · have hdecode : decode download.payload = decodeBytes bytes := by rw [decode, hbytes]
    rw [← hfirst, ← hdecode, Except.error?_eq_some_iff]
    constructor
    · intro hsave
      cases hdecoded : decode download.payload with
      | ok decoded =>
        rw [Session.saveToDirectory_of_bytes hdecoded] at hsave
        split at hsave <;> cases hsave
      | error e =>
        rw [Session.saveToDirectory_of_undecodable hdecoded] at hsave
        cases hsave
        rfl
    · exact Session.saveToDirectory_of_undecodable

/-- A foreign byte is left alone at the end, and another stands in front; `=` begins in one group and
goes on in the next. -/
theorem defects_of_two_faults :
    decode "?AAA!" = .error (.symbol 33 4) ∧ (Defect.symbol 33 4).FoundIn (utf8 "?AAA!") ∧
      Session.saveToDirectory .home ⟨"AAA==", "image/png", "out0.png"⟩ {} =
        ⟨.error (.undecodable "out0.png" (.symbol 61 3)), [], {}⟩ := by
  obtain ⟨hlone, -, hfound, -⟩ := reported_defect_is_first_found (utf8 "?AAA!")
  obtain ⟨-, -, -, hsave⟩ := reported_defect_is_first_found (utf8 "AAA==")
  have hdecode := (hlone (.symbol 33 4)).2 (by decide)
  exact ⟨hdecode, hfound _ hdecode, (hsave _ _ _ _ rfl).2 (by decide)⟩

end SaveAs.Base64
