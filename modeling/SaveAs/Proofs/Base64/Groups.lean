import SaveAs.Base64.Decoding
import SaveAs.Proofs.Except

/-!
# Base64: one group

What a group of four symbols and a last group decode to, each as an equivalence with the encoder: the
decoder accepts a group exactly when its symbols are `unpadded` of the bytes that it gives, followed, in
the last group only, by at most as many `=` as the padding has. Lists and texts of any length reach the
decoder only through these equivalences.
-/

namespace SaveAs.Base64

theorem value?_eq_some_iff {b : UInt8} {n : Nat} : value? b = some n ↔ n < 64 ∧ symbol n = b := by
  constructor
  · intro h
    have hb := b.toNat_lt
    simp only [value?] at h
    -- one case for each range of the alphabet, in the order of `symbol`
    split at h
    · cases h
      refine ⟨by omega, UInt8.toNat_inj.1 ?_⟩
      rw [symbol, if_pos (by omega), UInt8.toNat_ofNat']
      omega
    · split at h
      · cases h
        refine ⟨by omega, UInt8.toNat_inj.1 ?_⟩
        rw [symbol, if_neg (by omega), if_pos (by omega), UInt8.toNat_ofNat']
        omega
      · split at h
        · cases h
          refine ⟨by omega, UInt8.toNat_inj.1 ?_⟩
          rw [symbol, if_neg (by omega), if_neg (by omega), if_pos (by omega), UInt8.toNat_ofNat']
          omega
        · split at h
          · rename_i hplus
            cases h
            exact ⟨by decide, UInt8.toNat_inj.1 hplus.symm⟩
          · split at h
            · rename_i hslash
              cases h
              exact ⟨by decide, UInt8.toNat_inj.1 hslash.symm⟩
            · cases h
  · rintro ⟨hn, rfl⟩
    exact value?_symbol hn

theorem symbol_ne_pad {n : Nat} (h : n < 64) : symbol n ≠ pad := by
  intro he
  have hn := value?_symbol h
  rw [he, value?_pad] at hn
  cases hn

theorem valueAt_eq_ok_iff {b : UInt8} {offset n : Nat} :
    valueAt b offset = .ok n ↔ n < 64 ∧ symbol n = b := by
  rw [← value?_eq_some_iff, valueAt]
  cases value? b <;> simp

/-! ### The numbers behind the symbols -/

example : asciiText ((List.range 64).map symbol) =
    "ABCDEFGHIJKLMNOPQRSTUVWXYZabcdefghijklmnopqrstuvwxyz0123456789+/" := by decide

/-- The numbers of six bits that the bytes are cut into. -/
def sextets : List UInt8 → List Nat
  | [] => []
  | [x] => [x.toNat / 4, x.toNat % 4 * 16]
  | [x, y] => [x.toNat / 4, x.toNat % 4 * 16 + y.toNat / 16, y.toNat % 16 * 4]
  | x :: y :: z :: rest =>
    x.toNat / 4 :: (x.toNat % 4 * 16 + y.toNat / 16) :: (y.toNat % 16 * 4 + z.toNat / 64) ::
      z.toNat % 64 :: sextets rest

theorem unpadded_eq_map (bytes : List UInt8) : unpadded bytes = (sextets bytes).map symbol := by
  induction bytes using sextets.induct with
  | case1 | case2 | case3 => rfl
  | case4 x y z rest ih => simp only [unpadded, sextets, ih, List.map_cons]

theorem sextets_lt (bytes : List UInt8) : ∀ n ∈ sextets bytes, n < 64 := by
  induction bytes using sextets.induct with
  | case1 => simp [sextets]
  | case2 x =>
    have hx := x.toNat_lt
    simp only [sextets, List.forall_mem_cons]
    exact ⟨by omega, by omega, by simp⟩
  | case3 x y =>
    have hx := x.toNat_lt
    have hy := y.toNat_lt
    simp only [sextets, List.forall_mem_cons]
    exact ⟨by omega, by omega, by omega, by simp⟩
  | case4 x y z rest ih =>
    have hx := x.toNat_lt
    have hy := y.toNat_lt
    have hz := z.toNat_lt
    simp only [sextets, List.forall_mem_cons]
    exact ⟨by omega, by omega, by omega, by omega, ih⟩

theorem length_sextets (bytes : List UInt8) :
    (sextets bytes).length + padding bytes.length = 4 * ((bytes.length + 2) / 3) := by
  induction bytes using sextets.induct with
  | case1 => decide
  | case2 x => simp [sextets, padding]
  | case3 x y => simp [sextets, padding]
  | case4 x y z rest ih =>
    simp only [sextets, padding, List.length_cons] at ih ⊢
    omega

/-- The numbers hold the bits of the bytes: read as one number in base 64 they are the bytes in base
256, moved up by two bits for each `=` of the padding. -/
theorem foldl_sextets (bytes : List UInt8) (n : Nat) :
    (sextets bytes).foldl (fun n d => 64 * n + d) n =
      bytes.foldl (fun n b => 256 * n + b.toNat) n <<< (2 * padding bytes.length) := by
  induction bytes using sextets.induct generalizing n with
  | case1 => simp [sextets, padding]
  | case2 x =>
    simp only [sextets, padding, List.foldl_cons, List.foldl_nil, Nat.shiftLeft_eq]
    show _ = _ * 16
    omega
  | case3 x y =>
    simp only [sextets, padding, List.foldl_cons, List.foldl_nil, Nat.shiftLeft_eq]
    show _ = _ * 4
    omega
  | case4 x y z rest ih =>
    have hpadding : padding (rest.length + 1 + 1 + 1) = padding rest.length := by
      simp only [padding]
      omega
    simp only [sextets, List.foldl_cons, List.length_cons, hpadding, ih]
    congr 2
    omega

/-! ### A group in front of others -/

theorem joinQuad_eq_iff {p q r s : Nat} {x y z : UInt8} (hp : p < 64) (hq : q < 64) (hr : r < 64)
    (hs : s < 64) : joinQuad p q r s = [x, y, z] ↔ [p, q, r, s] = sextets [x, y, z] := by
  have hx := x.toNat_lt
  have hy := y.toNat_lt
  have hz := z.toNat_lt
  simp only [joinQuad, sextets, List.cons.injEq, and_true, ← UInt8.toNat_inj, UInt8.toNat_ofNat']
  omega

theorem decodeQuad_eq_ok_iff {a b c d : UInt8} {offset : Nat} {bytes : List UInt8} :
    decodeQuad a b c d offset = .ok bytes ↔
      ∃ x y z, bytes = [x, y, z] ∧ [a, b, c, d] = unpadded [x, y, z] := by
  simp only [decodeQuad, Except.bind_eq_ok_iff, Except.pure_eq_ok_iff, valueAt_eq_ok_iff]
  constructor
  · rintro ⟨p, ⟨hp, rfl⟩, q, ⟨hq, rfl⟩, r, ⟨hr, rfl⟩, s, ⟨hs, rfl⟩, rfl⟩
    refine ⟨_, _, _, rfl, ?_⟩
    rw [unpadded_eq_map, ← (joinQuad_eq_iff hp hq hr hs).1 rfl]
    rfl
  · rintro ⟨x, y, z, rfl, h⟩
    obtain ⟨hp, hq, hr, hs⟩ : _ ∧ _ ∧ _ ∧ _ := by
      simpa only [sextets, List.forall_mem_cons, List.not_mem_nil, false_implies, implies_true,
        and_true] using sextets_lt [x, y, z]
    simp only [unpadded, List.cons.injEq, and_true] at h
    obtain ⟨rfl, rfl, rfl, rfl⟩ := h
    exact ⟨_, ⟨hp, rfl⟩, _, ⟨hq, rfl⟩, _, ⟨hr, rfl⟩, _, ⟨hs, rfl⟩, (joinQuad_eq_iff hp hq hr hs).2 rfl⟩

/-! ### The last group -/

/-- A group that no other follows. -/
theorem length_le_four {group : List UInt8}
    (h : ∀ a b c d e rest, group = a :: b :: c :: d :: e :: rest → False) : group.length ≤ 4 := by
  rcases group with _ | ⟨a, _ | ⟨b, _ | ⟨c, _ | ⟨d, _ | ⟨e, rest⟩⟩⟩⟩⟩
  case cons.cons.cons.cons.cons => exact absurd rfl (h a b c d e rest)
  all_goals simp

theorem expectPadding_eq_ok_iff {offset : Nat} {bytes : List UInt8} :
    expectPadding offset bytes = .ok () ↔ bytes = List.replicate bytes.length pad := by
  rw [expectPadding, List.eq_replicate_iff]
  by_cases h : bytes.all (· == pad) = true
  · rw [if_pos h]
    simpa using h
  · rw [if_neg h]
    simpa using h

/-- The symbols of the last group end at its padding, which has two of them in front. -/
theorem lastSymbols_eq_ok_iff {offset position : Nat} {group : List UInt8} {values : List Nat} :
    lastSymbols offset position group = .ok values ↔
      (∀ n ∈ values, n < 64) ∧ ∃ k, (k = 0 ∨ 2 ≤ position + values.length) ∧
        group = values.map symbol ++ List.replicate k pad := by
  induction group generalizing position values with
  | nil =>
    constructor
    · rintro ⟨⟩
      exact ⟨by simp, 0, .inl rfl, rfl⟩
    · rintro ⟨_, k, _, h⟩
      have hnil := (List.append_eq_nil_iff.1 h.symm).1
      rw [List.map_eq_nil_iff.1 hnil]
      rfl
  | cons b rest ih =>
    by_cases hb : b = pad
    · subst hb
      rw [lastSymbols, if_pos rfl]
      constructor
      · intro h
        split at h
        · cases h
        · obtain ⟨_, hrest, hvalues⟩ := Except.bind_eq_ok_iff.1 h
          cases hvalues
          rw [expectPadding_eq_ok_iff] at hrest
          exact ⟨by simp, rest.length + 1, .inr (by omega), by rw [hrest]; simp [List.replicate_succ]⟩
      · rintro ⟨hvalues, k, hk, h⟩
        -- a symbol is not `=`, so there are no values and the padding is not empty
        cases values with
        | cons n ns => exact absurd (List.cons.inj h).1.symm (symbol_ne_pad (hvalues n (by simp)))
        | nil =>
          rw [List.map_nil, List.nil_append] at h
          have hlen := congrArg List.length h
          rw [List.length_cons, List.length_replicate] at hlen
          have hrest : rest = List.replicate rest.length pad := by
            rw [← hlen, List.replicate_succ] at h
            exact (List.cons.inj h).2
          rw [List.length_nil] at hk
          rw [if_neg (by omega), expectPadding_eq_ok_iff.2 hrest]
          rfl
    · rw [lastSymbols, if_neg hb]
      simp only [Except.bind_eq_ok_iff, Except.pure_eq_ok_iff, valueAt_eq_ok_iff, ih]
      constructor
      · rintro ⟨n, ⟨hn, rfl⟩, ns, ⟨hns, k, hk, rfl⟩, rfl⟩
        refine ⟨by simpa [hn] using hns, k, ?_, rfl⟩
        rw [List.length_cons]
        omega
      · rintro ⟨hvalues, k, hk, h⟩
        cases values with
        | nil => exact absurd (List.eq_of_mem_replicate (h ▸ List.mem_cons_self)) hb
        | cons n ns =>
          obtain ⟨hn, hns⟩ := List.forall_mem_cons.1 hvalues
          obtain ⟨rfl, rfl⟩ := List.cons.inj h
          rw [List.length_cons] at hk
          exact ⟨n, ⟨hn, rfl⟩, ns, ⟨hns, k, by omega, rfl⟩, rfl⟩

/-- The numbers of the last group are those of its bytes; the bits that no byte needs are zero. -/
theorem joinLast_eq_ok_iff {offset : Nat} {values : List Nat} {bytes : List UInt8}
    (hvalues : ∀ n ∈ values, n < 64) (hlen : values.length ≤ 4) :
    joinLast offset values = .ok bytes ↔ values = sextets bytes := by
  match values with
  | [] =>
    match bytes with
    | [] | [_] | [_, _] | _ :: _ :: _ :: _ => simp [joinLast, sextets]
  | [p] =>
    match bytes with
    | [] | [_] | [_, _] | _ :: _ :: _ :: _ => simp [joinLast, sextets]
  | [p, q] =>
    have hp := hvalues p (by simp)
    have hq := hvalues q (by simp)
    rw [joinLast]
    match bytes with
    | [x] =>
      have hx := x.toNat_lt
      split <;> simp [sextets, ← UInt8.toNat_inj] <;> omega
    | [] | [_, _] | _ :: _ :: _ :: _ => split <;> simp [sextets]
  | [p, q, r] =>
    have hp := hvalues p (by simp)
    have hq := hvalues q (by simp)
    have hr := hvalues r (by simp)
    rw [joinLast]
    match bytes with
    | [x, y] =>
      have hx := x.toNat_lt
      have hy := y.toNat_lt
      split <;> simp [sextets, ← UInt8.toNat_inj] <;> omega
    | [] | [_] | _ :: _ :: _ :: _ => split <;> simp [sextets]
  | [p, q, r, s] =>
    have hp := hvalues p (by simp)
    have hq := hvalues q (by simp)
    have hr := hvalues r (by simp)
    have hs := hvalues s (by simp)
    rw [joinLast]
    match bytes with
    | [x, y, z] => simpa using joinQuad_eq_iff hp hq hr hs
    | [] | [_] | [_, _] => simp [joinQuad, sextets]
    | x :: y :: z :: w :: rest =>
      have hsize := length_sextets (w :: rest)
      rw [padding, List.length_cons] at hsize
      constructor
      · intro h
        simp [joinQuad] at h
      · intro h
        have hlength := congrArg List.length h
        simp only [sextets, List.length_cons, List.length_nil] at hlength
        omega
  | _ :: _ :: _ :: _ :: _ :: _ =>
    simp only [List.length_cons] at hlen
    omega

theorem decodeLast_eq_ok_iff {offset : Nat} {group bytes : List UInt8} (hlen : group.length ≤ 4) :
    decodeLast offset group = .ok bytes ↔
      ∃ k ≤ padding bytes.length, group = unpadded bytes ++ List.replicate k pad := by
  have hsize := length_sextets bytes
  rw [padding] at hsize
  simp only [decodeLast, Except.bind_eq_ok_iff, lastSymbols_eq_ok_iff, unpadded_eq_map, padding]
  constructor
  · rintro ⟨values, ⟨hvalues, k, hk, rfl⟩, hjoin⟩
    rw [List.length_append, List.length_map, List.length_replicate] at hlen
    rw [joinLast_eq_ok_iff hvalues (by omega)] at hjoin
    subst hjoin
    exact ⟨k, by omega, rfl⟩
  · rintro ⟨k, hk, rfl⟩
    rw [List.length_append, List.length_map, List.length_replicate] at hlen
    refine ⟨sextets bytes, ⟨sextets_lt bytes, k, by omega, rfl⟩, ?_⟩
    rw [joinLast_eq_ok_iff (sextets_lt bytes) (by omega)]

end SaveAs.Base64
