import SaveAs.Proofs.Base64.Groups

/-!
# Base64: what the lenient decoder accepts

A text is accepted exactly when it consists of the symbols of some bytes, followed by none to all of
the `=` that would fill their last group, and then it decodes to those bytes. The first part does this
for lists of ASCII bytes by recursion over the groups; the second carries it to texts, of which a
character that is not ASCII has no byte of the alphabet.
-/

namespace SaveAs.Base64

theorem unpadded_append_three (x y z : UInt8) (bytes : List UInt8) :
    unpadded (x :: y :: z :: bytes) = unpadded [x, y, z] ++ unpadded bytes := by
  simp only [unpadded, List.cons_append, List.nil_append]

theorem padding_add_three (n : Nat) : padding (n + 3) = padding n := by
  simp only [padding]
  omega

theorem length_unpadded (bytes : List UInt8) :
    (unpadded bytes).length + padding bytes.length = 4 * ((bytes.length + 2) / 3) := by
  rw [unpadded_eq_map, List.length_map, length_sextets]

theorem exists_three_of_length {bytes : List UInt8} (h : 3 ≤ bytes.length) :
    ∃ x y z later, bytes = x :: y :: z :: later := by
  rcases bytes with _ | ⟨x, _ | ⟨y, _ | ⟨z, later⟩⟩⟩
  · cases h
  · simp at h
  · simp at h
  · exact ⟨x, y, z, later, rfl⟩

/-- The groups of some bytes, with none to all of the padding of the last one. -/
theorem decodeGroups_eq_ok_iff {offset : Nat} {group bytes : List UInt8} :
    decodeGroups offset group = .ok bytes ↔
      ∃ k ≤ padding bytes.length, group = unpadded bytes ++ List.replicate k pad := by
  induction offset, group using decodeGroups.induct generalizing bytes with
  | case1 offset a b c d e rest ih =>
    simp only [decodeGroups, Except.bind_eq_ok_iff, Except.pure_eq_ok_iff, decodeQuad_eq_ok_iff, ih]
    constructor
    · rintro ⟨_, ⟨x, y, z, rfl, hquad⟩, later, ⟨k, hk, hrest⟩, rfl⟩
      refine ⟨k, ?_, ?_⟩
      · exact (padding_add_three later.length).symm ▸ hk
      · show [a, b, c, d] ++ e :: rest = unpadded (x :: y :: z :: later) ++ _
        rw [hquad, hrest, unpadded_append_three x y z later, List.append_assoc]
    · rintro ⟨k, hk, h⟩
      -- more than four symbols are those of more than three bytes
      have hsize := length_unpadded bytes
      have hlength := congrArg List.length h
      simp only [List.length_cons, List.length_append, List.length_replicate, padding] at hlength hsize hk
      obtain ⟨x, y, z, later, rfl⟩ := exists_three_of_length (by omega : 3 ≤ bytes.length)
      have hfour : ([a, b, c, d] ++ e :: rest) =
          unpadded [x, y, z] ++ (unpadded later ++ List.replicate k pad) := by
        rw [← List.append_assoc, ← unpadded_append_three x y z later]
        exact h
      obtain ⟨hquad, hrest⟩ := List.append_inj hfour rfl
      exact ⟨[x, y, z], ⟨x, y, z, rfl, hquad⟩, later,
        ⟨k, (padding_add_three later.length) ▸ hk, hrest⟩, rfl⟩
  | case2 offset group hshort =>
    rw [← decodeLast_eq_ok_iff (length_le_four hshort), decodeGroups]
    exact hshort

/-- The symbols of some bytes never leave a single one over, whatever their padding. -/
theorem checkLoneByte_unpadded {bytes : List UInt8} {k : Nat} (hk : k ≤ padding bytes.length) :
    checkLoneByte (unpadded bytes ++ List.replicate k pad) = .ok () := by
  have hsize := length_unpadded bytes
  rw [padding] at hk hsize
  rw [checkLoneByte, if_neg]
  rw [List.length_append, List.length_replicate]
  omega

theorem decodeBytes_eq_ok_iff {symbols bytes : List UInt8} :
    decodeBytes symbols = .ok bytes ↔
      ∃ k ≤ padding bytes.length, symbols = unpadded bytes ++ List.replicate k pad := by
  simp only [decodeBytes, Except.bind_eq_ok_iff, decodeGroups_eq_ok_iff]
  constructor
  · rintro ⟨_, _, h⟩
    exact h
  · rintro ⟨k, hk, rfl⟩
    exact ⟨(), checkLoneByte_unpadded hk, k, hk, rfl⟩

/-! ### Texts -/

theorem symbol_lt {n : Nat} (h : n < 64) : (symbol n).toNat < 128 := by
  have h' : ∀ n : Fin 64, (symbol n).toNat < 128 := by decide
  exact h' ⟨n, h⟩

theorem unpadded_lt (bytes : List UInt8) : ∀ b ∈ unpadded bytes, b.toNat < 128 := by
  intro b hb
  rw [unpadded_eq_map] at hb
  obtain ⟨n, hn, rfl⟩ := List.mem_map.1 hb
  exact symbol_lt (sextets_lt bytes n hn)

/-- An ASCII character is one byte, and any other starts with a byte above them. -/
theorem utf8EncodeChar_cases (c : Char) :
    (c.toNat < 128 ∧ String.utf8EncodeChar c = [UInt8.ofNat c.toNat]) ∨
      (128 ≤ c.toNat ∧ ∃ b rest, 128 ≤ b.toNat ∧ String.utf8EncodeChar c = b :: rest) := by
  have hc : c.val.toNat = c.toNat := rfl
  simp only [String.utf8EncodeChar, hc]
  split
  · exact .inl ⟨by omega, rfl⟩
  · refine .inr ⟨by omega, ?_⟩
    split
    · exact ⟨_, _, by rw [UInt8.toNat_ofNat']; omega, rfl⟩
    · split
      · exact ⟨_, _, by rw [UInt8.toNat_ofNat']; omega, rfl⟩
      · exact ⟨_, _, by rw [UInt8.toNat_ofNat']; omega, rfl⟩

theorem toNat_ofNat_of_lt {n : Nat} (h : n < 128) : (Char.ofNat n).toNat = n := by
  rw [Char.ofNat, dif_pos (.inl (by omega))]
  rfl

theorem utf8_chars_eq_iff {chars : List Char} {bytes : List UInt8} (hbytes : ∀ b ∈ bytes, b.toNat < 128) :
    chars.flatMap String.utf8EncodeChar = bytes ↔ chars = bytes.map fun b => Char.ofNat b.toNat := by
  induction chars generalizing bytes with
  | nil =>
    constructor
    · rintro rfl
      rfl
    · intro h
      rw [List.map_eq_nil_iff.1 h.symm]
      rfl
  | cons c rest ih =>
    rw [List.flatMap_cons]
    obtain ⟨hc, henc⟩ | ⟨hc, b, more, hb, henc⟩ := utf8EncodeChar_cases c
    · rw [henc, List.singleton_append]
      cases bytes with
      | nil => simp
      | cons b bytes =>
        obtain ⟨hb, hrest⟩ := List.forall_mem_cons.1 hbytes
        rw [List.cons.injEq, List.map_cons, List.cons.injEq, ih hrest]
        refine and_congr_left fun _ => ?_
        constructor
        · rintro rfl
          rw [UInt8.toNat_ofNat', Nat.mod_eq_of_lt (by omega), Char.ofNat_toNat]
        · rintro rfl
          rw [toNat_ofNat_of_lt hb, UInt8.ofNat_toNat]
    · rw [henc]
      constructor
      · rintro rfl
        have := hbytes b (by simp)
        omega
      · intro h
        cases bytes with
        | nil => cases h
        | cons a bytes =>
          have ha := toNat_ofNat_of_lt (hbytes a (by simp))
          have hchar : c = Char.ofNat a.toNat := (List.cons.inj h).1
          rw [← hchar] at ha
          have := hbytes a (by simp)
          omega

theorem utf8_eq_iff {text : String} {bytes : List UInt8} (hbytes : ∀ b ∈ bytes, b.toNat < 128) :
    utf8 text = bytes ↔ text = asciiText bytes := by
  rw [utf8, utf8_chars_eq_iff hbytes, asciiText, ← String.toList_inj, String.toList_ofList]

theorem asciiText_append (front back : List UInt8) :
    asciiText (front ++ back) = asciiText front ++ asciiText back := by
  simp [asciiText]

theorem asciiText_replicate_pad (k : Nat) :
    asciiText (List.replicate k pad) = String.ofList (List.replicate k '=') := by
  rw [asciiText, List.map_replicate]
  rfl

theorem decode_eq_ok_iff {text : String} {bytes : List UInt8} :
    decode text = .ok bytes ↔ ∃ k ≤ padding bytes.length,
      text = asciiText (unpadded bytes) ++ String.ofList (List.replicate k '=') := by
  have hascii (k : Nat) : ∀ b ∈ unpadded bytes ++ List.replicate k pad, b.toNat < 128 := by
    intro b hb
    obtain hb | hb := List.mem_append.1 hb
    · exact unpadded_lt bytes b hb
    · rw [List.eq_of_mem_replicate hb]
      decide
  simp only [decode, decodeBytes_eq_ok_iff, utf8_eq_iff (hascii _), asciiText_append,
    asciiText_replicate_pad]

theorem encode_eq (bytes : List UInt8) :
    encode bytes =
      asciiText (unpadded bytes) ++ String.ofList (List.replicate (padding bytes.length) '=') := by
  rw [encode, asciiText_append, asciiText_replicate_pad]

theorem decode_encode (bytes : List UInt8) : decode (encode bytes) = .ok bytes :=
  decode_eq_ok_iff.2 ⟨_, Nat.le_refl _, encode_eq bytes⟩

/-- The decoder accepts what the encoder writes, with any part of its padding, and nothing else; and
encoding again what it accepts fills the padding up to a whole group. What the encoder writes are the
bits of the bytes, six to a symbol, with zeros at the end. -/
theorem decode_accepts_exactly_encodings (text : String) (bytes : List UInt8) :
    (decode text = .ok bytes ↔ ∃ k ≤ (3 - bytes.length % 3) % 3,
      text = asciiText (unpadded bytes) ++ String.ofList (List.replicate k '=')) ∧
    decode (encode bytes) = .ok bytes ∧
    decode (asciiText (unpadded bytes)) = .ok bytes ∧
    (decode text = .ok bytes → 4 ∣ (encode bytes).length ∧
      ∃ k ≤ 2, encode bytes = text ++ String.ofList (List.replicate k '=')) ∧
    (unpadded bytes = (sextets bytes).map symbol ∧ (∀ n ∈ sextets bytes, n < 64) ∧
      (sextets bytes).length = (8 * bytes.length + 5) / 6 ∧
      (sextets bytes).foldl (fun n d => 64 * n + d) 0 =
        bytes.foldl (fun n b => 256 * n + b.toNat) 0 <<< (2 * padding bytes.length)) := by
  refine ⟨decode_eq_ok_iff, decode_encode bytes, ?_, ?_, ?_⟩
  · exact decode_eq_ok_iff.2 ⟨0, Nat.zero_le _, by simp⟩
  · intro h
    obtain ⟨k, hk, rfl⟩ := decode_eq_ok_iff.1 h
    constructor
    · have hsize := length_unpadded bytes
      rw [encode, asciiText, String.length_ofList, List.length_map, List.length_append,
        List.length_replicate, hsize]
      exact ⟨_, rfl⟩
    · refine ⟨padding bytes.length - k, ?_, ?_⟩
      · rw [padding]
        omega
      · rw [encode_eq, String.append_assoc, ← String.ofList_append, List.replicate_append_replicate,
          Nat.add_sub_cancel' hk]
  · have hsize := length_sextets bytes
    rw [padding] at hsize
    exact ⟨unpadded_eq_map bytes, sextets_lt bytes, by omega, foldl_sextets bytes 0⟩

/-- Four bytes with one of their two `=`. -/
theorem decode_partly_padded :
    decode "iVBORw=" = .ok [0x89, 0x50, 0x4e, 0x47] ∧
      ∃ k ≤ 2, encode [0x89, 0x50, 0x4e, 0x47] = "iVBORw=" ++ String.ofList (List.replicate k '=') := by
  obtain ⟨hiff, -, -, hcanonical, -⟩ :=
    decode_accepts_exactly_encodings "iVBORw=" [0x89, 0x50, 0x4e, 0x47]
  have hdecode := hiff.2 ⟨1, by decide, by decide⟩
  exact ⟨hdecode, (hcanonical hdecode).2⟩

end SaveAs.Base64
