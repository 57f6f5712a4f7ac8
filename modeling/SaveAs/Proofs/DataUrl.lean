import SaveAs.Proofs.Session.ByteFidelity
import SaveAs.Proofs.Session.Checkpoints

/-!
# What a data URL keeps

A data URL is put together from a type and a payload without any escaping, and a type may hold whatever
separates the two. It can be taken apart all the same: no symbol of base64 is a comma, so the last comma
of the URL is the one in front of the payload. What a direct save hands on therefore says which bytes were
saved and as what.
-/

namespace SaveAs

/-! ### The last place of a pattern -/

/-- A text is split at the last place where a pattern stands in it. -/
structure SplitAtLast (pattern text front back : String) : Prop where
  parts : text = front ++ pattern ++ back
  last : ∀ front' back', text = front' ++ pattern ++ back' → front'.length ≤ front.length

variable {pattern text front front' back back' : String} {c : Char}

theorem SplitAtLast.unique (h : SplitAtLast pattern text front back)
    (h' : SplitAtLast pattern text front' back') : front = front' ∧ back = back' := by
  have hlength : front.toList.length = front'.toList.length := by
    rw [String.length_toList, String.length_toList]
    exact Nat.le_antisymm (h'.last front back h.parts) (h.last front' back' h'.parts)
  have hparts := congrArg String.toList (h.parts.symm.trans h'.parts)
  simp only [String.toList_append, List.append_assoc] at hparts
  obtain ⟨hfront, hrest⟩ := List.append_inj hparts hlength
  exact ⟨String.toList_inj.1 hfront, String.toList_inj.1 (List.append_cancel_left hrest)⟩

/-- Behind the last character of a pattern there is no other place of it, if that character does not come
again. -/
theorem splitAtLast_of_not_mem (hpattern : pattern.toList.getLast? = some c) (hback : c ∉ back.toList)
    (front : String) : SplitAtLast pattern (front ++ pattern ++ back) front back := by
  obtain ⟨start, hstart⟩ := List.getLast?_eq_some_iff.1 hpattern
  refine ⟨rfl, fun front' back' htext => ?_⟩
  have hlists : (front.toList ++ (start ++ [c])) ++ back.toList =
      (front'.toList ++ start) ++ c :: back'.toList := by
    simpa [hstart] using congrArg String.toList htext
  obtain ⟨between, -, hbehind⟩ | ⟨between, hinside, hrest⟩ := List.append_eq_append_iff.1 hlists
  · exact absurd (hbehind ▸ List.mem_append_right between List.mem_cons_self) hback
  · cases between with
    | nil => exact absurd ((List.nil_append _ ▸ hrest) ▸ List.mem_cons_self) hback
    | cons d between =>
      have hlength := congrArg List.length hinside
      simp only [List.length_append, List.length_cons, List.length_nil, String.length_toList] at hlength
      omega

/-! ### Payloads -/

theorem Base64.comma_not_mem_encode (bytes : List UInt8) : ',' ∉ (Base64.encode bytes).toList := by
  have hsymbol : ∀ n : Fin 64, Char.ofNat (symbol n).toNat ≠ ',' := by decide
  rw [encode, asciiText, String.toList_ofList, List.mem_map]
  rintro ⟨b, hb, hcomma⟩
  obtain hb | hb := List.mem_append.1 hb
  · rw [unpadded_eq_map] at hb
    obtain ⟨n, hn, rfl⟩ := List.mem_map.1 hb
    exact hsymbol ⟨n, sextets_lt bytes n hn⟩ hcomma
  · rw [List.eq_of_mem_replicate hb] at hcomma
    exact absurd hcomma (by decide)

theorem Base64.encode_injective : Function.Injective Base64.encode := by
  intro bytes bytes' h
  have hdecoded := decode_encode bytes
  rw [h, decode_encode] at hdecoded
  exact (Except.ok.inj hdecoded).symm

/-! ### URLs -/

namespace Download

variable {d d' : Download}

theorem splitAtLast_comma (h : ',' ∉ d.payload.toList) :
    SplitAtLast "," d.href ("data:" ++ d.mimeType ++ ";base64") d.payload := by
  have hseparator : ";base64," = ";base64" ++ "," := rfl
  rw [href, hseparator, ← String.append_assoc]
  exact splitAtLast_of_not_mem rfl h _

theorem splitAtLast_base64 (h : ',' ∉ d.payload.toList) :
    SplitAtLast ";base64," d.href ("data:" ++ d.mimeType) d.payload :=
  splitAtLast_of_not_mem rfl h _

theorem href_eq_iff (h : ',' ∉ d.payload.toList) (h' : ',' ∉ d'.payload.toList) :
    d.href = d'.href ↔ d.mimeType = d'.mimeType ∧ d.payload = d'.payload := by
  constructor
  · intro hhref
    have hsplit' := splitAtLast_base64 h'
    rw [← hhref] at hsplit'
    obtain ⟨htype, hpayload⟩ := (splitAtLast_base64 h).unique hsplit'
    exact ⟨(String.append_right_inj _).1 htype, hpayload⟩
  · rintro ⟨htype, hpayload⟩
    rw [href, href, htype, hpayload]

end Download

namespace Session

/-- A direct save is the run of a trigger that is built for it. -/
theorem saveBytes_eq_run (bytes : List UInt8) (saver : Saver) (o : Options) :
    saveBytes bytes saver o = Firing.run ⟨⟨.inline, saver, o⟩, Base64.encode bytes, .ambient⟩ :=
  rfl

/-- The saver of a direct save is handed one download, and does with it what it does by itself. The type
and the bytes can both be read from the data URL of that download, wherever commas or separators stand in
the type: the payload is behind the last comma and decodes to the bytes, and the type is in front of the
last separator. So two of these URLs are equal only for the same type and the same bytes. -/
theorem data_url_loses_nothing :
    (∀ (bytes : List UInt8) (saver : Saver) (o : Options) (s : State),
      let d := directDownload bytes o s
      let saved := saveWith saver d (Source.ambient.draw o s)
      let direct := saveBytes bytes saver o s
      (direct.result = saved.result ∧ direct.events.filter Event.ofSaver = saved.events ∧
        direct.world = saved.world) ∧
      SplitAtLast "," d.href ("data:" ++ o.mimeType ++ ";base64") d.payload ∧
      SplitAtLast ";base64," d.href ("data:" ++ o.mimeType) d.payload ∧
      Base64.decode d.payload = .ok bytes) ∧
    ∀ (bytes₁ bytes₂ : List UInt8) (o₁ o₂ : Options) (s₁ s₂ : State),
      (directDownload bytes₁ o₁ s₁).href = (directDownload bytes₂ o₂ s₂).href ↔
        o₁.mimeType = o₂.mimeType ∧ bytes₁ = bytes₂ := by
  have hcomma (bytes : List UInt8) (o : Options) (s : State) :
      ',' ∉ (directDownload bytes o s).payload.toList :=
    Base64.comma_not_mem_encode bytes
  refine ⟨fun bytes saver o s => ⟨?_, ?_, ?_, Base64.decode_encode bytes⟩,
    fun bytes₁ bytes₂ o₁ o₂ s₁ s₂ => ?_⟩
  · obtain ⟨hresult, hworld⟩ := saveBytes_eq_saved bytes saver o s
    refine ⟨hresult, ?_, hworld⟩
    rw [saveBytes_eq_run, Firing.filter_ofSaver rfl]
    rfl
  · exact Download.splitAtLast_comma (hcomma bytes o s)
  · exact Download.splitAtLast_base64 (hcomma bytes o s)
  · rw [Download.href_eq_iff (hcomma bytes₁ o₁ s₁) (hcomma bytes₂ o₂ s₂)]
    exact and_congr_right fun _ => Base64.encode_injective.eq_iff

end Session

end SaveAs
