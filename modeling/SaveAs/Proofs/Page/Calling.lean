import SaveAs.Page.Masking
import SaveAs.Proofs.Page.Sound

/-!
# Calls of the download function

A call ends with the failure of the first stage that fails, or returns. The handle is consumed first, and
once; where that fails, or where no text comes of it, nothing else happens to the page.
-/

namespace SaveAs.Page

/-- What a handle refers to, or undefined. -/
def State.held (s : State) (handle : Value) : Value :=
  (s.handles.get? (s.heap.literal handle).key).getD .undefined

/-- The page without a handle. -/
def State.consumed (s : State) (handle : Value) : State :=
  { s with handles := s.handles.erase (s.heap.literal handle).key }

/-- What is logged of a call before anything else happens. -/
def State.requested (s : State) : List Event :=
  (log (.checkpoint .requested) s).events

variable {s : State} {handle : Value} {f : Failure}

/-! ### Resolving -/

theorem offered_of_false {α : Type} {offers : State → Bool} {e : Failure} (y : Act α)
    (h : offers s = false) :
    (do
      if !(← .read offers) then .fail e
      y : Act α) s = ⟨.error e, [], s⟩ := by
  rw [Action.bind_of_ok (Action.read_apply _ s), h]
  rfl

theorem offered_of_true {α : Type} {offers : State → Bool} {e : Failure} (y : Act α)
    (h : offers s = true) :
    (do
      if !(← .read offers) then .fail e
      y : Act α) s = y s := by
  rw [Action.bind_of_ok (Action.read_apply _ s), h]
  rfl

theorem consumeHandle_of_some {held : Value} (h : Stage.consume.failure? s.settings held = some f) :
    consumeHandle handle s = ⟨.error f, [], s⟩ := by
  cases hoffers : s.settings.consumesHandles with
  | false =>
    simp only [Stage.failure?, hoffers] at h
    cases h
    exact offered_of_false _ hoffers
  | true =>
    simp only [Stage.failure?, hoffers, if_true] at h
    obtain ⟨thrown, hfault, rfl⟩ := Option.map_eq_some_iff.1 h
    exact (offered_of_true _ hoffers).trans (attempt_of_some _ _ hfault)

theorem consumeHandle_of_none {held : Value} (h : Stage.consume.failure? s.settings held = none) :
    consumeHandle handle s =
      ⟨.ok (s.held handle), [.consume (s.heap.literal handle)], s.consumed handle⟩ := by
  cases hoffers : s.settings.consumesHandles with
  | false => simp [Stage.failure?, hoffers] at h
  | true =>
    simp only [Stage.failure?, hoffers, if_true, Option.map_eq_none_iff] at h
    exact (offered_of_true _ hoffers).trans (attempt_of_none _ _ h)

/-- What resolving a handle gives, once it is consumed. -/
theorem resolve_of_none (h : Stage.consume.failure? s.settings (s.held handle) = none) :
    resolve handle s =
      ⟨match s.held handle with
        | .string payload => .ok payload
        | _ => .error .payloadNotText,
        [.consume (s.heap.literal handle)], s.consumed handle⟩ := by
  rw [resolve, Action.bind_of_ok (consumeHandle_of_none h)]
  cases s.held handle <;> rfl

/-! ### Delivering -/

/-- How a call goes, by the first stage that fails: the handle is not consumed, or no text comes of it, or
the text is saved. -/
inductive Called (s : State) (handle : Value) :
    Option (Stage × Failure) → Outcome Failure Event State Unit → Prop
  | unconsumed {f : Failure} : Called s handle (some (.consume, f)) ⟨.error f, s.requested, s⟩
  | untold : Called s handle (some (.text, .payloadNotText))
      ⟨.error .payloadNotText, s.requested ++ [.consume (s.heap.literal handle)], s.consumed handle⟩
  | saved {g : Generator} {saved : Outcome Failure Event State Unit} {later : List Event}
      (hsaved : Saves { s.consumed handle with ambient := g } (s.held handle) Stage.saving saved)
      (hlater : ∀ e ∈ later, ∀ v, e ≠ .consume v) :
      Called s handle (firstFailure? s.settings (s.held handle) Stage.saving)
        ⟨saved.result, s.requested ++ .consume (s.heap.literal handle) :: later, saved.world⟩

theorem Event.OfSave.ne_consume {d : Download} {e : Event} (h : e.OfSave d) : ∀ v, e ≠ .consume v := by
  rintro v rfl
  cases h

theorem log_not_consume (c : Checkpoint) (w : State) :
    ∀ e ∈ (log (.checkpoint c) w).events, ∀ v, e ≠ .consume v :=
  log_emits (p := fun e => ∀ v, e ≠ .consume v) (fun _ h => by cases h) w

theorem closing_not_consume {name : String} {saved : Outcome Failure Event State Unit} :
    ∀ e ∈ Delivery.closing (fun c w => (log (.checkpoint c) w).events) name saved,
      ∀ v, e ≠ .consume v := by
  rw [Delivery.closing]
  split
  · exact log_not_consume _ _
  · exact fun e he => by cases he

theorem called_deliver (h : s.Bounded) (handle : Value) (o : Options) :
    Called s handle (firstFailure? s.settings (s.held handle) Stage.all)
      (deliver (resolve handle) o s) := by
  have hlog (c : Checkpoint) (w : State) :
      log (.checkpoint c) w = ⟨.ok (), (log (.checkpoint c) w).events, w⟩ := rfl
  have hname (w : State) : drawName o w =
    ⟨.ok (o.fileName w.ambient).1, [], { w with ambient := (o.fileName w.ambient).2 }⟩ := rfl
  rw [deliver, Stage.all]
  cases hconsume : Stage.consume.failure? s.settings (s.held handle) with
  | some f =>
    have hresolve : resolve handle s = ⟨.error f, [], s⟩ :=
      Action.bind_of_error (consumeHandle_of_some hconsume) _
    rw [firstFailure?_of_some hconsume, Delivery.run_of_unresolved hlog hresolve, List.append_nil]
    exact .unconsumed
  | none =>
    have hresolve := resolve_of_none hconsume
    rw [firstFailure?_of_none hconsume]
    cases hheld : s.held handle with
    | string payload =>
      have hsaved := saves_save (s := { s.consumed handle with
        ambient := (o.fileName (s.consumed handle).ambient).2 }) h (s.held handle)
        ⟨payload, o.mimeType, (o.fileName (s.consumed handle).ambient).1⟩
      rw [hheld] at hresolve
      rw [firstFailure?_of_none rfl, Delivery.run_of_resolved hlog hname hresolve rfl,
        List.singleton_append, ← hheld]
      refine .saved hsaved fun e he => ?_
      obtain he | he := List.mem_append.1 he
      · exact log_not_consume _ _ e he
      obtain he | he := List.mem_append.1 he
      · exact (save_emits_ofSave _ _ e he).ne_consume
      · exact closing_not_consume e he
    | _ =>
      rw [hheld] at hresolve
      rw [firstFailure?_of_some rfl, Delivery.run_of_unresolved hlog hresolve]
      exact .untold

/-! ### What a call leaves -/

/-- The elements of the body after a call, of which some stage is the first to fail. The new anchor stays if
it is there, and is not removed. -/
def State.childrenAfter (s : State) : Option (Stage × Failure) → List Nat
  | some (.remove, _) =>
    if s.settings.onClick = .detach then s.children else s.children ++ [s.elements + 1]
  | _ => s.children

theorem Leaves.children {first : Option (Stage × Failure)} {w : State} (h : s.Bounded)
    (hleaves : Leaves s first w) : w.children = s.childrenAfter first := by
  cases first with
  | none => obtain rfl | rfl := hleaves <;> rfl
  | some failing =>
    obtain ⟨x, f⟩ := failing
    cases x with
    | remove =>
      obtain rfl : w = s.clicked := hleaves
      rw [State.childrenAfter, clicked_eq]
      cases s.settings.onClick with
      | detach => exact h.erase_append
      | _ => rfl
    | _ => obtain rfl | rfl := hleaves <;> rfl

theorem Leaves.handles {first : Option (Stage × Failure)} {w : State} (hleaves : Leaves s first w) :
    w.handles = s.handles := by
  obtain rfl | rfl | rfl := hleaves.cases
  · rfl
  · rfl
  · rw [clicked_eq]
    cases s.settings.onClick <;> rfl

/-- What a call has done to its handle, by the first stage that fails: nothing, or it has consumed it, once
and before all else. Where no text comes of it, that is all. -/
def Consumes (s : State) (handle : Value) (first : Option (Stage × Failure)) (events : List Event)
    (w : State) : Prop :=
  match first with
  | some (.consume, _) => events = s.requested ∧ w = s
  | some (.text, _) => events = s.requested ++ [.consume (s.heap.literal handle)] ∧ w = s.consumed handle
  | _ => w.handles = (s.consumed handle).handles ∧
      ∃ later, events = s.requested ++ .consume (s.heap.literal handle) :: later ∧
        ∀ e ∈ later, ∀ v, e ≠ .consume v

namespace Called

variable {first : Option (Stage × Failure)} {out : Outcome Failure Event State Unit}

theorem result (h : Called s handle first out) : out.result = endOf first := by
  cases h with
  | unconsumed => rfl
  | untold => rfl
  | saved hsaved hlater => exact hsaved.result

theorem children (hbounded : s.Bounded) (h : Called s handle first out) :
    out.world.children = s.childrenAfter first := by
  cases h with
  | unconsumed => rfl
  | untold => rfl
  | @saved g _ _ hsaved hlater =>
    exact hsaved.leaves.children (s := { s.consumed handle with ambient := g }) hbounded

theorem consumes (h : Called s handle first out) : Consumes s handle first out.events out.world := by
  cases h with
  | unconsumed => exact ⟨rfl, rfl⟩
  | untold => exact ⟨rfl, rfl⟩
  | @saved g saved later hsaved hlater =>
    have hsaves : Consumes s handle none (s.requested ++ .consume (s.heap.literal handle) :: later)
        saved.world := ⟨hsaved.leaves.handles, later, rfl, hlater⟩
    cases hfirst : firstFailure? s.settings (s.held handle) Stage.saving with
    | none => exact hsaves
    | some failing =>
      obtain ⟨x, f⟩ := failing
      obtain ⟨hmem, -⟩ := failure?_of_firstFailure? hfirst
      -- the two stages in front of a save are none of its own
      cases x with
      | consume => simp [Stage.saving] at hmem
      | text => simp [Stage.saving] at hmem
      | _ => exact hsaves

end Called

/-! ### What is thrown -/

variable {settings : Settings} {held : Value}

theorem Stage.eq_of_consume (h : Stage.consume.failure? settings held = some f) :
    ∃ thrown, f = .handleNotConsumed thrown := by
  simp only [Stage.failure?] at h
  split at h
  · obtain ⟨thrown, -, rfl⟩ := Option.map_eq_some_iff.1 h
    exact ⟨thrown, rfl⟩
  · exact ⟨_, (Option.some.inj h).symm⟩

theorem Stage.eq_of_text (h : Stage.text.failure? settings held = some f) : f = .payloadNotText := by
  simp only [Stage.failure?] at h
  split at h
  · cases h
  · exact (Option.some.inj h).symm

theorem Stage.ne_exception {x : Stage} (h : x.failure? settings held = some f) (v : Literal) :
    f ≠ .exception v := by
  rintro rfl
  cases x with
  | consume =>
    obtain ⟨thrown, hf⟩ := Stage.eq_of_consume h
    cases hf
  | text => cases Stage.eq_of_text h
  | _ => grind [Stage.failure?, Option.map_eq_some_iff]

theorem Failure.thrown_eq (h : ∀ v, f ≠ .exception v) : f.thrown = .exception "Error" f.message := by
  cases f with
  | exception v => exact absurd rfl (h v)
  | _ => rfl

/-- A call of the download function throws what the first stage that fails has for it, and returns if none
does. It consumes the handle first and only then, and leaves the body as it was, but for a new anchor whose
removal failed. -/
theorem call_ends_at_first_failure {start : State} (hstart : start.Bounded) (steps : List Step)
    {name function : String} {o : Options} (argument : Literal) :
    let s := (run start steps).2
    let placed : State := { s with heap := (s.heap.place argument).2 }
    let handle := (s.heap.place argument).1
    let first := firstFailure? s.settings (placed.held handle) Stage.all
    let reply := (step s (.call name function argument)).1
    let after := (step s (.call name function argument)).2
    s.importedFunction? name function = some (.deliver o) →
    reply.result = .returned ((endOf first).map fun _ => .undefined) ∧
    (∀ x f, first = some (x, f) → f.thrown = .exception "Error" f.message ∧
      (x = .consume → ∃ v : Literal, f.message = "Failed to consume js object: " ++ v.describe) ∧
      (x = .text → f.message = "Payload is not a string")) ∧
    Consumes placed handle first reply.events after ∧
    after.children = s.childrenAfter first := by
  intro s placed handle first reply after himported
  have hbounded : placed.Bounded := run_bounded steps hstart
  have hcalled := called_deliver hbounded handle o
  have hstep := step_call_of_deliver argument himported
  have hreply : reply.result = .returned ((deliver (resolve handle) o placed).result.map fun _ => .undefined) ∧
      reply.events = (deliver (resolve handle) o placed).events :=
    ⟨congrArg (fun r => r.1.result) hstep, congrArg (fun r => r.1.events) hstep⟩
  have hafter : after = (deliver (resolve handle) o placed).world := congrArg Prod.snd hstep
  refine ⟨?_, fun x f hfirst => ?_, ?_, ?_⟩
  · rw [hreply.1, hcalled.result]
  · obtain ⟨-, hfailure⟩ := failure?_of_firstFailure? hfirst
    refine ⟨Failure.thrown_eq (Stage.ne_exception hfailure), ?_, ?_⟩
    · rintro rfl
      obtain ⟨thrown, rfl⟩ := Stage.eq_of_consume hfailure
      exact ⟨thrown, rfl⟩
    · rintro rfl
      rw [Stage.eq_of_text hfailure]
      rfl
  · rw [hreply.2, hafter]
    exact hcalled.consumes
  · rw [hafter, hcalled.children hbounded]
    rfl

/-- A call whose anchor cannot be removed throws that, and leaves the anchor in the body. -/
theorem anchor_stays_in_body :
    let page : State :=
      { settings := { faults := .ofList [("removeChild", .string "busy")] }
        heap := ⟨[{ kind := .plain, properties := .ofList [("env", .object 1)] },
          { kind := .plain, properties := .ofList [(importName, .object 2)] },
          { kind := .function (.deliver {}) }]⟩
        handles := .ofList [("picture", .string "AAAA")]
        imports := .ofList [("imports", .object 0)] }
    let called := step page (.call "imports" importName (.string "picture"))
    page.Bounded ∧ page.importedFunction? "imports" importName = some (.deliver {}) ∧
      called.1.result = .returned (.error (.anchorNotRemoved (.string "busy"))) ∧
      called.2.handles.get? "picture" = none ∧ called.2.children = [1] := by
  intro page called
  have hbounded : page.Bounded := fun _ hid => by cases hid
  have himported : page.importedFunction? "imports" importName = some (.deliver {}) := rfl
  obtain ⟨hresult, -, ⟨hhandles, -⟩, hchildren⟩ :=
    call_ends_at_first_failure hbounded [] (.string "picture") himported
  have hgone : (page.handles.erase "picture").get? "picture" = none := rfl
  exact ⟨hbounded, himported, hresult, (congrArg (·.get? "picture") hhandles).trans hgone, hchildren⟩

end SaveAs.Page
