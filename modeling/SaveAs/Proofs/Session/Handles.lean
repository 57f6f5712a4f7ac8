import SaveAs.Proofs.Session.Checkpoints
import SaveAs.Proofs.Session.Snapshot
import SaveAs.Session.Masking

/-!
# Handles in a table

A trigger may take its payloads from a table. A handle is taken out of the table before anything else is
done with its payload, and nothing puts it back, so that its payload reaches a saver once at most. What a
table holds after a run follows from the handles that its own trigger was run on.
-/

namespace SaveAs.Session

/-- The handle that a request runs a trigger on; the trigger is given by its number. -/
def asked? (i : Nat) (s : State) (r : Request) : Option String :=
  (ran? r).bind fun (slot, handle) => if s.number? slot = some i then some handle else none

/-- The handles that a trigger is run on, in their order. -/
def handlesOf (i : Nat) (ms : List Moment) : List String :=
  ms.filterMap fun m => asked? i m.state m.request

def Event.consumed? : Event → Option String
  | consume handle => some handle
  | _ => none

variable {s : State} {r : Request} {slot : Slot} {i : Nat} {t : Trigger} {handle payload : String}
  {payloads : Table String} {source : Source}

theorem asked?_of_ran (hran : ran? r = some (slot, handle)) (hnumber : s.number? slot = some i) :
    asked? i s r = some handle := by
  simp only [asked?, hran, Option.bind_some, if_pos hnumber]

theorem exists_ran_of_asked (h : asked? i s r = some handle) :
    ∃ slot, ran? r = some (slot, handle) ∧ s.number? slot = some i := by
  obtain ⟨⟨slot, other⟩, hran, h⟩ := Option.bind_eq_some_iff.1 h
  obtain ⟨hnumber, heq⟩ := Option.ite_none_right_eq_some.1 h
  cases heq
  exact ⟨slot, hran, hnumber⟩

/-! ### What a run takes from the table -/

/-- Being run takes the handle out of the table, whether it was there or not. -/
theorem exists_table_used (h : t.resolver = .table payloads) (handle : String) :
    ∃ left, t.used handle = { t with resolver := .table left } ∧
      ∀ k, left.get? k = if k = handle then none else payloads.get? k := by
  rw [Trigger.used, h, Resolver.resolve]
  cases hpayload : payloads.get? handle with
  | some payload => exact ⟨payloads.erase handle, rfl, payloads.get?_erase handle⟩
  | none =>
    refine ⟨payloads, rfl, fun k => ?_⟩
    split
    · rename_i hk
      rw [hk, hpayload]
    · rfl

theorem triggers_of_asked (hi : s.triggers[i]? = some t) (h : asked? i s r = some handle) :
    (step s r).2.triggers = s.triggers.set i (t.used handle) := by
  obtain ⟨slot, hran, hnumber⟩ := exists_ran_of_asked h
  rw [(step_of_ran hran (occupant?_eq_some_iff.2 ⟨hnumber, hi⟩)).state]
  exact (fire_effect hi handle slot.source).1

theorem triggers_of_not_asked (hs : s.WellPlaced) (hi : s.triggers[i]? = some t)
    (h : asked? i s r = none) : (step s r).2.triggers[i]? = some t := by
  have hlt : i < s.triggers.length := (List.getElem?_eq_some_iff.1 hi).1
  cases step_effect hs r with
  | placed slot u _ htriggers => rw [htriggers, List.getElem?_append_left hlt, hi]
  | used slot handle j u _ hran hslot htriggers =>
    have hne : j ≠ i := by
      rintro rfl
      rw [asked?_of_ran hran (occupant?_eq_some_iff.1 hslot).1] at h
      cases h
    rw [htriggers, List.getElem?_set_ne hne, hi]
  | kept _ _ htriggers => rw [htriggers, hi]

/-- A step leaves the table of a trigger as it is, but for the handle that it runs this trigger on. -/
theorem table_step (hs : s.WellPlaced) (hi : s.triggers[i]? = some t)
    (htable : t.resolver = .table payloads) (r : Request) :
    ∃ left, (step s r).2.triggers[i]? = some { t with resolver := .table left } ∧
      ∀ k, left.get? k = if asked? i s r = some k then none else payloads.get? k := by
  cases hasked : asked? i s r with
  | none =>
    refine ⟨payloads, ?_, fun k => by simp⟩
    rw [triggers_of_not_asked hs hi hasked, ← htable]
  | some handle =>
    obtain ⟨left, hused, hleft⟩ := exists_table_used htable handle
    refine ⟨left, ?_, fun k => ?_⟩
    · rw [triggers_of_asked hi hasked, List.getElem?_set_self (List.getElem?_eq_some_iff.1 hi).1, hused]
    · rw [hleft]
      simp only [Option.some.injEq, eq_comm]

theorem table_run (hs : s.WellPlaced) (hi : s.triggers[i]? = some t)
    (htable : t.resolver = .table payloads) (requests : List Request) :
    ∃ left, (run s requests).2.triggers[i]? = some { t with resolver := .table left } ∧
      ∀ k, left.get? k = if k ∈ handlesOf i (moments s requests) then none else payloads.get? k := by
  induction requests generalizing s t payloads with
  | nil =>
    refine ⟨payloads, ?_, fun k => (if_neg List.not_mem_nil).symm⟩
    rw [← htable]
    exact hi
  | cons r rest ih =>
    obtain ⟨next, hnext, hgone⟩ := table_step hs hi htable r
    obtain ⟨left, hleft, hlater⟩ := ih (step_wellPlaced hs r) hnext rfl
    refine ⟨left, hleft, fun k => ?_⟩
    have hhandles : k ∈ handlesOf i (moments s (r :: rest)) ↔
        asked? i s r = some k ∨ k ∈ handlesOf i (moments (step s r).2 rest) := by
      simp [handlesOf, moments]
    rw [hlater, hgone]
    by_cases hk : k ∈ handlesOf i (moments (step s r).2 rest) <;>
      by_cases hasked : asked? i s r = some k <;> simp [hhandles, hk, hasked]

/-! ### One run -/

/-- A run on a handle that the table does not have ends there: nothing is drawn, saved or put back. -/
structure Denied (handle : String) (s : State) (out : Reply × State) : Prop where
  result : ∃ e : Failure, out.1.result = .ended (.error e) ∧ e.message = "no such handle: " ++ handle
  events : out.1.events = [.log .requested, .consume handle]
  state : out.2 = s

/-- A run on a handle that the table has. The name is drawn and the payload saved once the handle is
taken out. However the save ends, that is how the run ends and what it leaves. -/
def Granted (i : Nat) (t : Trigger) (left : Table String) (handle payload : String) (source : Source)
    (s : State) (out : Reply × State) : Prop :=
  let taken := s.setResolver i (.table (left.erase handle))
  let d := handed payload t.options source taken
  let saved := saveWith t.saver d (source.draw t.options taken)
  out.1.result = .ended saved.result ∧
    out.1.events = .log .requested :: .consume handle ::
      .log (.resolved d.filename payload.utf8ByteSize) ::
        (saved.events ++ Delivery.closing (fun c _ => [.log c]) d.filename saved) ∧
    out.2 = saved.world

theorem resolveWith_of_absent (hi : s.triggers[i]? = some t) (htable : t.resolver = .table payloads)
    (h : payloads.get? handle = none) :
    resolveWith i handle s = ⟨.error (.noSuchHandle handle), [.consume handle], s⟩ := by
  have hresolve : Resolver.resolve handle t.resolver =
      ⟨.error (.noSuchHandle handle), [.consume handle], t.resolver⟩ := by
    rw [htable, Resolver.resolve, h]
  rw [resolveWith_of_trigger hi, Trigger.answer, Trigger.used, hresolve, Outcome.moved,
    setResolver_self hi]

theorem resolveWith_of_present (hi : s.triggers[i]? = some t) (htable : t.resolver = .table payloads)
    (h : payloads.get? handle = some payload) :
    resolveWith i handle s =
      ⟨.ok payload, [.consume handle], s.setResolver i (.table (payloads.erase handle))⟩ := by
  have hresolve : Resolver.resolve handle t.resolver =
      ⟨.ok payload, [.consume handle], .table (payloads.erase handle)⟩ := by
    rw [htable, Resolver.resolve, h]
  rw [resolveWith_of_trigger hi, Trigger.answer, Trigger.used, hresolve, Outcome.moved]

theorem denied_of_absent (hi : s.triggers[i]? = some t) (htable : t.resolver = .table payloads)
    (h : payloads.get? handle = none) {out : Reply × State} (hdoes : Does (fire i t handle source) s out) :
    Denied handle s out := by
  have hfire : fire i t handle source s = _ := deliver_of_unresolved (resolveWith_of_absent hi htable h)
  obtain ⟨hresult, hevents, hstate⟩ := hdoes
  rw [hfire] at hresult hevents hstate
  exact ⟨⟨_, hresult, rfl⟩, hevents, hstate⟩

theorem granted_of_present (hi : s.triggers[i]? = some t) (htable : t.resolver = .table payloads)
    (h : payloads.get? handle = some payload) {out : Reply × State}
    (hdoes : Does (fire i t handle source) s out) :
    Granted i t payloads handle payload source s out := by
  have hfire : fire i t handle source s = _ :=
    deliver_of_resolved (resolveWith_of_present hi htable h) rfl
  obtain ⟨hresult, hevents, hstate⟩ := hdoes
  rw [hfire] at hresult hevents hstate
  exact ⟨hresult, hevents, hstate⟩

/-- What a trigger with a table hands on is what the table has. -/
theorem payload_handed? (hran : ran? r = some (slot, handle)) (hslot : s.occupant? slot = some (i, t))
    (htable : t.resolver = .table payloads) :
    (handed? s r).map (·.2.payload) = payloads.get? handle := by
  rw [handed?_of_fired (fired?_of_ran hran hslot), Trigger.download?, htable, Resolver.resolve]
  cases payloads.get? handle <;> rfl

theorem consumed?_of_ofSaver {e : Event} (h : e.ofSaver = true) : e.consumed? = none := by
  cases e <;> first | rfl | cases h

theorem Granted.consumed? {left : Table String} {out : Reply × State}
    (h : Granted i t left handle payload source s out) :
    out.1.events.filterMap Event.consumed? = [handle] := by
  obtain ⟨-, hevents, -⟩ := h
  rw [hevents, List.filterMap_cons, List.filterMap_cons, List.filterMap_cons]
  refine List.cons_eq_cons.2 ⟨rfl, List.filterMap_eq_nil_iff.2 fun e he => ?_⟩
  obtain he | he := List.mem_append.1 he
  · exact consumed?_of_ofSaver (saveWith_emits_ofSaver _ _ _ e he)
  · rw [eq_triggered_of_mem_closing he]
    rfl

/-! ### At most one delivery -/

/-- Whether a moment hands on the payload of a handle from the table of a trigger. -/
def Moment.delivers (i : Nat) (handle : String) (m : Moment) : Bool :=
  asked? i m.state m.request = some handle && (handed? m.state m.request).isSome

theorem isSome_of_delivers (hi : s.triggers[i]? = some t) (htable : t.resolver = .table payloads)
    (h : Moment.delivers i handle ⟨s, r⟩ = true) :
    asked? i s r = some handle ∧ (payloads.get? handle).isSome = true := by
  rw [Moment.delivers, Bool.and_eq_true, decide_eq_true_iff] at h
  obtain ⟨hasked, hhanded⟩ := h
  obtain ⟨slot, hran, hnumber⟩ := exists_ran_of_asked hasked
  rw [← payload_handed? hran (occupant?_eq_some_iff.2 ⟨hnumber, hi⟩) htable, Option.isSome_map]
  exact ⟨hasked, hhanded⟩

/-- A payload is handed on once at most, and never without being in the table. -/
theorem countP_delivers_le (hs : s.WellPlaced) (hi : s.triggers[i]? = some t)
    (htable : t.resolver = .table payloads) (handle : String) (requests : List Request) :
    (moments s requests).countP (Moment.delivers i handle) ≤ (payloads.get? handle).toList.length := by
  induction requests generalizing s t payloads with
  | nil => exact Nat.zero_le _
  | cons r rest ih =>
    obtain ⟨next, hnext, hgone⟩ := table_step hs hi htable r
    have hrest := ih (step_wellPlaced hs r) hnext rfl
    rw [hgone] at hrest
    rw [moments, List.countP_cons]
    by_cases hdelivers : Moment.delivers i handle ⟨s, r⟩ = true
    · obtain ⟨hasked, hpresent⟩ := isSome_of_delivers hi htable hdelivers
      obtain ⟨payload, hpayload⟩ := Option.isSome_iff_exists.1 hpresent
      rw [if_pos hasked] at hrest
      rw [if_pos hdelivers, hpayload]
      exact Nat.succ_le_succ hrest
    · rw [if_neg hdelivers, Nat.add_zero]
      refine Nat.le_trans hrest ?_
      split
      · exact Nat.zero_le _
      · exact Nat.le_refl _

theorem occupant?_of_built (hs : s.WellPlaced) (h : built? s r = some (slot, t)) :
    (step s r).2.occupant? slot = some (s.triggers.length, t) := by
  cases step_effect hs r with
  | placed k u hbuilt htriggers hnumbers =>
    obtain ⟨rfl, rfl⟩ := Prod.mk.inj (Option.some.inj (hbuilt.symm.trans h))
    exact occupant?_eq_some_iff.2
      ⟨by rw [hnumbers, if_pos rfl], by rw [htriggers, List.getElem?_concat_length]⟩
  | used _ _ _ _ hbuilt =>
    rw [hbuilt] at h
    cases h
  | kept hbuilt =>
    rw [hbuilt] at h
    cases h

/-- A trigger with a table, from when it is built. After any requests its table is the one that it was
built with, less the handles that it was run on. A further run takes its handle first and then fails, if
the handle is gone, or hands its payload on, and leaves the rest of this table and all other triggers
alone. So no payload is handed on twice, whatever becomes of it. -/
theorem handles_are_given_once (start : State) (before : List Request) (b : Request) (slot : Slot)
    (t : Trigger) (payloads : Table String) (requests : List Request)
    (hbuilt : built? (run start.cleared before).2 b = some (slot, t))
    (htable : t.resolver = .table payloads) :
    let i := (run start.cleared before).2.triggers.length
    let s₀ := (run start.cleared (before ++ [b])).2
    let s := (run s₀ requests).2
    s₀.occupant? slot = some (i, t) ∧
    (∃ left, s.triggers[i]? = some { t with resolver := .table left } ∧
      (∀ k, left.get? k =
        if k ∈ handlesOf i (moments s₀ requests) then none else payloads.get? k) ∧
      ∀ r k handle, ran? r = some (k, handle) → s.number? k = some i →
        (step s r).1.events.filterMap Event.consumed? = [handle] ∧
        (handed? s r).map (·.2.payload) = left.get? handle ∧
        (∀ j, j ≠ i → (step s r).2.triggers[j]? = s.triggers[j]?) ∧
        match left.get? handle with
        | none => Denied handle s (step s r)
        | some payload => Granted i t left handle payload k.source s (step s r)) ∧
    ∀ handle, (moments s₀ requests).countP (Moment.delivers i handle) ≤ 1 := by
  intro i s₀ s
  have hbefore : (run start.cleared before).2.WellPlaced :=
    run_wellPlaced (wellPlaced_cleared start) before
  have hs₀ : s₀.WellPlaced := run_wellPlaced (wellPlaced_cleared start) _
  have hplace : s₀.occupant? slot = some (i, t) := by
    have hstep : s₀ = (step (run start.cleared before).2 b).2 := run_append _ before [b]
    rw [hstep]
    exact occupant?_of_built hbefore hbuilt
  have hi₀ := (occupant?_eq_some_iff.1 hplace).2
  obtain ⟨left, hi, hleft⟩ := table_run hs₀ hi₀ htable requests
  refine ⟨hplace, ⟨left, hi, hleft, fun r k handle hran hnumber => ?_⟩, fun handle => ?_⟩
  · have hslot : s.occupant? k = some (i, { t with resolver := .table left }) :=
      occupant?_eq_some_iff.2 ⟨hnumber, hi⟩
    have hdoes := step_of_ran hran hslot
    refine ⟨?_, payload_handed? hran hslot rfl, fun j hj => ?_, ?_⟩
    · cases hpayload : left.get? handle with
      | none =>
        rw [(denied_of_absent hi rfl hpayload hdoes).events]
        rfl
      | some payload => exact (granted_of_present hi rfl hpayload hdoes).consumed?
    · rw [triggers_of_asked hi (asked?_of_ran hran hnumber), List.getElem?_set_ne hj.symm]
    · split
      · rename_i hpayload
        exact denied_of_absent hi rfl hpayload hdoes
      · rename_i payload hpayload
        exact granted_of_present hi rfl hpayload hdoes
  · refine Nat.le_trans (countP_delivers_le hs₀ hi₀ htable handle requests) ?_
    cases payloads.get? handle <;> simp

/-- A handle whose delivery fails is gone; the other one of the table is not. -/
theorem handle_of_failed_delivery_is_gone :
    let before : List Request := [⟨.absent, .defineSaver "saver" (.failing "offline")⟩]
    let built : Request :=
      ⟨.absent, .buildTrigger "trigger" "saver" (.table (.ofList [("first", "AAAA"), ("second", "BBBB")]))⟩
    let fired (handle : String) : Request := ⟨.absent, .fire "trigger" handle⟩
    let s := (run {} (before ++ [built, fired "first"])).2
    Denied "first" s (step s (fired "first")) ∧
      (step s (fired "second")).1.result = .ended (.error (.unsaved "offline")) := by
  intro before built fired s
  obtain ⟨-, ⟨left, hi, hleft, hruns⟩, -⟩ :=
    handles_are_given_once {} before built (.named "trigger") _ _ [fired "first"] rfl rfl
  have hfirst : left.get? "first" = none := by
    rw [hleft]
    exact if_pos (by decide +kernel)
  have hsecond : left.get? "second" = some "BBBB" := by
    rw [hleft, if_neg (by decide +kernel)]
    rfl
  obtain ⟨-, -, -, hdenied⟩ := hruns (fired "first") (.named "trigger") "first" rfl rfl
  obtain ⟨-, -, -, hgranted⟩ := hruns (fired "second") (.named "trigger") "second" rfl rfl
  rw [hfirst] at hdenied
  rw [hsecond] at hgranted
  exact ⟨hdenied, hgranted.1⟩

end SaveAs.Session
