import SaveAs.Anchor.Recorder

/-!
# The protocol of a save through an anchor

A document is watched while a download is saved: each operation that is tried is told, with its anchor and
with what came of it. Whatever the operations do and whenever they fail, what is told is one fixed list of
operations, cut behind the first that failed.
-/

namespace SaveAs.Document

variable {ε ν σ α β : Type}

/-- What a document is asked for. -/
inductive Operation
  | create
  | setAttribute (name value : String)
  | hide
  | append
  | click
  | remove
  deriving DecidableEq, Repr

/-- An operation that was tried. The anchor is the one that it is for, or that it made. -/
structure Call (ε ν α : Type) where
  operation : Operation
  anchor : Option α
  result : Except ε Unit
  events : List ν

def Call.succeeded (c : Call ε ν α) : Bool :=
  c.result.isOk

/-- The operations of a save, when none of them fails. -/
def protocol (d : Download) : List Operation :=
  [.create, .setAttribute "href" ("data:" ++ d.mimeType ++ ";base64," ++ d.payload),
    .setAttribute "download" d.filename, .hide, .append, .click, .remove]

/-! ### Watching a document -/

/-- Runs an operation and tells that it was tried. -/
def watch (operation : Operation) (anchor : Except ε β → Option α) (x : Action ε ν σ β) :
    Action ε (Call ε ν α) σ β := fun w =>
  let o := x w
  ⟨o.result, [⟨operation, anchor o.result, o.result.map fun _ => (), o.events⟩], o.world⟩

/-- The same document, but its events are the operations that are tried. -/
def watched (doc : Document ε ν σ α) : Document ε (Call ε ν α) σ α where
  create := watch .create Except.toOption doc.create
  setAttribute a name value :=
    watch (.setAttribute name value) (fun _ => some a) (doc.setAttribute a name value)
  hide a := watch .hide (fun _ => some a) (doc.hide a)
  append a := watch .append (fun _ => some a) (doc.append a)
  click a w := ([⟨.click, some a, .ok (), (doc.click a w).1⟩], (doc.click a w).2)
  remove a := watch .remove (fun _ => some a) (doc.remove a)

/-- The operations that a save tries, in their order. -/
def calls (doc : Document ε ν σ α) (d : Download) (w : σ) : List (Call ε ν α) :=
  (doc.watched.save d w).events

/-- Does the same as another action, and tells its events call by call. -/
def Tells (y : Action ε (Call ε ν α) σ β) (x : Action ε ν σ β) : Prop :=
  ∀ w, x w = ⟨(y w).result, (y w).events.flatMap Call.events, (y w).world⟩

theorem watch_tells (operation : Operation) (anchor : Except ε β → Option α) (x : Action ε ν σ β) :
    Tells (watch operation anchor x) x := by
  intro w
  simp only [watch, List.flatMap_cons, List.flatMap_nil, List.append_nil]

theorem Tells.bind {γ : Type} {y : Action ε (Call ε ν α) σ β} {x : Action ε ν σ β}
    {l : β → Action ε (Call ε ν α) σ γ} {k : β → Action ε ν σ γ} (h : Tells y x)
    (hk : ∀ b, Tells (l b) (k b)) : Tells (y >>= l) (x >>= k) := by
  intro w
  have hx := h w
  cases hy : y w with
  | mk result events w' =>
    rw [hy] at hx
    cases result with
    | ok b =>
      rw [Action.bind_of_ok hx, Action.bind_of_ok hy, hk b w']
      simp only [List.flatMap_append]
    | error e => rw [Action.bind_of_error hx, Action.bind_of_error hy]

/-- Watching does not disturb. -/
theorem tells_save (doc : Document ε ν σ α) (d : Download) :
    Tells (doc.watched.save d) (doc.save d) := by
  have hclick (a : α) : Tells (Action.perform (doc.watched.click a) : Action ε _ σ Unit)
      (Action.perform (doc.click a)) := by
    intro w
    simp only [Action.perform_apply, watched, List.flatMap_cons, List.flatMap_nil, List.append_nil]
  exact (watch_tells .create Except.toOption doc.create).bind fun a =>
    (watch_tells _ (fun _ => some a) (doc.setAttribute a "href" d.href)).bind fun _ =>
      (watch_tells _ (fun _ => some a) (doc.setAttribute a "download" d.filename)).bind fun _ =>
        (watch_tells _ (fun _ => some a) (doc.hide a)).bind fun _ =>
          (watch_tells _ (fun _ => some a) (doc.append a)).bind fun _ => (hclick a).bind fun _ =>
            watch_tells _ (fun _ => some a) (doc.remove a)

/-! ### Cut behind the first failure -/

/-- Some operations are tried for one anchor, one after another, until one fails; clicks do not. -/
inductive Cut (anchor : Option α) : List Operation → List (Call ε ν α) → Except ε Unit → Prop
  | whole : Cut anchor [] [] (.ok ())
  | passed {operation : Operation} {operations : List Operation} {events : List ν}
      {calls : List (Call ε ν α)} {result : Except ε Unit} (hrest : Cut anchor operations calls result) :
      Cut anchor (operation :: operations) (⟨operation, anchor, .ok (), events⟩ :: calls) result
  | failed {operation : Operation} {operations : List Operation} {events : List ν} {e : ε}
      (hclick : operation ≠ .click) :
      Cut anchor (operation :: operations) [⟨operation, anchor, .error e, events⟩] (.error e)

variable {anchor : Option α} {operation : Operation} {operations : List Operation}
  {tried : List (Call ε ν α)} {result : Except ε Unit} {w : σ} {d : Download}

theorem watch_of_ok {name : Except ε β → Option α} {x : Action ε ν σ β} {b : β}
    (h : (x w).result = .ok b) :
    watch operation name x w =
      ⟨.ok b, [⟨operation, name (.ok b), .ok (), (x w).events⟩], (x w).world⟩ := by
  rw [watch, h]
  rfl

theorem watch_of_error {name : Except ε β → Option α} {x : Action ε ν σ β} {e : ε}
    (h : (x w).result = .error e) :
    watch operation name x w =
      ⟨.error e, [⟨operation, name (.error e), .error e, (x w).events⟩], (x w).world⟩ := by
  rw [watch, h]
  rfl

/-- An operation in front of others, which are tried if it succeeds. -/
theorem cut_bind (name : Except ε β → Option α) {x : Action ε ν σ β}
    {k : β → Action ε (Call ε ν α) σ Unit} (hclick : operation ≠ .click)
    (hk : ∀ b, (x w).result = .ok b →
      Cut (name (.ok b)) operations (k b (x w).world).events (k b (x w).world).result) :
    Cut (name (x w).result) (operation :: operations) ((watch operation name x >>= k) w).events
      ((watch operation name x >>= k) w).result := by
  cases hx : (x w).result with
  | ok b =>
    rw [Action.bind_of_ok (watch_of_ok hx)]
    exact .passed (hk b hx)
  | error e =>
    rw [Action.bind_of_error (watch_of_error hx)]
    exact .failed hclick

theorem cut_click {a : α} {k : Action ε (Call ε ν α) σ Unit} (doc : Document ε ν σ α)
    (hk : ∀ w, Cut (some a) operations (k w).events (k w).result) :
    Cut (some a) (.click :: operations)
      ((Action.perform (doc.watched.click a) >>= fun _ => k) w).events
      ((Action.perform (doc.watched.click a) >>= fun _ => k) w).result :=
  .passed (hk _)

theorem cut_last (name : Except ε Unit → Option α) {x : Action ε ν σ Unit}
    (hclick : operation ≠ .click) :
    Cut (name (x w).result) [operation] (watch operation name x w).events
      (watch operation name x w).result := by
  cases hx : (x w).result with
  | ok u =>
    rw [watch_of_ok hx]
    exact .passed .whole
  | error e =>
    rw [watch_of_error hx]
    exact .failed hclick

theorem cut_save (doc : Document ε ν σ α) (d : Download) (w : σ) :
    Cut (doc.create w).result.toOption (protocol d) (doc.calls d w) (doc.watched.save d w).result := by
  refine cut_bind Except.toOption (by simp) fun a _ => ?_
  refine cut_bind (fun _ => some a) (by simp) fun _ _ => ?_
  refine cut_bind (fun _ => some a) (by simp) fun _ _ => ?_
  refine cut_bind (fun _ => some a) (by simp) fun _ _ => ?_
  refine cut_bind (fun _ => some a) (by simp) fun _ _ => ?_
  exact cut_click doc fun w => cut_last (fun _ => some a) (by simp)

/-! ### What is told -/

namespace Cut

theorem anchor_eq (h : Cut anchor operations tried result) : ∀ c ∈ tried, c.anchor = anchor := by
  induction h with
  | whole => simp
  | passed hrest ih => exact List.forall_mem_cons.2 ⟨rfl, ih⟩
  | failed hclick => simp

/-- All operations succeed, or those up to one that is tried and fails. -/
theorem split (h : Cut anchor operations tried result) :
    tried.filter Call.succeeded = tried ∧ tried.map (·.operation) = operations ∧ result = .ok () ∨
      ∃ next e later, tried = tried.filter Call.succeeded ++ [next] ∧
        operations = (tried.filter Call.succeeded).map (·.operation) ++ next.operation :: later ∧
        next.operation ≠ .click ∧ next.result = .error e ∧ result = .error e := by
  induction h with
  | whole => exact .inl ⟨rfl, rfl, rfl⟩
  | @passed operation operations events calls result hrest ih =>
    have hfilter : ((⟨operation, anchor, .ok (), events⟩ :: calls).filter Call.succeeded) =
        ⟨operation, anchor, .ok (), events⟩ :: calls.filter Call.succeeded := rfl
    rw [hfilter]
    obtain ⟨hdone, hall, hresult⟩ | ⟨next, e, later, htried, hsplit, hclick, herror, hresult⟩ := ih
    · exact .inl ⟨by rw [hdone], by rw [List.map_cons, hall], hresult⟩
    · refine .inr ⟨next, e, later, by rw [List.cons_append, ← htried], ?_, hclick, herror, hresult⟩
      rw [List.map_cons, List.cons_append, ← hsplit]
  | failed hclick => exact .inr ⟨_, _, _, rfl, rfl, hclick, rfl, rfl⟩

theorem prefix_of_operations (h : Cut anchor operations tried result) :
    (tried.filter Call.succeeded).map (·.operation) <+: operations := by
  obtain ⟨hdone, hall, -⟩ | ⟨next, e, later, -, hsplit, -⟩ := h.split
  · exact ⟨[], by rw [hdone, hall, List.append_nil]⟩
  · exact ⟨_, hsplit.symm⟩

theorem result_eq_ok_iff (h : Cut anchor operations tried result) :
    result = .ok () ↔ (tried.filter Call.succeeded).map (·.operation) = operations := by
  obtain ⟨hdone, hall, hresult⟩ | ⟨next, e, later, -, hsplit, -, -, hresult⟩ := h.split
  · exact iff_of_true hresult (by rw [hdone, hall])
  · refine iff_of_false (by rw [hresult]; rintro ⟨⟩) fun hall => ?_
    rw [hall] at hsplit
    exact List.cons_ne_nil _ _ (List.self_eq_append_right.1 hsplit)

theorem result_eq_error_iff (h : Cut anchor operations tried result) (e : ε) :
    result = .error e ↔
      ∃ next, tried = tried.filter Call.succeeded ++ [next] ∧ next.result = .error e ∧
        (tried.filter Call.succeeded).map (·.operation) ++ [next.operation] <+: operations := by
  obtain ⟨hdone, -, hresult⟩ | ⟨next, e', later, htried, hsplit, -, herror, hresult⟩ := h.split
  · refine iff_of_false (by rw [hresult]; rintro ⟨⟩) fun ⟨next, hlonger, _⟩ => ?_
    rw [hdone] at hlonger
    exact List.cons_ne_nil _ _ (List.self_eq_append_right.1 hlonger)
  · rw [hresult]
    constructor
    · rintro ⟨⟩
      exact ⟨next, htried, herror, later, by rw [List.append_assoc, hsplit]; rfl⟩
    · rintro ⟨other, hother, hfailed, -⟩
      obtain rfl : next = other := List.singleton_inj.1 (List.append_cancel_left (htried.symm.trans hother))
      rw [← herror, hfailed]

end Cut

/-! ### How a save ends -/

/-- All is done, or the anchor was clicked and its removal fails, or it was not attached. -/
inductive Ended (d : Download) (tried : List (Call ε ν α)) (result : Except ε Unit) : Prop
  | done (hdone : (tried.filter Call.succeeded).map (·.operation) = protocol d)
      (hall : tried.map (·.operation) = protocol d) (hresult : result = .ok ())
  | kept {next : Call ε ν α} {e : ε} (htried : tried = tried.filter Call.succeeded ++ [next])
      (hdone : (tried.filter Call.succeeded).map (·.operation) = (protocol d).take 6)
      (hnext : next.operation = .remove) (herror : next.result = .error e) (hresult : result = .error e)
  | unattached {next : Call ε ν α} {e : ε} (htried : tried = tried.filter Call.succeeded ++ [next])
      (hdone : (tried.filter Call.succeeded).map (·.operation) <+: (protocol d).take 4)
      (hremove : next.operation ≠ .remove) (hclick : next.operation ≠ .click) (hresult : result = .error e)

theorem Cut.ended (h : Cut anchor (protocol d) tried result) : Ended d tried result := by
  obtain ⟨hdone, hall, hresult⟩ | ⟨next, e, later, htried, hsplit, hclick, herror, hresult⟩ := h.split
  · exact .done (by rw [hdone, hall]) hall hresult
  · have htake : (tried.filter Call.succeeded).map (·.operation) =
        (protocol d).take (tried.filter Call.succeeded).length := by
      rw [hsplit, List.take_left' (List.length_map _)]
    have hnext : (protocol d)[(tried.filter Call.succeeded).length]? = some next.operation := by
      rw [hsplit, List.getElem?_append_right (by simp), List.length_map, Nat.sub_self]
      rfl
    generalize (tried.filter Call.succeeded).length = k at htake hnext
    match k with
    | 0 | 1 | 2 | 3 | 4 =>
      have hop := Option.some.inj hnext
      refine .unattached htried ?_ (by rw [← hop]; simp) hclick hresult
      exact htake ▸ List.take_prefix_take_left (l := protocol d) (by decide)
    | 5 => exact absurd (Option.some.inj hnext).symm hclick
    | 6 => exact .kept htried htake (Option.some.inj hnext).symm herror hresult
    | k + 7 => cases hnext

namespace Ended

/-- Before the anchor is attached it is not clicked either. -/
theorem not_mem_of_unattached {done : List Operation} (h : done <+: (protocol d).take 4) :
    .append ∉ done ∧ .click ∉ done :=
  ⟨fun hmem => by simpa [protocol] using h.subset hmem,
    fun hmem => by simpa [protocol] using h.subset hmem⟩

theorem map_tried {next : Call ε ν α} (htried : tried = tried.filter Call.succeeded ++ [next]) :
    tried.map (·.operation) = (tried.filter Call.succeeded).map (·.operation) ++ [next.operation] :=
  (congrArg (List.map (·.operation)) htried).trans List.map_append

theorem getLast?_ne (h : Ended d tried result) :
    ((tried.filter Call.succeeded).map (·.operation)).getLast? ≠ some .append := by
  cases h with
  | done hdone hall hresult => simp [hdone, protocol]
  | kept htried hdone hnext herror hresult => simp [hdone, protocol]
  | unattached htried hdone hremove hclick hresult =>
    exact fun hlast => (not_mem_of_unattached hdone).1 (List.mem_of_getLast? hlast)

theorem map_eq_of_append (h : Ended d tried result)
    (happend : .append ∈ (tried.filter Call.succeeded).map (·.operation)) :
    tried.map (·.operation) = protocol d := by
  cases h with
  | done hdone hall hresult => exact hall
  | kept htried hdone hnext herror hresult =>
    rw [map_tried htried, hdone, hnext]
    rfl
  | unattached htried hdone hremove hclick hresult => exact absurd happend (not_mem_of_unattached hdone).1

theorem count_click_le (h : Ended d tried result) : (tried.map (·.operation)).count .click ≤ 1 := by
  by_cases happend : .append ∈ (tried.filter Call.succeeded).map (·.operation)
  · rw [h.map_eq_of_append happend]
    simp [protocol]
  · cases h with
    | done hdone hall hresult => simp [hdone, protocol] at happend
    | kept htried hdone hnext herror hresult => simp [hdone, protocol] at happend
    | unattached htried hdone hremove hclick hresult =>
      rw [map_tried htried, List.count_append, List.count_eq_zero_of_not_mem (not_mem_of_unattached hdone).2]
      exact Nat.zero_add _ ▸ List.count_le_length

theorem click_iff (h : Ended d tried result) :
    .click ∈ (tried.filter Call.succeeded).map (·.operation) ↔
      result = .ok () ∨ ∃ c ∈ tried, c.operation = .remove ∧ ∃ e, c.result = .error e := by
  cases h with
  | done hdone hall hresult => exact iff_of_true (by simp [hdone, protocol]) (.inl hresult)
  | @kept next e htried hdone hnext herror hresult =>
    refine iff_of_true (by simp [hdone, protocol]) (.inr ⟨next, ?_, hnext, e, herror⟩)
    rw [htried]
    exact List.mem_append_right _ (List.mem_singleton.2 rfl)
  | unattached htried hdone hremove hclick hresult =>
    refine iff_of_false (not_mem_of_unattached hdone).2 ?_
    rintro (hok | ⟨c, hc, hop, e, herror⟩)
    · rw [hresult] at hok
      cases hok
    · rw [htried] at hc
      obtain hc | hc := List.mem_append.1 hc
      · have hsucceeded := (List.mem_filter.1 hc).2
        rw [Call.succeeded, herror] at hsucceeded
        cases hsucceeded
      · rw [List.mem_singleton.1 hc] at hop
        exact hremove hop

end Ended

/-- A save tries the operations of its protocol, all for the anchor that it makes, until one of them fails,
and ends as that one does. A click follows an append that succeeded, and a removal is tried after it. -/
theorem save_follows_protocol (doc : Document ε ν σ α) (d : Download) (w : σ) :
    let tried := doc.calls d w
    let done := tried.filter Call.succeeded
    let out := doc.save d w
    -- the save that is watched is the save itself
    out = ⟨(doc.watched.save d w).result, tried.flatMap (·.events), (doc.watched.save d w).world⟩ ∧
    -- one anchor, and the protocol up to the first failure
    (∀ c ∈ tried, c.anchor = (doc.create w).result.toOption) ∧
    done.map (·.operation) <+: protocol d ∧
    (out.result = .ok () ↔ done.map (·.operation) = protocol d) ∧
    (∀ e, out.result = .error e ↔
      ∃ next, tried = done ++ [next] ∧ next.result = .error e ∧
        done.map (·.operation) ++ [next.operation] <+: protocol d) ∧
    -- what follows an append
    (done.map (·.operation)).getLast? ≠ some .append ∧
    (.append ∈ done.map (·.operation) → tried.map (·.operation) = protocol d) ∧
    (tried.map (·.operation)).count .click ≤ 1 ∧
    (.click ∈ done.map (·.operation) ↔
      out.result = .ok () ∨ ∃ c ∈ tried, c.operation = .remove ∧ ∃ e, c.result = .error e) := by
  intro tried done out
  have hcut := cut_save doc d w
  have hout := tells_save doc d w
  have hresult : out.result = (doc.watched.save d w).result := congrArg Outcome.result hout
  rw [hresult]
  exact ⟨hout, hcut.anchor_eq, hcut.prefix_of_operations, hcut.result_eq_ok_iff, hcut.result_eq_error_iff,
    hcut.ended.getLast?_ne, hcut.ended.map_eq_of_append, hcut.ended.count_click_le, hcut.ended.click_iff⟩

/-- A removal fails: the save fails as it does, but the anchor was clicked. -/
theorem clicked_by_failing_save :
    let d : Download := ⟨"AAAA", "image/png", "out0.png"⟩
    let r : Recorder := { faults := { remove := some "not a child" } }
    let tried := Recorder.document.calls d r
    (Recorder.document.save d r).result = .error "not a child" ∧
      .click ∈ (tried.filter Call.succeeded).map (·.operation) ∧
      tried.map (·.operation) = protocol d ∧ ∀ c ∈ tried, c.anchor = some 0 := by
  intro d r tried
  obtain ⟨-, hanchor, -, -, -, -, hall, -, hclick⟩ := save_follows_protocol Recorder.document d r
  have hlast : tried.getLast? = some ⟨.remove, some 0, .error "not a child", []⟩ := rfl
  exact ⟨rfl, hclick.2 (.inr ⟨_, List.mem_of_getLast? hlast, rfl, _, rfl⟩), hall (by decide), hanchor⟩

end SaveAs.Document
