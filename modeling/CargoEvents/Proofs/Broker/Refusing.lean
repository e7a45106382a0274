import CargoEvents.Proofs.Broker.Stepwise
import Mathlib.Data.List.Induction

/-! # Refusals

What is refused leaves the broker as it was, but for the fault that a stream yields. A closed
session is refused whatever it asks for, and as a closed one, unless it sets its limit while
declarations fail. And the first declaration of an exchange or a queue decides: a later one is
accepted if it is the same, and does nothing.
-/
namespace CargoEvents.Broker

/-- Whether the action is for session `s`, and only while that is open. -/
def Action.asks (s : Nat) : Action → Bool
  | .declareExchange t _ | .declareQueue t _ | .setQos t _ | .bindQueue t .. | .publish t ..
  | .consume t _ | .resolve t .. => t == s
  | .openSession | .poll _ | .closeSession _ | .operate _ => false

/-- After a run, what `look` finds is `x`. It was declared when there was none, and is as it was
declared until something ends it. A further declaration of what is named so is accepted exactly if
it is the same, and changes nothing in any case. -/
structure Established {δ : Type} (look : Broker → Option δ) (declare : Nat → δ → Action)
    (named : δ → Prop) (ends : Action → Prop) (actions : List Action) (x : δ) : Prop where
  name : named x
  since : ∃ earlier s later, actions = earlier ++ declare s x :: later ∧
    look (run {} earlier) = none ∧
    ∀ mid, mid <+: later → look (run {} (earlier ++ declare s x :: mid)) = some x
  stays : ∀ later, (∀ a ∈ later, ¬ends a) → look (run {} (actions ++ later)) = some x
  again : ∀ s y, named y → ((run {} actions).answer (declare s y) = .ok () ↔
    (run {} actions).isOpen s ∧ (run {} actions).declarationFault = none ∧ y = x)
  idle : ∀ s y, named y → (run {} actions).act (declare s y) = run {} actions

variable {b : Broker} {s : Nat} {a : Action} {e : BrokerError}

/-! ## What a refusal leaves -/

theorem after_of_error {r : Except BrokerError Broker} (h : (r.map fun _ => ()) = .error e) :
    b.after r = b := by
  cases r with
  | error => rfl
  | ok => cases h

/-- A refused action does nothing. -/
theorem act_of_error (h : b.answer a = .error e) (hp : ∀ st, a ≠ .poll st) : b.act a = b := by
  cases a with
  | poll st => exact (hp st rfl).elim
  | openSession | closeSession | operate => cases h
  | consume s queue => exact b.act_consume s queue
  | declareExchange | declareQueue | setQos | bindQueue | publish | resolve =>
    exact after_of_error h

theorem faults_of_error (h : b.answer a = .error e) :
    { b.act a with deliveryFaults := b.deliveryFaults } = b := by
  by_cases hp : ∃ st, a = .poll st
  · obtain ⟨st, rfl⟩ := hp
    have hyield := b.poll_yield st
    simp only [answer, Broker.act] at h ⊢
    generalize b.poll st = polled at h hyield ⊢
    cases hyield with
    | waiting | nothing | ended | fault => rfl
    | delivery => cases h
  · rw [act_of_error h fun st hst => hp ⟨st, hst⟩]

/-! ## Closed sessions -/

theorem Shut.isOpen (h : b.Shut s) : b.isOpen s = false := by
  obtain ⟨x, hs, hclosed, -⟩ := h
  simp [Broker.isOpen, hs, hclosed]

/-- Whatever else is wrong, all calls but one look first whether the session is open. -/
theorem answer_closed (hs : b.isOpen s = false) (ha : a.asks s) :
    b.answer a = .error .sessionClosed ∧
        (∀ qos, a = .setQos s qos → b.declarationFault = none) ∨
      ∃ qos reason, a = .setQos s qos ∧ b.declarationFault = some reason ∧
        b.answer a = .error (.declarationFailed "qos" reason) := by
  cases a with
  | openSession | poll | closeSession | operate => cases ha
  | setQos t qos =>
    obtain rfl := beq_iff_eq.mp ha
    cases hf : b.declarationFault with
    | none => exact .inl ⟨by simp [answer, setQos, hf, hs, Except.map], fun _ _ => rfl⟩
    | some reason =>
      exact .inr ⟨qos, reason, rfl, rfl, by simp [answer, setQos, hf, Except.map]⟩
  | declareExchange | declareQueue | bindQueue | publish | consume =>
    obtain rfl := beq_iff_eq.mp ha
    refine .inl ⟨?_, by simp⟩
    simp [answer, declareExchange, declareQueue, bindQueue, publish, consume, hs, Except.map]
  | resolve t tag how =>
    obtain rfl := beq_iff_eq.mp ha
    refine .inl ⟨?_, by simp⟩
    simp only [answer, resolve]
    cases hx : b.sessions[t]? with
    | none => rfl
    | some x =>
      have hclosed : x.isOpen = false := by simpa [isOpen, hx] using hs
      simp [hclosed, Except.map]

theorem closed_of_run (before later : List Action) (hs : s < (run {} before).sessions.length) :
    (run {} (before ++ .closeSession s :: later)).Shut s := by
  have hbefore : (run {} before).Sound := sound_empty.run before
  rw [run_append]
  exact (hbefore.shut_closeSession (List.getElem?_eq_getElem hs)).run later

/-- After any run, with whatever faults: a session that was closed on the way. Whatever is asked of
it, whether for the first time or about a delivery it handed out, leaves the broker as it was and
is refused as a closed session's; only a limit, if declarations fail, is refused for that reason
instead. -/
theorem closed_session_refuses (before later : List Action) {s : Nat} {a : Action}
    (hs : s < (run {} before).sessions.length) (ha : a.asks s) :
    let b := run {} (before ++ .closeSession s :: later)
    a.attempt b = (b.answer a, b) ∧
    (b.answer a = .error .sessionClosed ↔ ∀ qos, a = .setQos s qos → b.declarationFault = none) ∧
    ∀ qos reason, a = .setQos s qos → b.declarationFault = some reason →
      b.answer a = .error (.declarationFailed "qos" reason) := by
  intro b
  have hclosed : b.isOpen s = false := (closed_of_run before later hs).isOpen
  have hpoll (st : Stream) : a ≠ .poll st := by
    rintro rfl
    cases ha
  rw [attempt_eq]
  rcases answer_closed hclosed ha with ⟨hanswer, hnone⟩ | ⟨qos, reason, hset, hf, hanswer⟩
  · refine ⟨congrArg _ (act_of_error hanswer hpoll), iff_of_true hanswer hnone, ?_⟩
    intro qos reason hset hf
    cases (hnone qos hset).symm.trans hf
  · refine ⟨congrArg _ (act_of_error hanswer hpoll), iff_of_false ?_ fun hnone => ?_, ?_⟩
    · rw [hanswer]
      exact fun h => nomatch h
    · cases (hnone qos hset).symm.trans hf
    · intro _ reason' _ hf'
      obtain rfl := Option.some.inj (hf.symm.trans hf')
      exact hanswer

/-- A session closes with a delivery in flight, and then all that can be made to fail does. -/
theorem closed_session_refuses_failing :
    let before : List Action :=
      [.openSession, .declareExchange 0 { name := "x" }, .declareQueue 0 { name := "q" },
        .bindQueue 0 "q" "x" "k", .operate (.inject "x" "k" none []),
        .poll { session := 0, queue := "q", epoch := 0 }]
    let later : List Action :=
      [.operate (.failDeclarations (some "maintenance")),
        .operate (.failPublishes (some "maintenance")), .operate (.failNextDelivery "maintenance")]
    let b := run {} (before ++ .closeSession 0 :: later)
    (∀ a ∈ [.declareQueue 0 { name := "q" }, .bindQueue 0 "q" "x" "j", .consume 0 "q",
        .publish 0 "x" { routingKey := "k", typeTag := "k", body := [] }, .resolve 0 1 .ack,
        .resolve 0 1 (.nack true)], Action.attempt a b = (.error .sessionClosed, b)) ∧
      (Action.setQos 0 {}).attempt b = (.error (.declarationFailed "qos" "maintenance"), b) := by
  intro before later b
  have hs : 0 < (run {} before).sessions.length := by decide +kernel
  refine ⟨fun a ha => ?_, ?_⟩
  · have hasks : a.asks 0 := by
      revert a
      decide
    obtain ⟨hattempt, hanswer, -⟩ := closed_session_refuses before later hs hasks
    rw [hattempt, hanswer.mpr]
    rintro qos rfl
    simp at ha
  · obtain ⟨hattempt, -, hanswer⟩ :=
      closed_session_refuses before later (a := .setQos 0 {}) hs (by decide)
    rw [hattempt, hanswer _ "maintenance" rfl (by decide +kernel)]

/-- Of a closed session's calls, the one for a limit tells of the failing declarations. -/
theorem closed_session_blames_fault :
    let b := run {}
      [.openSession, .closeSession 0, .operate (.failDeclarations (some "maintenance"))]
    b.Shut 0 ∧ b.answer (.declareQueue 0 { name := "tracking.queue" }) = .error .sessionClosed ∧
      b.answer (.setQos 0 { prefetchCount := 1 }) =
        .error (.declarationFailed "qos" "maintenance") ∧
      b.answer (.setQos 0 { prefetchCount := 1 }) ≠ .error .sessionClosed := by
  refine ⟨⟨_, rfl, rfl, rfl⟩, ?_, ?_, ?_⟩ <;> decide +kernel

/-! ## What was declared first -/

section Established
variable {δ : Type} {look : Broker → Option δ} {declare : Nat → δ → Action} {named : δ → Prop}
  {ends : Action → Prop} {actions : List Action} {x : δ}

/-- What is there was declared when it was not, and has been there since. -/
theorem declared_since (hnone : look {} = none)
    (harise : ∀ b a, look (Broker.act b a) = some x →
      look b = some x ∨ look b = none ∧ named x ∧ ∃ s, a = declare s x)
    (h : look (run {} actions) = some x) :
    named x ∧ ∃ earlier s later, actions = earlier ++ declare s x :: later ∧
      look (run {} earlier) = none ∧
      ∀ mid, mid <+: later → look (run {} (earlier ++ declare s x :: mid)) = some x := by
  induction actions using List.reverseRecOn with
  | nil => cases hnone.symm.trans h
  | append_singleton actions a ih =>
    have hlast := h
    rw [run_append] at hlast
    rcases harise _ a hlast with hold | ⟨hnew, hname, s, rfl⟩
    · obtain ⟨hname, earlier, s, later, rfl, hbefore, hmid⟩ := ih hold
      refine ⟨hname, earlier, s, later ++ [a], by simp, hbefore, fun mid hpre => ?_⟩
      rcases List.prefix_concat_iff.mp hpre with rfl | hpre
      · simpa using h
      · exact hmid mid hpre
    · refine ⟨hname, actions, s, [], rfl, hnew, fun mid hpre => ?_⟩
      rwa [List.prefix_nil.mp hpre]

theorem stays_run (hact : ∀ b a, look b = some x → ¬ends a → look (Broker.act b a) = some x)
    (h : look b = some x) {later : List Action} (hl : ∀ a ∈ later, ¬ends a) :
    look (b.run later) = some x := by
  induction later generalizing b with
  | nil => exact h
  | cons a later ih =>
    obtain ⟨ha, hlater⟩ := List.forall_mem_cons.mp hl
    exact ih (hact b a h ha) hlater

theorem established_of_laws (hnone : look {} = none)
    (harise : ∀ b a, look (Broker.act b a) = some x →
      look b = some x ∨ look b = none ∧ named x ∧ ∃ s, a = declare s x)
    (hact : ∀ b a, look b = some x → ¬ends a → look (Broker.act b a) = some x)
    (hcall : ∀ s y st, declare s y ≠ .poll st)
    (hok : ∀ b s y, look b = some x → named y → (b.answer (declare s y) = .ok () ↔
      b.isOpen s ∧ b.declarationFault = none ∧ y = x))
    (hidle : ∀ b s, look b = some x → named x → b.act (declare s x) = b)
    (h : look (run {} actions) = some x) : Established look declare named ends actions x := by
  obtain ⟨hname, hsince⟩ := declared_since hnone harise h
  refine ⟨hname, hsince, fun later hl => ?_, fun s y hy => hok _ s y h hy, fun s y hy => ?_⟩
  · rw [run_append]
    exact stays_run hact h hl
  · cases hanswer : (run {} actions).answer (declare s y) with
    | error e => exact act_of_error hanswer (hcall s y)
    | ok =>
      obtain ⟨-, -, rfl⟩ := (hok _ s y h hy).mp hanswer
      exact hidle _ s h hname

end Established

theorem declaring_eq_ok_iff {entity : String} {reason? : Option String} {declared : Broker} :
    ((b.declaring entity reason? declared).map fun _ => ()) = .ok () ↔
      b.declarationFault = none ∧ reason? = none := by
  unfold declaring
  cases b.declarationFault <;> cases reason? <;> simp [Except.map]

theorem declareExchange_eq_ok_iff {x y : ExchangeDeclaration}
    (h : b.exchanges.get? y.name = some x) : b.answer (.declareExchange s y) = .ok () ↔
      b.isOpen s ∧ b.declarationFault = none ∧ y = x := by
  simp only [answer, declareExchange, h]
  by_cases hs : b.isOpen s
  · rw [if_pos hs, declaring_eq_ok_iff, eq_comm (a := y)]
    simp [hs]
  · simp [hs, Except.map]

theorem declareQueue_eq_ok_iff {p q : QueueDeclaration} (h : b.queue? q.name = some p) :
    b.answer (.declareQueue s q) = .ok () ↔
      b.isOpen s ∧ b.declarationFault = none ∧ q = p := by
  simp only [answer, declareQueue, h]
  by_cases hs : b.isOpen s
  · rw [if_pos hs, declaring_eq_ok_iff, eq_comm (a := q)]
    simp [hs]
  · simp [hs, Except.map]

theorem exchange_established {actions : List Action} {name : String} {x : ExchangeDeclaration}
    (h : (run {} actions).exchanges.get? name = some x) :
    Established (·.exchanges.get? name) .declareExchange (·.name = name) (fun _ => False)
      actions x := by
  refine established_of_laws rfl (fun b a hx => ?_) (fun b a hx _ => exchange_act hx a) (by simp)
    (fun b s y hx hy => declareExchange_eq_ok_iff (hy ▸ hx))
    (fun b s hx hname => declareExchange_idle (hname ▸ hx) s) h
  rcases b.exchange_cases a name with hsame | ⟨s, y, rfl, hname, hnone, hy⟩
  · exact .inl (hsame.symm.trans hx)
  · obtain rfl : y = x := Option.some.inj (hy.symm.trans hx)
    exact .inr ⟨hnone, hname, s, rfl⟩

theorem queue_established {actions : List Action} {name : String} {q : QueueDeclaration}
    (h : (run {} actions).queue? name = some q) :
    Established (·.queue? name) .declareQueue (·.name = name) (· = .operate (.deleteQueue name))
      actions q := by
  refine established_of_laws rfl (fun b a hq => ?_) (fun b a hq ha => queue?_act hq ha) (by simp)
    (fun b s y hq hy => declareQueue_eq_ok_iff (hy ▸ hq))
    (fun b s hq hname => declareQueue_idle (hname ▸ hq) s) h
  rcases b.queue?_cases a name with hsame | ⟨s, p, rfl, hname, hnone, hp⟩ | ⟨-, hnone⟩
  · exact .inl (hsame.symm.trans hq)
  · obtain rfl : p = q := Option.some.inj (hp.symm.trans hq)
    exact .inr ⟨hnone, hname, s, rfl⟩
  · cases hnone.symm.trans hq

/-- After any run. An action that fails on the way leaves the broker as it was, but for the fault
that a stream yields: what it did before it failed is no more than that. And every exchange there is
is as it was declared first, for good, and every queue until it is deleted. -/
theorem refused_without_trace (actions : List Action) :
    let b := run {} actions
    (∀ a : Action, a.attempt b = (b.answer a, b.act a)) ∧
    (∀ (a : Action) e b', a.attempt b = (.error e, b') →
      { b' with deliveryFaults := b.deliveryFaults } = b ∧ ((∀ st, a ≠ .poll st) → b' = b)) ∧
    (∀ name x, b.exchanges.get? name = some x →
      Established (·.exchanges.get? name) .declareExchange (·.name = name) (fun _ => False)
        actions x) ∧
    ∀ name q, b.queue? name = some q →
      Established (·.queue? name) .declareQueue (·.name = name) (· = .operate (.deleteQueue name))
        actions q := by
  intro b
  refine ⟨b.attempt_eq, fun a e b' h => ?_, fun _ _ => exchange_established,
    fun _ _ => queue_established⟩
  rw [attempt_eq] at h
  obtain ⟨hanswer, rfl⟩ := Prod.mk.inj h
  exact ⟨faults_of_error hanswer, act_of_error hanswer⟩

/-- A queue with a message, that is declared again with other attributes and with the same, and a
stream that yields a fault. -/
theorem refused_without_trace_redeclared :
    let actions : List Action :=
      [.openSession, .declareExchange 0 { name := "x" }, .declareQueue 0 { name := "q" },
        .bindQueue 0 "q" "x" "k", .operate (.inject "x" "k" none []),
        .operate (.failNextDelivery "gone")]
    let b := run {} actions
    let other : QueueDeclaration := { name := "q", exclusive := true }
    (∀ s, b.act (.declareQueue s other) = b ∧ b.act (.declareQueue s { name := "q" }) = b) ∧
      b.answer (.declareQueue 0 { name := "q" }) = .ok () ∧
      b.answer (.declareQueue 0 other) ≠ .ok () ∧
      ∃ b', (Action.poll { session := 0, queue := "q", epoch := 0 }).attempt b =
        (.error (.consumeFailed "gone"), b') ∧ b'.ready "q" = b.ready "q" := by
  intro actions b other
  obtain ⟨-, hfail, -, hqueues⟩ := refused_without_trace actions
  have hq : b.queue? "q" = some { name := "q" } := by decide +kernel
  have hfirst := hqueues "q" _ hq
  refine ⟨fun s => ⟨hfirst.idle s other rfl, hfirst.idle s _ rfl⟩, ?_, ?_, ?_⟩
  · exact (hfirst.again 0 _ rfl).mpr ⟨by decide +kernel, by decide +kernel, rfl⟩
  · exact fun h => absurd ((hfirst.again 0 other rfl).mp h).2.2 (by decide)
  · obtain ⟨b', hb⟩ : ∃ b', (Action.poll { session := 0, queue := "q", epoch := 0 }).attempt b =
        (.error (.consumeFailed "gone"), b') := ⟨_, rfl⟩
    exact ⟨b', hb, congrArg (·.ready "q") (hfail _ _ _ hb).1⟩

end CargoEvents.Broker
