import CargoEvents.Proofs.Broker.Custody

/-! # Signals

Consumers that found nothing wait for a signal. Without one no queue gets a copy and no
session loses a delivery, so what a consumer waits for is always signalled.
-/
namespace CargoEvents.Broker

@[simp] theorem giveBackAll_signals (b : Broker) (helds : List Held) :
    (b.giveBackAll helds).signals = b.signals := by
  rw [giveBackAll_eq]

theorem act_signals (b : Broker) (a : Action) : b.signals ≤ (b.act a).signals := by
  generalize hb : b.act a = b'
  have he : Effect b a b' := hb ▸ b.act_effect a
  cases he with
  | refused | opened | exchangeDeclared | queueDeclared | qosSet | bound | faulted | handedOut =>
    exact Nat.le_refl _
  | published | settled | returned => exact Nat.le_succ _
  | shut => simp [signal, Broker.onSession]
  | operated o =>
    cases o with
    | inject | deleteQueue | cancelConsumers | failNextDelivery => exact Nat.le_succ _
    | failDeclarations | failPublishes => exact Nat.le_refl _

/-- Whether a stream has reason to wait: its queue is empty or its session holds something. -/
def Idle (b : Broker) (s : Nat) (queue : String) : Prop :=
  b.ready queue = [] ∨ ∃ x, b.sessions[s]? = some x ∧ x.unacked ≠ []

theorem Idle.of_sessions {b b' : Broker} {s : Nat} {queue : String} (h : b.Idle s queue)
    (hr : b.ready queue = [] → b'.ready queue = []) (hs : b'.sessions = b.sessions) :
    b'.Idle s queue := h.imp hr fun hx => hs ▸ hx

theorem Idle.modify {b b' : Broker} {s t : Nat} {queue : String} {f : Session → Session}
    (h : b.Idle s queue) (hr : b.ready queue = [] → b'.ready queue = [])
    (hs : b'.sessions = b.sessions.modify t f)
    (hf : ∀ x, x.unacked ≠ [] → (f x).unacked ≠ []) : b'.Idle s queue := by
  refine h.imp hr ?_
  rintro ⟨x, hx, hne⟩
  rw [hs, List.getElem?_modify, hx]
  by_cases hts : t = s
  · exact ⟨f x, by simp [hts], hf x hne⟩
  · exact ⟨x, by simp [hts], hne⟩

theorem Idle.act {b : Broker} {s : Nat} {queue : String} (h : b.Idle s queue) (a : Action)
    (quiet : (b.act a).signals = b.signals) : (b.act a).Idle s queue := by
  generalize hb : b.act a = b' at quiet ⊢
  have he : Effect b a b' := hb ▸ b.act_effect a
  cases he with
  | refused => exact h
  | opened =>
    refine h.imp id ?_
    rintro ⟨x, hx, hne⟩
    exact ⟨x, (List.getElem?_append_left (List.getElem?_eq_some_iff.mp hx).1).trans hx, hne⟩
  | exchangeDeclared | bound | faulted => exact h.of_sessions (fun hr => hr) rfl
  | queueDeclared _ hn => exact h.of_sessions (fun hr => (ready_insert hn queue).trans hr) rfl
  | qosSet => exact h.modify (fun hr => hr) rfl fun _ hne => hne
  | handedOut =>
    refine h.modify (fun hr => ?_) rfl fun _ hne => by simp
    simp [hr]
  | published | settled | returned => exact absurd quiet (Nat.succ_ne_self _)
  | shut => simp [signal, Broker.onSession] at quiet
  | operated o =>
    cases o with
    | inject | deleteQueue | cancelConsumers | failNextDelivery =>
      exact absurd quiet (Nat.succ_ne_self _)
    | failDeclarations | failPublishes => exact h.of_sessions (fun hr => hr) rfl

theorem run_signals (b : Broker) (actions : List Action) : b.signals ≤ (b.run actions).signals := by
  induction actions generalizing b with
  | nil => exact Nat.le_refl _
  | cons a actions ih => exact Nat.le_trans (b.act_signals a) (ih _)

theorem Idle.run {b : Broker} {s : Nat} {queue : String} (h : b.Idle s queue)
    (actions : List Action) (quiet : (b.run actions).signals = b.signals) :
    (b.run actions).Idle s queue := by
  induction actions generalizing b with
  | nil => exact h
  | cons a actions ih =>
    have hle := b.act_signals a
    have hrest := (b.act a).run_signals actions
    rw [run_cons] at quiet ⊢
    have hstep : (b.act a).signals = b.signals := by omega
    exact ih (h.act a hstep) (by omega)

theorem Session.ne_nil_of_isFull {x : Session} (h : x.isFull) : x.unacked ≠ [] := by
  intro hn
  simp only [isFull, hn, List.length_nil, Bool.and_eq_true, decide_eq_true_eq] at h
  omega

inductive Yield (b : Broker) (st : Stream) : Polled × Stream × Broker → Prop
  | waiting (hw : st.waitedAt = some b.signals) : Yield b st (.pending, st, b)
  | nothing (hi : b.Idle st.session st.queue) :
      Yield b st (.pending, { st with waitedAt := some b.signals }, b)
  | ended : Yield b st (.ended, { st with waitedAt := none }, b)
  | fault {reason : String} {later : List String} (hf : b.deliveryFaults = reason :: later) :
      Yield b st (.fault (.consumeFailed reason), { st with waitedAt := none },
        { b with deliveryFaults := later })
  | delivery {x : Session} {copy : Copy} {rest : List Copy}
      (hs : b.sessions[st.session]? = some x) (ho : x.isOpen) (hx : ¬x.isFull)
      (hr : b.ready st.queue = copy :: rest) :
      Yield b st (.delivery (copy.delivery (x.lastTag + 1)), { st with waitedAt := none },
        b.handOut st.session st.queue (x.lastTag + 1) copy)

theorem poll_yield (b : Broker) (st : Stream) : Yield b st (b.poll st) := by
  unfold poll
  split
  · rename_i hw
    exact .waiting hw
  · unfold look
    cases hs : b.sessions[st.session]? with
    | none => exact .ended
    | some x =>
      by_cases ho : b.epoch ≠ st.epoch ∨ ¬x.isOpen
      · simpa only [if_pos ho] using .ended
      · have hopen : x.isOpen := by simpa using (not_or.mp ho).2
        simp only [if_neg ho]
        cases hf : b.deliveryFaults with
        | cons reason later => exact .fault hf
        | nil =>
          cases hr : b.ready st.queue with
          | nil => exact .nothing (.inl hr)
          | cons copy rest =>
            by_cases hx : x.isFull
            · simpa only [if_pos hx] using .nothing (.inr ⟨x, hs, x.ne_nil_of_isFull hx⟩)
            · simpa only [if_neg hx] using .delivery hs hopen hx hr

theorem poll_eq_delivery {b : Broker} {st : Stream} {x : Session} {copy : Copy} {rest : List Copy}
    (hw : st.waitedAt ≠ some b.signals) (hs : b.sessions[st.session]? = some x) (ho : x.isOpen)
    (he : b.epoch = st.epoch) (hf : b.deliveryFaults = []) (hx : ¬x.isFull)
    (hr : b.ready st.queue = copy :: rest) :
    b.poll st = (.delivery (copy.delivery (x.lastTag + 1)), { st with waitedAt := none },
      b.handOut st.session st.queue (x.lastTag + 1) copy) := by
  simp [poll, look, hw, hs, ho, he, hf, hx, hr]

end CargoEvents.Broker
