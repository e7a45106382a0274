import CargoEvents.Proofs.Broker.Unseen

/-! # Cancelling

To cancel all consumers and then do something is to do it and then cancel them, whatever is asked of
the broker but polling. A stream that is opened after the cancellation yields the same as one that
was opened without it.
-/
namespace CargoEvents.Broker

/-- The stream as it is if all consumers were cancelled once more before it was opened. -/
def Stream.renewed (st : Stream) : Stream :=
  { st with epoch := st.epoch + 1, waitedAt := st.waitedAt.map (· + 1) }

variable {b : Broker}

section Fields
variable (b : Broker)

@[simp] theorem cancelConsumers_queues : b.cancelConsumers.queues = b.queues := rfl

@[simp] theorem cancelConsumers_sessions : b.cancelConsumers.sessions = b.sessions := rfl

@[simp] theorem cancelConsumers_declarationFault :
    b.cancelConsumers.declarationFault = b.declarationFault := rfl

@[simp] theorem cancelConsumers_deliveryFaults :
    b.cancelConsumers.deliveryFaults = b.deliveryFaults := rfl

@[simp] theorem cancelConsumers_isOpen (s : Nat) : b.cancelConsumers.isOpen s = b.isOpen s := rfl

@[simp] theorem cancelConsumers_ready (queue : String) :
    b.cancelConsumers.ready queue = b.ready queue := rfl

end Fields

theorem unseen_cancelConsumers : Unseen cancelConsumers where
  apart _ _ := rfl
  signal _ := rfl
  cancelConsumers _ := rfl
  session _ _ := rfl
  onSession _ _ _ _ := rfl

/-! ## Calls -/

theorem setQos_cancelled (s : Nat) (qos : Qos) :
    b.cancelConsumers.setQos s qos = (b.setQos s qos).map cancelConsumers := by
  rw [setQos, setQos, cancelConsumers_declarationFault, cancelConsumers_isOpen]
  cases b.declarationFault with
  | some reason => rfl
  | none =>
    dsimp only
    split <;> rfl

theorem consume_cancelled (s : Nat) (queue : String) :
    b.cancelConsumers.consume s queue = (b.consume s queue).map Stream.renewed := by
  rw [consume, consume, cancelConsumers_isOpen, cancelConsumers_queues]
  split
  · rfl
  · split <;> rfl

theorem act_cancelled {a : Action} (ha : ∀ st, a ≠ .poll st) :
    b.cancelConsumers.act a = (b.act a).cancelConsumers := by
  by_cases hnew : a = .openSession
  · subst hnew
    rfl
  · by_cases hset : ∃ s qos, a = .setQos s qos
    · obtain ⟨s, qos, rfl⟩ := hset
      exact Unseen.after (setQos_cancelled s qos)
    · exact unseen_cancelConsumers.act ha hnew fun s qos h => hset ⟨s, qos, h⟩

/-! ## Polling -/

theorem look_cancelled (b : Broker) (st : Stream) :
    b.cancelConsumers.look st.renewed = ((b.look st).1, (b.look st).2.cancelConsumers) := by
  have hsession : st.renewed.session = st.session := rfl
  have hqueue : st.renewed.queue = st.queue := rfl
  rw [look, look, cancelConsumers_sessions, cancelConsumers_deliveryFaults, cancelConsumers_ready,
    hsession, hqueue]
  cases b.sessions[st.session]? with
  | none => rfl
  | some x =>
    have hends : (b.cancelConsumers.epoch ≠ st.renewed.epoch ∨ ¬x.isOpen) ↔
        (b.epoch ≠ st.epoch ∨ ¬x.isOpen) := by
      simp [cancelConsumers, signal, Stream.renewed]
    dsimp only
    by_cases hs : b.epoch ≠ st.epoch ∨ ¬x.isOpen
    · rw [if_pos hs, if_pos (hends.mpr hs)]
    · rw [if_neg hs, if_neg (mt hends.mp hs)]
      cases b.deliveryFaults with
      | cons reason later => rfl
      | nil =>
        cases b.ready st.queue with
        | nil => rfl
        | cons copy rest =>
          dsimp only
          split <;> rfl

/-- What a stream yields does not depend on how often consumers were cancelled before. -/
theorem poll_cancelled (b : Broker) (st : Stream) : b.cancelConsumers.poll st.renewed =
    ((b.poll st).1, (b.poll st).2.1.renewed, (b.poll st).2.2.cancelConsumers) := by
  have hwaits : st.renewed.waitedAt = some b.cancelConsumers.signals ↔
      st.waitedAt = some b.signals := by
    obtain ⟨session, queue, epoch, waitedAt⟩ := st
    cases waitedAt <;> simp [cancelConsumers, signal, Stream.renewed]
  rw [poll, poll, look_cancelled]
  by_cases hw : st.waitedAt = some b.signals
  · rw [if_pos hw, if_pos (hwaits.mpr hw)]
  · rw [if_neg hw, if_neg (mt hwaits.mp hw)]
    obtain ⟨polled, c⟩ := b.look st
    cases polled <;> rfl

end CargoEvents.Broker
