import CargoEvents.Proofs.Broker.Streams

/-! # Ended streams

Polling an ended stream says that it ended and does nothing else, for good. A run in which all
consumers were cancelled goes on like the one in which they were not, with the older streams polled
no more: the newer ones yield the same, and the brokers differ in the cancellation only.
-/
namespace CargoEvents.Broker.Consumers

variable {c c' : Consumers} {steps : List Step} {i n : Nat}

/-! ## One stream -/

theorem yields_ended_iff (hi : i < (run {} steps).streams.length) :
    (run {} steps).yields i = some .ended ↔ EndedIn steps i := by
  obtain ⟨st, hst⟩ := exists_stream hi
  have hfits := (sound_run steps).fits hst
  rw [yields, hst, Option.map_some, Option.some.injEq, hfits.yields_ended, serves_iff hst,
    not_not]

/-- Polling a stream that does not serve leaves all but that stream's own waiting. -/
theorem Sound.step_ended (h : c.Sound) {st : Stream} (hi : c.streams[i]? = some st)
    (hs : ¬c.broker.Serves st) :
    c.step (.poll i) = ⟨c.broker, c.streams.set i { st with waitedAt := none }⟩ := by
  simp only [Consumers.step, hi, (h.fits hi).poll_ended hs]

theorem EndedIn.broker_poll (h : EndedIn steps i) :
    ((run {} steps).step (.poll i)).broker = (run {} steps).broker := by
  obtain ⟨st, hst⟩ := exists_stream h.lt
  rw [(sound_run steps).step_ended hst ((serves_iff hst).not_left.mpr h)]

/-! ## Two runs -/

/-- `c'` is `c` but for a cancellation, which came when `n` streams were open. -/
structure Cancelled (n : Nat) (c c' : Consumers) : Prop where
  broker : c'.broker = c.broker.cancelConsumers
  older : n ≤ c.streams.length
  older' : n ≤ c'.streams.length
  newer : c'.streams.drop n = (c.streams.drop n).map Stream.renewed
  sound : c'.Sound
  ended : ∀ i < n, ∀ st, c'.streams[i]? = some st → ¬c'.broker.Serves st

theorem Sound.cancelled (h : c.Sound) : Cancelled c.streams.length c (c.step .cancel) where
  broker := rfl
  older := Nat.le_refl _
  older' := length_step ..
  newer := by simp [Step.cancel, Consumers.step, opens]
  sound := h.step _
  ended i hi st hst := by
    obtain ⟨old, hold⟩ := exists_stream hi
    obtain ⟨waitedAt, hstep⟩ := streams_step hold .cancel
    obtain rfl := Option.some.inj (hstep.symm.trans hst)
    exact fun hs => ((serves_step (h.fits hold) .cancel).mp hs).2 (.inl rfl)

theorem Cancelled.ended_step (h : Cancelled n c c') (step : Step) :
    ∀ i < n, ∀ st, (c'.step step).streams[i]? = some st → ¬(c'.step step).broker.Serves st := by
  intro i hi st hst
  obtain ⟨old, hold⟩ := exists_stream (Nat.lt_of_lt_of_le hi h.older')
  obtain ⟨waitedAt, hstep⟩ := streams_step hold step
  obtain rfl := Option.some.inj (hstep.symm.trans hst)
  exact fun hs => h.ended i hi old hold ((serves_step (h.sound.fits hold) step).mp hs).1

theorem Cancelled.newer_get (h : Cancelled n c c') (hi : n ≤ i) :
    c'.streams[i]? = c.streams[i]?.map Stream.renewed := by
  have hget := congrArg (·[i - n]?) h.newer
  simpa [Nat.add_sub_cancel' hi] using hget

theorem Cancelled.yields (h : Cancelled n c c') (hi : n ≤ i) : c'.yields i = c.yields i := by
  simp only [Consumers.yields, h.newer_get hi, h.broker, Option.map_map]
  refine congrArg (Option.map · _) (funext fun st => ?_)
  simp only [Function.comp, poll_cancelled]

theorem Cancelled.step_both (h : Cancelled n c c') {step : Step} (hs : step.spares n) :
    Cancelled n (c.step step) (c'.step step) := by
  have hkept : n ≤ (c.step step).streams.length := Nat.le_trans h.older (length_step ..)
  have hkept' : n ≤ (c'.step step).streams.length := Nat.le_trans h.older' (length_step ..)
  cases step with
  | ask a apart =>
    refine ⟨?_, hkept, hkept', ?_, h.sound.step _, h.ended_step _⟩
    · simp only [step, h.broker]
      exact act_cancelled apart
    · simp only [step, h.broker, opens_cancelled, List.drop_append_of_le_length h.older,
        List.drop_append_of_le_length h.older', h.newer, List.map_append]
      cases c.broker.opens a <;> rfl
  | poll i =>
    have hi : n ≤ i := by simpa [Step.spares] using hs
    have hget := h.newer_get hi
    refine ⟨?_, hkept, hkept', ?_, h.sound.step _, h.ended_step _⟩
    · simp only [step, hget]
      cases c.streams[i]? with
      | none => exact h.broker
      | some st => simp only [Option.map_some, h.broker, poll_cancelled]
    · simp only [step, hget]
      cases c.streams[i]? with
      | none => exact h.newer
      | some st =>
        simp only [Option.map_some, h.broker, poll_cancelled, List.drop_set, Nat.not_lt.mpr hi,
          if_false, h.newer, List.map_set]

theorem Cancelled.step_older (h : Cancelled n c c') (hi : i < n) :
    Cancelled n c (c'.step (.poll i)) := by
  obtain ⟨st, hst⟩ := exists_stream (Nat.lt_of_lt_of_le hi h.older')
  have hstep := h.sound.step_ended hst (h.ended i hi st hst)
  refine ⟨?_, h.older, Nat.le_trans h.older' (length_step ..), ?_, h.sound.step _, h.ended_step _⟩
  · rw [hstep, h.broker]
  · rw [hstep, List.drop_set, if_pos hi, h.newer]

theorem Cancelled.run (h : Cancelled n c c') (later : List Step) :
    (c'.items later).filter (fun item => n ≤ item.1) = c.items (later.filter (·.spares n)) ∧
      Cancelled n (c.run (later.filter (·.spares n))) (c'.run later) := by
  induction later generalizing c c' with
  | nil => exact ⟨rfl, h⟩
  | cons step later ih =>
    by_cases hs : step.spares n
    · obtain ⟨hitems, hrun⟩ := ih (h.step_both hs)
      rw [List.filter_cons_of_pos hs]
      refine ⟨?_, hrun⟩
      cases step with
      | ask a apart => exact hitems
      | poll i =>
        have hi : n ≤ i := by simpa [Step.spares] using hs
        rw [items, items, List.filter_append, hitems, h.yields hi]
        cases c.yields i <;> simp [hi]
    · rw [List.filter_cons_of_neg hs]
      cases step with
      | ask a apart => exact (hs rfl).elim
      | poll i =>
        have hi : i < n := by simpa [Step.spares] using hs
        obtain ⟨hitems, hrun⟩ := ih (h.step_older hi)
        refine ⟨?_, hrun⟩
        rw [items, List.filter_append, hitems]
        cases c'.yields i <;> simp [hi]

/-! ## All that holds of ended streams -/

/-- In every run a stream is at its end from the moment on at which all consumers are cancelled or
its session is closed, and not before. Polling it then changes nothing of the broker. Cancelling
moves no message; whatever is done later, the streams that were not open yet yield what they would
have yielded without it, and leave a broker that differs in the cancellation only. -/
theorem ended_streams_take_nothing (steps : List Step) :
    let c := run {} steps
    let newer := fun later : List Step => later.filter (·.spares c.streams.length)
    (∀ i < c.streams.length, c.yields i = some .ended ↔ EndedIn steps i) ∧
    (∀ i, EndedIn steps i → (c.step (.poll i)).broker = c.broker) ∧
    (c.step .cancel).broker =
      { c.broker with epoch := c.broker.epoch + 1, signals := c.broker.signals + 1 } ∧
    ∀ later,
      ((c.step .cancel).items later).filter (fun item => c.streams.length ≤ item.1) =
        c.items (newer later) ∧
      ((c.step .cancel).run later).broker = ((c.run (newer later)).step .cancel).broker := by
  refine ⟨fun i hi => yields_ended_iff hi, fun i hi => hi.broker_poll, rfl, fun later => ?_⟩
  obtain ⟨hitems, hrun⟩ := (sound_run steps).cancelled.run later
  exact ⟨hitems, hrun.broker⟩

/-- Two streams are opened on a queue that holds a message, one before and one after all consumers
are cancelled; the next delivery is to fail. -/
def oneCancelled : List Step :=
  [.ask .openSession, .ask (.declareExchange 0 { name := "x" }),
    .ask (.declareQueue 0 { name := "q" }), .ask (.bindQueue 0 "q" "x" "k"),
    .ask (.operate (.inject "x" "k" none [1])), .ask (.consume 0 "q"),
    .ask (.operate (.failNextDelivery "lost")), .cancel, .ask (.consume 0 "q")]

theorem ended_streams_take_nothing_two :
    let c := run {} oneCancelled
    EndedIn oneCancelled 0 ∧ (c.step (.poll 0)).broker = c.broker ∧ ¬EndedIn oneCancelled 1 ∧
      c.items [.poll 0, .poll 1, .poll 1] =
        [(0, .ended), (1, .fault (.consumeFailed "lost")),
          (1, .delivery (({ arrival := 0, routingKey := "k", typeTag := none, body := [1] } :
            Copy).delivery 1))] := by
  obtain ⟨hended, hpoll, -, -⟩ := ended_streams_take_nothing oneCancelled
  have hfirst : EndedIn oneCancelled 0 := (hended 0 (by decide +kernel)).mp (by decide +kernel)
  refine ⟨hfirst, hpoll 0 hfirst, fun hsecond => ?_, by decide +kernel⟩
  have hfault : (run {} oneCancelled).yields 1 = some (.fault (.consumeFailed "lost")) := by
    decide +kernel
  cases hfault.symm.trans ((hended 1 (by decide +kernel)).mpr hsecond)

end CargoEvents.Broker.Consumers
