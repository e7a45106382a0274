import CargoEvents.Proofs.Broker.Ended
import CargoEvents.Proofs.Broker.Relimiting

/-! # Setting a limit while streams are open

The limit is the session's, and every poll of one of its streams reads it. So a new limit holds for
the streams that are open no less than for those that are opened later. The run with the new limit
and the run without it go on alike until a stream of the session is polled that has a copy to take
while the session is full under one of the two limits only (`Parting`).
-/
namespace CargoEvents.Broker.Consumers

variable {c : Consumers} {step : Step} {mid later : List Step} {st : Stream}
  {s limit i : Nat}

def limited (c : Consumers) (s limit : Nat) : Consumers :=
  { c with broker := c.broker.setLimit s limit }

/-- What stream `i` yields now hinges on whether session `s` has its own limit or `limit`. -/
def Hinges (c : Consumers) (s limit i : Nat) : Prop :=
  ∃ st, c.streams[i]? = some st ∧ st.session = s ∧ c.broker.Due st ∧
    c.broker.isFull s ≠ (c.broker.setLimit s limit).isFull s

def SetIn (c : Consumers) (s : Nat) (steps : List Step) : Prop :=
  ∃ earlier qos, earlier ++ [.ask (.setQos s qos)] <+: steps ∧
    (c.run earlier).broker.TakesLimit s

/-- `limit` can be set for session `s` now, and no other is set in `mid`. What stream `i` yields
after `mid` hinges on whether it was set. -/
structure Parting (c : Consumers) (s limit : Nat) (mid : List Step) (i : Nat) : Prop where
  takes : c.broker.TakesLimit s
  kept : ¬c.SetIn s mid
  hinges : (c.run mid).Hinges s limit i

/-- Somewhere in these steps the run with `limit` parts from the one without it. -/
def PartsIn (c : Consumers) (s limit : Nat) (steps : List Step) : Prop :=
  ∃ mid i, mid ++ [.poll i] <+: steps ∧ c.Parting s limit mid i

/-! ## One step -/

theorem poll_limited (h : ¬c.Hinges s limit i) (hi : c.streams[i]? = some st) :
    (c.broker.setLimit s limit).poll st = ((c.broker.poll st).1, (c.broker.poll st).2.1,
      (c.broker.poll st).2.2.setLimit s limit) := by
  refine poll_setLimit fun hd => ?_
  by_cases hs : st.session = s
  · by_contra hne
    exact h ⟨st, hi, hs, hd, hs ▸ hne⟩
  · simp [isFull, sessions_setLimit, Ne.symm hs]

theorem yields_limited (h : ¬c.Hinges s limit i) :
    (c.limited s limit).yields i = c.yields i := by
  simp only [yields, limited]
  cases hi : c.streams[i]? with
  | none => rfl
  | some st => rw [Option.map_some, Option.map_some, poll_limited h hi]

theorem step_limited (hs : s < c.broker.sessions.length)
    (hpoll : ∀ i, step = .poll i → ¬c.Hinges s limit i)
    (hset : ∀ qos, step = .ask (.setQos s qos) → ¬c.broker.TakesLimit s) :
    (c.limited s limit).step step = (c.step step).limited s limit := by
  cases step with
  | poll i =>
    simp only [Consumers.step, limited]
    cases hi : c.streams[i]? with
    | none => rfl
    | some st => simp only [poll_limited (hpoll i rfl) hi]
  | ask a apart =>
    have hact : (c.broker.setLimit s limit).act a = (c.broker.act a).setLimit s limit := by
      refine act_setLimit hs apart fun qos ha => hset qos ?_
      subst ha
      rfl
    simp only [Consumers.step, limited, hact, opens_setLimit]

theorem step_set_limited (ht : c.broker.TakesLimit s) (qos : Qos) :
    (c.limited s limit).step (.ask (.setQos s qos)) = c.step (.ask (.setQos s qos)) := by
  simp only [Consumers.step, limited, act_setQos_setLimit ht, opens_setLimit]

theorem step_setQos (c : Consumers) (s : Nat) (qos : Qos) : c.step (.ask (.setQos s qos)) =
    if c.broker.TakesLimit s then c.limited s qos.prefetchCount.toNat else c := by
  simp only [Consumers.step, act_setQos, opens, Option.toList_none, List.append_nil, limited]
  split <;> rfl

/-- Where it hinges on the limit, the stream takes the copy in front under one of the limits and
waits under the other. -/
theorem Hinges.yields (h : c.Hinges s limit i) : ∃ st copy rest, c.streams[i]? = some st ∧
    st.session = s ∧ c.broker.ready st.queue = copy :: rest ∧
    let taken := Polled.delivery (copy.delivery (c.broker.lastTag s + 1))
    c.yields i = some (if c.broker.isFull s then .pending else taken) ∧
    (c.limited s limit).yields i = some (if c.broker.isFull s then taken else .pending) := by
  obtain ⟨st, hi, rfl, hd, hne⟩ := h
  obtain ⟨copy, rest, hr, hpoll⟩ := hd.poll
  obtain ⟨copy', rest', hr', hpoll'⟩ := (hd.setLimit st.session limit).poll
  obtain ⟨rfl, rfl⟩ := List.cons.inj (hr.symm.trans hr')
  refine ⟨st, copy, rest, hi, rfl, hr, ?_, ?_⟩
  · rw [Consumers.yields, hi, Option.map_some, hpoll]
    split <;> rfl
  · rw [Consumers.yields, limited, hi, Option.map_some, hpoll', lastTag_setLimit,
      Bool.eq_not.mpr hne.symm]
    cases c.broker.isFull st.session <;> rfl

/-! ## Two runs -/

theorem not_setIn_nil (c : Consumers) (s : Nat) : ¬c.SetIn s [] := by
  rintro ⟨earlier, qos, hpre, -⟩
  simp at hpre

theorem not_partsIn_nil (c : Consumers) (s limit : Nat) : ¬c.PartsIn s limit [] := by
  rintro ⟨mid, i, hpre, -⟩
  simp at hpre

theorem setIn_concat : c.SetIn s (mid ++ [step]) ↔ c.SetIn s mid ∨
    (∃ qos, step = .ask (.setQos s qos)) ∧ (c.run mid).broker.TakesLimit s := by
  constructor
  · rintro ⟨earlier, qos, hpre, ht⟩
    rcases List.prefix_concat_iff.mp hpre with hlast | hpre
    · obtain ⟨rfl, hx⟩ := List.append_inj' hlast rfl
      exact .inr ⟨⟨qos, (List.singleton_inj.mp hx).symm⟩, ht⟩
    · exact .inl ⟨earlier, qos, hpre, ht⟩
  · rintro (⟨earlier, qos, hpre, ht⟩ | ⟨⟨qos, rfl⟩, ht⟩)
    · exact ⟨earlier, qos, hpre.trans (List.prefix_append ..), ht⟩
    · exact ⟨mid, qos, List.prefix_refl _, ht⟩

theorem PartsIn.mono (h : c.PartsIn s limit mid) (hpre : mid <+: later) :
    c.PartsIn s limit later := by
  obtain ⟨earlier, i, hmid, hp⟩ := h
  exact ⟨earlier, i, hmid.trans hpre, hp⟩

/-- Until the runs part they yield the same, and all that differs is the limit, if no other was set
for the session. -/
theorem run_limited (ht : c.broker.TakesLimit s) (h : ¬c.PartsIn s limit later) :
    (c.limited s limit).items later = c.items later ∧
      (c.SetIn s later → (c.limited s limit).run later = c.run later) ∧
      (¬c.SetIn s later → (c.limited s limit).run later = (c.run later).limited s limit) := by
  -- What was set and where the runs part is told by prefixes, so the last step is taken off.
  induction later using List.reverseRecOn with
  | nil => exact ⟨rfl, fun hset => (not_setIn_nil c s hset).elim, fun _ => rfl⟩
  | append_singleton mid step ih =>
    obtain ⟨hitems, hset, hkept⟩ := ih fun hmid => h (hmid.mono (List.prefix_append ..))
    rw [items_append, items_append, hitems, run_append, run_append, setIn_concat]
    by_cases hbefore : c.SetIn s mid
    · -- The other limit has made the runs one.
      rw [hset hbefore]
      exact ⟨rfl, fun _ => rfl, fun hnot => (hnot (.inl hbefore)).elim⟩
    · rw [hkept hbefore]
      have hsame : ∀ i, step = .poll i → ¬(c.run mid).Hinges s limit i := by
        rintro i rfl hh
        exact h ⟨mid, i, List.prefix_refl _, ht, hbefore, hh⟩
      refine ⟨?_, ?_, fun hnot => ?_⟩
      · cases step with
        | poll i => simp only [items, yields_limited (hsame i rfl)]
        | ask a apart => rfl
      · rintro (hset | ⟨⟨qos, rfl⟩, ht⟩)
        · exact (hbefore hset).elim
        · exact step_set_limited ht qos
      · exact step_limited (Nat.lt_of_lt_of_le ht.lt (c.sessions_run mid)) hsame
          fun qos hask ht => hnot (.inr ⟨⟨qos, hask⟩, ht⟩)

theorem PartsIn.first {later : List Step} (h : c.PartsIn s limit later) :
    ∃ mid i, mid ++ [.poll i] <+: later ∧ c.Parting s limit mid i ∧ ¬c.PartsIn s limit mid := by
  obtain ⟨mid, i, hpre, hp⟩ := h
  by_cases hbefore : c.PartsIn s limit mid
  · obtain ⟨earlier, j, hmid, hfirst⟩ := PartsIn.first hbefore
    exact ⟨earlier, j, hmid.trans ((List.prefix_append ..).trans hpre), hfirst⟩
  · exact ⟨mid, i, hpre, hp, hbefore⟩
termination_by later.length
decreasing_by
  have hlt := hpre.length_le
  rw [List.length_append, List.length_singleton] at hlt
  exact hlt

/-- Where the runs part for the first time, the session is full in one of them. The stream waits
there and takes the copy in front in the other. -/
theorem Parting.yields (hp : c.Parting s limit mid i) (h : ¬c.PartsIn s limit mid) :
    ∃ st copy rest, (c.run mid).streams[i]? = some st ∧ st.session = s ∧
      (c.run mid).broker.ready st.queue = copy :: rest ∧
      let full := (c.run mid).broker.isFull s
      let taken := Polled.delivery (copy.delivery ((c.run mid).broker.lastTag s + 1))
      (c.run mid).yields i = some (if full then .pending else taken) ∧
      ((c.limited s limit).run mid).yields i = some (if full then taken else .pending) := by
  rw [(run_limited hp.takes h).2.2 hp.kept]
  exact hp.hinges.yields

theorem Parting.answers_ne (hp : c.Parting s limit mid i) (h : ¬c.PartsIn s limit mid)
    (hpre : mid ++ [.poll i] <+: later) :
    (c.limited s limit).answers i later ≠ c.answers i later := by
  obtain ⟨rest, rfl⟩ := hpre
  obtain ⟨st, copy, waiting, -, -, -, hyield, hyield'⟩ := hp.yields h
  intro heq
  rw [List.append_assoc, List.singleton_append, answers_append, answers_append, answers_poll,
    answers_poll, answers, (run_limited hp.takes h).1, ← answers, hyield, hyield'] at heq
  have hsame := (List.cons.inj (List.append_cancel_left heq)).1
  cases hfull : (c.run mid).broker.isFull s <;> simp [hfull] at hsame

theorem items_limited_iff (ht : c.broker.TakesLimit s) :
    (c.limited s limit).items later = c.items later ↔ ¬c.PartsIn s limit later := by
  refine ⟨fun heq hparts => ?_, fun h => (run_limited ht h).1⟩
  obtain ⟨mid, i, hpre, hp, hfirst⟩ := hparts.first
  exact hp.answers_ne hfirst hpre (by rw [answers, heq, ← answers])

/-! ## Streams that are open -/

/-- The streams of the session that are open show whether the runs part, if no other is opened. -/
theorem answers_limited_iff (ht : c.broker.TakesLimit s)
    (h : ∀ t queue, .ask (.consume t queue) ∉ later) :
    (∀ i st, c.streams[i]? = some st → st.session = s →
      (c.limited s limit).answers i later = c.answers i later) ↔ ¬c.PartsIn s limit later := by
  constructor
  · intro hsame hparts
    obtain ⟨mid, i, hpre, hp, hfirst⟩ := hparts.first
    obtain ⟨st, copy, rest, hi, hs, -⟩ := hp.yields hfirst
    have hmid : (c.run mid).streams.length = c.streams.length :=
      length_run_of_no_consume fun t queue hm =>
        h t queue (((List.prefix_append ..).trans hpre).mem hm)
    obtain ⟨old, hold⟩ := exists_stream (hmid ▸ (List.getElem?_eq_some_iff.mp hi).1)
    obtain ⟨waitedAt, hlater⟩ := streams_run hold mid
    obtain rfl := Option.some.inj (hlater.symm.trans hi)
    exact hp.answers_ne hfirst hpre (hsame i old hold hs)
  · intro hparts i st _ _
    rw [answers, (items_limited_iff ht).mpr hparts, ← answers]

theorem consume_then_setQos (c : Consumers) (s : Nat) (queue : String) (qos : Qos) :
    (c.step (.ask (.consume s queue))).step (.ask (.setQos s qos)) =
      (c.step (.ask (.setQos s qos))).step (.ask (.consume s queue)) := by
  have hconsume (c : Consumers) : c.step (.ask (.consume s queue)) =
      { c with streams := c.streams ++ (c.broker.opens (.consume s queue)).toList } := by
    simp only [Consumers.step, act_consume]
  rw [hconsume, hconsume, step_setQos, step_setQos]
  split
  · simp only [limited, opens_setLimit]
  · rfl

/-- Let session `s` ask for another limit, in any run. Whether it does so before it opens a stream
or after makes no difference. Whatever is done later, all streams yield what they would have yielded
without the new limit if and only if no stream of the session is ever polled that has a copy to take
while the session is full under the new limit and not under the old one, or the other way round; if
no other stream is opened, the streams of the session that are open tell this by themselves. The
first such poll hands out the copy in front in one of the two runs, and nothing in the other. -/
theorem open_streams_under_new_limit (steps : List Step) (s : Nat) (qos : Qos) :
    let c := run {} steps
    let set := Step.ask (.setQos s qos)
    let limit := qos.prefetchCount.toNat
    (∀ queue, (c.step (.ask (.consume s queue))).step set =
      (c.step set).step (.ask (.consume s queue))) ∧
    (∀ later, (c.step set).items later = c.items later ↔ ¬c.PartsIn s limit later) ∧
    (∀ later, (∀ t queue, .ask (.consume t queue) ∉ later) →
      ((∀ i st, c.streams[i]? = some st → st.session = s →
        (c.step set).answers i later = c.answers i later) ↔ ¬c.PartsIn s limit later)) ∧
    ∀ mid i, c.Parting s limit mid i → ¬c.PartsIn s limit mid →
      ∃ st copy rest, (c.run mid).streams[i]? = some st ∧ st.session = s ∧
        (c.run mid).broker.ready st.queue = copy :: rest ∧
        let full := (c.run mid).broker.isFull s
        let taken := Polled.delivery (copy.delivery ((c.run mid).broker.lastTag s + 1))
        (c.run mid).yields i = some (if full then .pending else taken) ∧
        ((c.step set).run mid).yields i = some (if full then taken else .pending) := by
  intro c set limit
  refine ⟨fun queue => c.consume_then_setQos s queue qos, ?_⟩
  by_cases ht : c.broker.TakesLimit s
  · have hset : c.step set = c.limited s limit := (c.step_setQos s qos).trans (if_pos ht)
    rw [hset]
    exact ⟨fun later => items_limited_iff ht, fun later => answers_limited_iff ht,
      fun mid i hp => hp.yields⟩
  · have hset : c.step set = c := (c.step_setQos s qos).trans (if_neg ht)
    have hnot (later : List Step) : ¬c.PartsIn s limit later :=
      fun ⟨_, _, _, hp⟩ => ht hp.takes
    rw [hset]
    exact ⟨fun later => iff_of_true rfl (hnot later),
      fun later _ => iff_of_true (fun _ _ _ _ => rfl) (hnot later),
      fun mid i hp => (ht hp.takes).elim⟩

/-- Two messages wait in a queue that a stream of session 0 is opened on. -/
def twoWaiting : List Step :=
  oneCancelled.take 6 ++ [.ask (.operate (.inject "x" "k" none [2]))]

def oneHeld : List Step := twoWaiting ++ [.ask (.setQos 0 { prefetchCount := 1 }), .poll 0]

def waitingDelivery (n : Nat) : Polled := .delivery
  (Copy.delivery { arrival := n, routingKey := "k", typeTag := none, body := [.ofNat (n + 1)] }
    (n + 1))

theorem open_streams_under_new_limit_raised :
    let c := run {} oneHeld
    let raised := c.step (.ask (.setQos 0 { prefetchCount := 2 }))
    let later : List Step := [.ask (.resolve 0 1 .ack), .poll 0]
    c.Parting 0 2 [] 0 ∧ c.yields 0 = some .pending ∧ raised.yields 0 = some (waitingDelivery 1) ∧
      ¬c.PartsIn 0 2 later ∧
      ∀ i st, c.streams[i]? = some st → st.session = 0 →
        raised.answers i later = c.answers i later := by
  intro c raised later
  obtain ⟨-, hitems, hanswers, hparting⟩ :=
    open_streams_under_new_limit oneHeld 0 { prefetchCount := 2 }
  have hstream : c.streams[0]? = some { session := 0, queue := "q", epoch := 0 } := by
    decide +kernel
  have hparts : c.Parting 0 2 [] 0 :=
    ⟨by decide +kernel, not_setIn_nil c 0, _, hstream, rfl, by decide +kernel, by decide +kernel⟩
  obtain ⟨st, copy, rest, hi, -, hr, hyield, hyield'⟩ :=
    hparting [] 0 hparts (not_partsIn_nil c 0 2)
  have hfull : (c.run []).broker.isFull 0 := by decide +kernel
  rw [if_pos hfull] at hyield hyield'
  have htaken : Polled.delivery (copy.delivery ((c.run []).broker.lastTag 0 + 1)) =
      waitingDelivery 1 := by
    have hwaits : (c.run []).broker.ready "q" =
        [{ arrival := 1, routingKey := "k", typeTag := none, body := [2] }] := by
      decide +kernel
    obtain rfl := Option.some.inj (hstream.symm.trans hi)
    obtain ⟨rfl, -⟩ := List.cons.inj (hwaits.symm.trans hr)
    decide +kernel
  have hsame : ¬c.PartsIn 0 2 later := (hitems later).mp (by decide +kernel)
  refine ⟨hparts, hyield, hyield'.trans (congrArg some htaken), hsame, ?_⟩
  exact (hanswers later fun t queue hm => by simp [later] at hm).mpr hsame

/-- A stream that is open would get both messages. It gets one only if a limit of one is set. -/
theorem new_limit_stops_open_stream :
    let c := run {} twoWaiting
    let limited := c.step (.ask (.setQos 0 { prefetchCount := 1 }))
    c.streams = [{ session := 0, queue := "q", epoch := 0 }] ∧
      c.answers 0 [.poll 0, .poll 0] = [waitingDelivery 0, waitingDelivery 1] ∧
      limited.answers 0 [.poll 0, .poll 0] = [waitingDelivery 0, .pending] := by
  refine ⟨?_, ?_, ?_⟩ <;> decide +kernel

end CargoEvents.Broker.Consumers
