import CargoEvents.Proofs.Broker.Deleting

/-! # What waits and what is handed out

What an action gives back stands in front of what waits, what arrives behind it, and what is
handed out was the first of it (`Sound.numbers_act`). So what waits goes on waiting until it is
handed out.
-/
namespace CargoEvents.Broker

/-- What the action hands out, and over which stream. -/
def yielded (b : Broker) : Action → Option (Stream × Delivery)
  | .poll st => match (b.poll st).1 with
    | .delivery d => some (st, d)
    | _ => none
  | _ => none

def handing (b : Broker) (queue : String) (a : Action) : List Delivery :=
  ((b.yielded a).toList.filter (·.1.queue == queue)).map (·.2)

def handed (b : Broker) (queue : String) : List Action → List Delivery
  | [] => []
  | a :: actions => b.handing queue a ++ (b.act a).handed queue actions

variable {b : Broker} {s t tag n : Nat} {queue : String} {a : Action}

/-! ## What waits -/

theorem arriving_of_returns (ha : a.Returns s tag) : b.arriving queue a = [] := by
  rcases ha with rfl | rfl <;> rfl

theorem ready_settled {how : Resolution} (hn : how ≠ .nack true) :
    (b.act (.resolve t tag how)).ready queue = b.ready queue := by
  generalize hb : b.act (.resolve t tag how) = b'
  have he : Effect b (.resolve t tag how) b' := hb ▸ b.act_effect _
  cases he with
  | refused | settled => rfl
  | returned => exact (hn rfl).elim

theorem Effect.ready_still {b' : Broker} (he : Effect b a b') (queue : String)
    (hp : ∀ t exchange m, a ≠ .publish t exchange m) (hl : ∀ st, a ≠ .poll st)
    (hr : ∀ t tag how, a ≠ .resolve t tag how) (hc : ∀ t, a ≠ .closeSession t)
    (ho : ∀ o, a ≠ .operate o) : b'.ready queue = b.ready queue := by
  cases he with
  | refused | opened | exchangeDeclared | qosSet | bound => rfl
  | queueDeclared _ hq => exact ready_insert hq queue
  | published => exact (hp _ _ _ rfl).elim
  | faulted | handedOut => exact (hl _ rfl).elim
  | settled | returned => exact (hr _ _ _ rfl).elim
  | shut => exact (hc _ rfl).elim
  | operated => exact (ho _ rfl).elim

/-- But for polling, an action puts what it gives back in front of what waits, and what arrives
behind it. -/
theorem Sound.ready_act (h : b.Sound) (kept : a ≠ .operate (.deleteQueue queue))
    (hp : ∀ st, a ≠ .poll st) :
    (b.act a).ready queue = b.restored queue a ++ b.ready queue ++ b.arriving queue a := by
  have hreturned {t : Nat} (tag : Nat) (ha : a.Returns t tag) :
      (b.act a).ready queue = b.restored queue a ++ b.ready queue ++ b.arriving queue a := by
    rw [h.ready_returned ha, arriving_of_returns ha, List.append_nil]
  have harrived (hback : b.returning a = [])
      (hr : (b.act a).ready queue = b.ready queue ++ b.arriving queue a) :
      (b.act a).ready queue = b.restored queue a ++ b.ready queue ++ b.arriving queue a := by
    simp [restored, hback, hr]
  have hstill (hback : b.returning a = []) (hnone : b.arriving queue a = [])
      (hr : (b.act a).ready queue = b.ready queue) :
      (b.act a).ready queue = b.restored queue a ++ b.ready queue ++ b.arriving queue a :=
    harrived hback (by rw [hr, hnone, List.append_nil])
  cases a with
  | poll st => exact (hp st rfl).elim
  | closeSession t => exact hreturned 0 (.inr rfl)
  | resolve t tag how =>
    cases how with
    | ack => exact hstill rfl rfl (ready_settled (by simp))
    | nack requeue =>
      cases requeue with
      | true => exact hreturned tag (.inl rfl)
      | false => exact hstill rfl rfl (ready_settled (by simp))
  | publish t exchange m =>
    refine harrived rfl ?_
    simp only [Broker.act, arriving]
    cases hpub : b.publish t exchange m with
    | error e => exact (List.append_nil _).symm
    | ok b' => exact (h.appended_publish hpub).ready queue
  | operate o =>
    cases o with
    | inject exchange key typeTag body => exact harrived rfl ((h.appended_inject ..).ready queue)
    | deleteQueue name =>
      have hne : queue ≠ name := fun he => kept (he ▸ rfl)
      refine hstill rfl rfl ?_
      simp [Broker.act, Broker.operate, deleteQueue, signal, ready, hne]
    | cancelConsumers | failDeclarations | failPublishes | failNextDelivery =>
      exact hstill rfl rfl rfl
  | openSession | declareExchange | declareQueue | setQos | bindQueue | consume =>
    refine hstill rfl rfl ?_
    exact (b.act_effect _).ready_still queue (by simp) (by simp) (by simp) (by simp) (by simp)

/-! ## What is handed out -/

/-- Polling hands out the head of what waits to a session that may have it, or leaves all queues
and sessions. -/
theorem poll_cases (b : Broker) (st : Stream) :
    (b.yielded (.poll st) = none ∧ (b.act (.poll st)).queues = b.queues ∧
      (b.act (.poll st)).sessions = b.sessions) ∨
    ∃ x copy rest, b.sessions[st.session]? = some x ∧ ¬x.isFull ∧
      b.ready st.queue = copy :: rest ∧
      b.yielded (.poll st) = some (st, copy.delivery (x.lastTag + 1)) ∧
      b.act (.poll st) = b.handOut st.session st.queue (x.lastTag + 1) copy := by
  have hyield := b.poll_yield st
  simp only [yielded, Broker.act]
  generalize b.poll st = polled at hyield ⊢
  cases hyield with
  | waiting | nothing | ended | fault => exact .inl ⟨rfl, rfl, rfl⟩
  | @delivery x copy rest hs _ hx hr => exact .inr ⟨x, copy, rest, hs, hx, hr, rfl, rfl⟩

theorem yielded_eq_some {y : Stream × Delivery} :
    b.yielded a = some y ↔ a = .poll y.1 ∧ (b.poll y.1).1 = .delivery y.2 := by
  constructor
  · intro hy
    cases a with
    | poll st =>
      simp only [yielded] at hy
      split at hy
      · rename_i hd
        obtain rfl := Option.some.inj hy
        exact ⟨rfl, hd⟩
      · cases hy
    | _ => cases hy
  · rintro ⟨rfl, hd⟩
    simp [yielded, hd]

theorem poll_delivery {st : Stream} {d : Delivery} (hd : (b.poll st).1 = .delivery d) :
    ∃ x copy rest, b.sessions[st.session]? = some x ∧ ¬x.isFull ∧
      b.ready st.queue = copy :: rest ∧ d = copy.delivery (x.lastTag + 1) ∧
      b.act (.poll st) = b.handOut st.session st.queue (x.lastTag + 1) copy := by
  have hsome : b.yielded (.poll st) = some (st, d) := yielded_eq_some.mpr ⟨rfl, hd⟩
  rcases b.poll_cases st with ⟨hnone, -⟩ | ⟨x, copy, rest, hs, hfull, hr, hy, hact⟩
  · cases hnone.symm.trans hsome
  · obtain ⟨-, rfl⟩ := Prod.mk.inj (Option.some.inj (hsome.symm.trans hy))
    exact ⟨x, copy, rest, hs, hfull, hr, rfl, hact⟩

/-- One delivery at most is handed out of a queue, by polling: the copy in front, to a session that
may have it. -/
theorem handing_cases (b : Broker) (queue : String) (a : Action) :
    b.handing queue a = [] ∨
      ∃ st x copy rest, a = .poll st ∧ st.queue = queue ∧ b.sessions[st.session]? = some x ∧
        ¬x.isFull ∧ b.ready queue = copy :: rest ∧
        b.yielded a = some (st, copy.delivery (x.lastTag + 1)) ∧
        b.handing queue a = [copy.delivery (x.lastTag + 1)] := by
  cases a with
  | poll st =>
    rcases b.poll_cases st with ⟨hnone, -⟩ | ⟨x, copy, rest, hs, hfull, hr, hy, -⟩
    · exact .inl (by simp [handing, hnone])
    · by_cases hq : st.queue = queue
      · subst hq
        exact .inr ⟨st, x, copy, rest, rfl, rfl, hs, hfull, hr, hy, by simp [handing, hy]⟩
      · exact .inl (by simp [handing, hy, hq])
  | _ => exact .inl rfl

theorem answers_of_handing {d : Delivery} (hd : d ∈ b.handing queue a) :
    b.Answers queue d.arrival := by
  rcases b.handing_cases queue a with hnone | ⟨_, _, copy, _, -, -, -, -, hr, -, hone⟩
  · simp [hnone] at hd
  · rw [hone, List.mem_singleton] at hd
    subst hd
    exact answers_of_ready (hr ▸ List.mem_cons_self)

theorem ready_poll (b : Broker) (st : Stream) (queue : String) :
    (b.handing queue (.poll st)).map (·.arrival) ++
      ((b.act (.poll st)).ready queue).map (·.arrival) = (b.ready queue).map (·.arrival) := by
  rcases b.poll_cases st with ⟨hnone, hqueues, -⟩ | ⟨x, copy, rest, -, -, hr, hy, hact⟩
  · rw [handing, hnone, ready_congr hqueues]
    rfl
  · rw [handing, hy, hact, ready_handOut]
    by_cases hq : st.queue = queue
    · subst hq
      simp [hr, Copy.delivery]
    · simp [hq, Ne.symm hq]

/-- All that an action does to what waits, told by numbers of arrival. -/
theorem Sound.numbers_act (h : b.Sound) (kept : a ≠ .operate (.deleteQueue queue)) :
    (b.handing queue a).map (·.arrival) ++ ((b.act a).ready queue).map (·.arrival) =
      (b.restored queue a ++ b.ready queue ++ b.arriving queue a).map (·.arrival) := by
  by_cases hp : ∃ st, a = .poll st
  · obtain ⟨st, rfl⟩ := hp
    simp [restored, returning, arriving, b.ready_poll st queue]
  · have hnone : b.handing queue a = [] := by
      cases a with
      | poll st => exact (hp ⟨st, rfl⟩).elim
      | _ => rfl
    rw [hnone, h.ready_act kept fun st hst => hp ⟨st, hst⟩]
    rfl

theorem Waits.act (h : b.Waits queue n) (hs : b.Sound)
    (kept : a ≠ .operate (.deleteQueue queue)) :
    (∃ d ∈ b.handing queue a, d.arrival = n) ∨ (b.act a).Waits queue n := by
  have hn : n ∈ (b.restored queue a ++ b.ready queue ++ b.arriving queue a).map (·.arrival) := by
    obtain ⟨c, hc, rfl⟩ := h
    simp only [List.map_append, List.mem_append]
    exact .inl (.inr (List.mem_map_of_mem hc))
  rw [← hs.numbers_act kept, List.mem_append, List.mem_map, List.mem_map] at hn
  exact hn

end CargoEvents.Broker
