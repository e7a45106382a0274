import CargoEvents.Proofs.Bus.Trips

/-! # Buses that share a queue

Each copy of a queue is with one bus at most. It is handed out again only after it came back, and
a handler is invoked at most once each time it is handed out. So if nothing fails and nobody
closes with a delivery in hand, each copy is handled once, by one handler of one bus.
-/
namespace CargoEvents.Network
variable {H : Type} {s t : Network H} {shares : Nat → Bool} {queue : String} {routed : Nat → Prop}
  {bus : Bus H} {i k n : Nat} {es : List (Entry H)}
open Broker (Polled Resolution Stream)

/-- Whether bus `i` takes its deliveries from the queue. -/
def isSharer (s : Network H) (queue : String) (i : Nat) : Bool :=
  s.buses[i]?.any (·.config.topology.queue.name == queue)

def trip (s : Network H) (shares : Nat → Bool) (n : Nat) : Trip := .along shares n s.passages

/-- The times that a handler was invoked on copy `n`. -/
def invocations (s : Network H) (shares : Nat → Bool) (n : Nat) : List (Entry H) :=
  s.passages.filter (Entry.isInvocation shares n)

/-- The buses share the queue, and others do not. -/
def SharedBy (shares : Nat → Bool) (queue : String) (s : Network H) : Prop :=
  ∀ (i : Nat) (bus : Bus H), s.buses[i]? = some bus →
    shares i = (bus.config.topology.queue.name == queue)

/-- What is told of the queue's copies is what the broker has done with them. -/
structure Tracked (shares : Nat → Bool) (queue : String) (routed : Nat → Prop) (s : Network H) :
    Prop where
  inTurn : ∀ n, Trip.HandedInTurn shares n s.passages
  known : ∀ n i tag, (s.trip shares n).place = .held i tag → i < s.buses.length
  held : ∀ n session tag, s.broker.HoldsCopy session tag queue n ↔
    ∃ i bus, s.buses[i]? = some bus ∧ bus.session = session ∧
      (s.trip shares n).place = .held i tag
  accepted : ∀ n, (s.trip shares n).place = .accepted →
    n < s.broker.arrivals ∧ ¬s.broker.Answers queue n
  lasting : ∀ n, routed n → s.broker.Answers queue n ∨ (s.trip shares n).place = .accepted
  invoked : ∀ n, (s.invocations shares n).length ≤ (s.trip shares n).handouts

theorem tracked_empty (shares : Nat → Bool) (queue : String) :
    Tracked shares queue (fun _ => False) ({} : Network H) := by
  refine ⟨fun n before e hp => ?_, nofun, fun n session tag => ?_, nofun, nofun, fun n => ?_⟩
  · simp [passages] at hp
  · simp [Broker.HoldsCopy, Broker.heldBy]
  · simp [invocations, passages]

def Grows (s t : Network H) : Prop :=
  ∀ (i : Nat) (bus : Bus H), s.buses[i]? = some bus →
    ∃ bus', t.buses[i]? = some bus' ∧ bus'.session = bus.session

/-- A step that tells of the copies what it does to them. -/
theorem Tracked.step (h : Tracked shares queue routed s) (hgrows : s.Grows t)
    (hturn : ∀ n, Trip.HandedInTurn shares n t.passages)
    (hknown : ∀ n i tag, (t.trip shares n).place = .held i tag → i < s.buses.length)
    (hheld : ∀ n session tag, t.broker.HoldsCopy session tag queue n ↔
      ∃ i bus, s.buses[i]? = some bus ∧ bus.session = session ∧
        (t.trip shares n).place = .held i tag)
    (haccepted : ∀ n, (t.trip shares n).place = .accepted →
      n < t.broker.arrivals ∧ ¬t.broker.Answers queue n)
    (hlasting : ∀ n, s.broker.Answers queue n ∨ (s.trip shares n).place = .accepted →
      t.broker.Answers queue n ∨ (t.trip shares n).place = .accepted)
    (hinvoked : ∀ n, (t.invocations shares n).length ≤ (t.trip shares n).handouts) :
    Tracked shares queue routed t := by
  refine ⟨hturn, fun n i tag hp => ?_, fun n session tag => ?_, haccepted,
    fun n hn => hlasting n (h.lasting n hn), hinvoked⟩
  · obtain ⟨bus', hb', -⟩ := hgrows i _ (List.getElem?_eq_getElem (hknown n i tag hp))
    exact (List.getElem?_eq_some_iff.mp hb').1
  · rw [hheld]
    constructor
    · rintro ⟨i, bus, hb, rfl, hp⟩
      obtain ⟨bus', hb', hsession⟩ := hgrows i bus hb
      exact ⟨i, bus', hb', hsession, hp⟩
    · rintro ⟨i, bus', hb', rfl, hp⟩
      have hb := List.getElem?_eq_getElem (hknown n i tag hp)
      obtain ⟨bus₁, hb₁, hsession⟩ := hgrows i _ hb
      obtain rfl : bus₁ = bus' := Option.some.inj (hb₁.symm.trans hb')
      exact ⟨i, _, hb, hsession.symm, hp⟩

theorem trip_append (hp : t.passages = s.passages ++ es)
    (hes : ∀ e ∈ es, Trip.Ignores shares n e) : t.trip shares n = s.trip shares n := by
  rw [trip, hp, Trip.along_append_of_ignores hes, trip]

theorem invocations_append (hp : t.passages = s.passages ++ es)
    (hes : ∀ e ∈ es, e.isInvocation shares n = false) :
    t.invocations shares n = s.invocations shares n := by
  have hnone : es.filter (Entry.isInvocation shares n) = [] :=
    List.filter_eq_nil_iff.mpr fun e he => by simp [hes e he]
  rw [invocations, hp, List.filter_append, hnone, List.append_nil, invocations]

theorem Tracked.still (h : Tracked shares queue routed s) (hgrows : s.Grows t)
    (hp : t.passages = s.passages ++ es)
    (hes : ∀ n, ∀ e ∈ es, Trip.Ignores shares n e ∧ e.isInvocation shares n = false)
    (hheld : ∀ n session tag, t.broker.HoldsCopy session tag queue n ↔
      s.broker.HoldsCopy session tag queue n)
    (hanswers : ∀ n, (s.broker.Answers queue n → t.broker.Answers queue n) ∧
      (t.broker.Answers queue n → s.broker.Answers queue n ∨ s.broker.arrivals ≤ n))
    (harrivals : s.broker.arrivals ≤ t.broker.arrivals) : Tracked shares queue routed t := by
  have htrip (n : Nat) : t.trip shares n = s.trip shares n :=
    trip_append hp fun e he => (hes n e he).1
  refine h.step hgrows (fun n => ?_) (fun n i tag => ?_) (fun n session tag => ?_) (fun n ha => ?_)
    (fun n hn => ?_) fun n => ?_
  · rw [hp]
    exact (h.inTurn n).append fun e he => (hes n e he).1
  · rw [htrip]
    exact h.known n i tag
  · rw [hheld, htrip]
    exact h.held n session tag
  · rw [htrip] at ha
    obtain ⟨hlt, hnone⟩ := h.accepted n ha
    refine ⟨Nat.lt_of_lt_of_le hlt harrivals, fun hn => ?_⟩
    rcases (hanswers n).2 hn with hold | hle
    · exact hnone hold
    · exact Nat.not_lt.mpr hle hlt
  · rw [htrip]
    exact hn.imp_left (hanswers n).1
  · rw [htrip, invocations_append hp fun e he => (hes n e he).2]
    exact h.invoked n

theorem trip_called {c : SessionCall} (hp : t.passages = s.passages ++ .called i c none :: es)
    (hes : ∀ e ∈ es, Trip.Ignores shares n e) :
    t.trip shares n = (s.trip shares n).answered i c := by
  have hcalled : t.passages = (s.passages ++ [.called i c none]) ++ es := by simp [hp]
  rw [trip, hcalled, Trip.along_append_of_ignores hes, Trip.along_concat]
  rfl

theorem trip_pulled {d : Broker.Delivery} (hp : t.passages = s.passages ++ .pulled i k d :: es)
    (hes : ∀ e ∈ es, Trip.Ignores shares n e) :
    t.trip shares n = (s.trip shares n).after shares n (.pulled i k d : Entry H) := by
  have hpulled : t.passages = (s.passages ++ [.pulled i k d]) ++ es := by simp [hp]
  rw [trip, hpulled, Trip.along_append_of_ignores hes, Trip.along_concat]
  rfl

theorem Tracked.letGo (h : Tracked shares queue routed s) (hr : Reached s) (hgrows : s.Grows t)
    (hsteady : s.broker.Steady queue) (hb : s.buses[i]? = some bus) {c : SessionCall}
    (hp : t.passages = s.passages ++ .called i c none :: es)
    (hes : ∀ n, ∀ e ∈ es, Trip.Ignores shares n e ∧ e.isInvocation shares n = false)
    (hheld : ∀ n session tag, t.broker.HoldsCopy session tag queue n ↔
      s.broker.HoldsCopy session tag queue n ∧
        ¬(session = bus.session ∧ (c.givesBack tag ∨ c = .ack tag)))
    (hanswers : ∀ n, t.broker.Answers queue n ↔ s.broker.Answers queue n ∧
      ∀ tag, c = .ack tag → ¬s.broker.HoldsCopy bus.session tag queue n)
    (harrivals : s.broker.arrivals ≤ t.broker.arrivals) : Tracked shares queue routed t := by
  have hcalled : t.passages = (s.passages ++ [.called i c none]) ++ es := by simp [hp]
  have htrip (n : Nat) : t.trip shares n = (s.trip shares n).answered i c :=
    trip_called hp fun e he => (hes n e he).1
  have hown {j session : Nat} {b : Bus H} (hbj : s.buses[j]? = some b) (hs : b.session = session) :
      session = bus.session ↔ j = i := by
    constructor
    · intro heq
      by_contra hji
      exact hr.ordered.session_ne hbj hb hji (hs.trans heq)
    · rintro rfl
      rw [← hs, Option.some.inj (hbj.symm.trans hb)]
  have hheldBy (n tag : Nat) :
      s.broker.HoldsCopy bus.session tag queue n ↔ (s.trip shares n).place = .held i tag := by
    rw [h.held]
    constructor
    · rintro ⟨j, b, hbj, hs, hplace⟩
      rwa [(hown hbj hs).mp rfl] at hplace
    · exact fun hplace => ⟨i, bus, hb, rfl, hplace⟩
  refine h.step hgrows (fun n => ?_) (fun n j tag hplace => ?_) (fun n session tag => ?_)
    (fun n ha => ?_) (fun n hn => ?_) fun n => ?_
  · rw [hcalled]
    exact ((h.inTurn n).concat fun hx => by cases hx).append fun e he => (hes n e he).1
  · rw [htrip, Trip.answered_held] at hplace
    exact h.known n j tag hplace.1
  · rw [hheld, h.held, htrip]
    constructor
    · rintro ⟨⟨j, b, hbj, hs, hplace⟩, hstays⟩
      refine ⟨j, b, hbj, hs, Trip.answered_held.mpr ⟨hplace, ?_⟩⟩
      rwa [hown hbj hs] at hstays
    · rintro ⟨j, b, hbj, hs, hplace⟩
      obtain ⟨hplace, hstays⟩ := Trip.answered_held.mp hplace
      rw [hown hbj hs]
      exact ⟨⟨j, b, hbj, hs, hplace⟩, hstays⟩
  · rw [htrip, Trip.answered_accepted] at ha
    rw [hanswers]
    rcases ha with ha | ⟨tag, hplace, hack⟩
    · obtain ⟨hlt, hnone⟩ := h.accepted n ha
      exact ⟨Nat.lt_of_lt_of_le hlt harrivals, fun hn => hnone hn.1⟩
    · have hholds := (hheldBy n tag).mpr hplace
      obtain ⟨copy, hc, rfl⟩ := hholds.answers
      exact ⟨Nat.lt_of_lt_of_le (hsteady.arrived copy hc) harrivals, fun hn => hn.2 tag hack hholds⟩
  · rw [htrip, Trip.answered_accepted, hanswers]
    rcases hn with hn | ha
    · by_cases hgone : ∃ tag, c = .ack tag ∧ s.broker.HoldsCopy bus.session tag queue n
      · obtain ⟨tag, hack, hholds⟩ := hgone
        exact .inr (.inr ⟨tag, (hheldBy n tag).mp hholds, hack⟩)
      · exact .inl ⟨hn, fun tag hack hholds => hgone ⟨tag, hack, hholds⟩⟩
    · exact .inr (.inl ha)
  · rw [htrip, Trip.answered_handouts, invocations_append hp]
    · exact h.invoked n
    · exact List.forall_mem_cons.mpr ⟨rfl, fun e he => (hes n e he).2⟩

theorem entering_ignored {p : Position H} {e : Entry H} (he : e ∈ entering i k p) (n : Nat) :
    Trip.Ignores shares n e := by
  cases p with
  | handling =>
    obtain rfl := List.mem_singleton.mp he
    exact ⟨rfl, fun _ => rfl⟩
  | pulling | acknowledging | pausing | ended => cases he

theorem entering_unshared {p : Position H} {e : Entry H} (he : e ∈ entering i k p)
    (hi : shares i = false) (n : Nat) : e.isInvocation shares n = false := by
  cases p with
  | handling =>
    obtain rfl := List.mem_singleton.mp he
    simp [Entry.isInvocation, hi]
  | pulling | acknowledging | pausing | ended => cases he

theorem received_ignored (registry : Registry H) {polled : Polled} {e : Entry H}
    (he : e ∈ (received registry i k polled).2) (hi : shares i = false) (n : Nat) :
    Trip.Ignores shares n e ∧ e.isInvocation shares n = false := by
  cases polled with
  | pending | ended | fault => cases he
  | delivery d =>
    rcases List.mem_cons.mp he with rfl | he
    · simp [Trip.Ignores, Entry.isHandout, Entry.isInvocation, Trip.after, hi]
    · exact ⟨entering_ignored he n, entering_unshared he hi n⟩

theorem entering_invoked (registry : Registry H) (d : Broker.Delivery) (i k n : Nat) :
    (entering i k (registry.accept d).1).filter (Entry.isInvocation shares n) =
      if shares i && d.arrival == n then entering i k (registry.accept d).1 else [] := by
  cases hp : (registry.accept d).1 with
  | handling d' r e =>
    obtain rfl := (accept_eq_handling hp).1
    by_cases hn : (shares i && d'.arrival == n) = true <;> simp [entering, Entry.isInvocation, hn]
  | pulling | acknowledging | pausing | ended => simp [entering]

theorem entering_length (i k : Nat) (p : Position H) : (entering i k p).length ≤ 1 := by
  cases p <;> simp [entering]

theorem Tracked.handedOut (h : Tracked shares queue routed s) (hgrows : s.Grows t)
    (hsteady : s.broker.Steady queue) (hb : s.buses[i]? = some bus) (hshares : shares i)
    {registry : Registry H} {d : Broker.Delivery} {copy : Broker.Copy}
    (hp : t.passages = s.passages ++ .pulled i k d :: entering i k (registry.accept d).1)
    (hready : copy ∈ s.broker.ready queue) (hd : d.arrival = copy.arrival)
    (hheld : ∀ n session tag, t.broker.HoldsCopy session tag queue n ↔
      s.broker.HoldsCopy session tag queue n ∨
        session = bus.session ∧ tag = d.tag ∧ n = d.arrival)
    (hanswers : ∀ n, t.broker.Answers queue n ↔ s.broker.Answers queue n)
    (harrivals : t.broker.arrivals = s.broker.arrivals) : Tracked shares queue routed t := by
  have hpulled : t.passages =
      (s.passages ++ [.pulled i k d]) ++ entering i k (registry.accept d).1 := by simp [hp]
  have htrip (n : Nat) :
      t.trip shares n = (s.trip shares n).after shares n (.pulled i k d : Entry H) :=
    trip_pulled hp fun e he => entering_ignored he n
  have hother {n : Nat} (hn : n ≠ d.arrival) : t.trip shares n = s.trip shares n := by
    rw [htrip, Trip.after, if_neg (by simp [Ne.symm hn])]
  have hthis : t.trip shares d.arrival =
      { s.trip shares d.arrival with
        place := .held i d.tag, handouts := (s.trip shares d.arrival).handouts + 1 } := by
    rw [htrip, Trip.after, if_pos (by simp [hshares])]
  -- It waited in the queue, so that nobody had it and nobody has accepted it.
  have hwaits : (s.trip shares d.arrival).place = .waiting := by
    refine Trip.waits_of (fun j tag hplace => ?_) fun ha => ?_
    · have hj := h.known _ j tag hplace
      have hholds := (h.held d.arrival _ tag).mpr ⟨j, _, List.getElem?_eq_getElem hj, rfl, hplace⟩
      exact hsteady.not_held hready (hd ▸ hholds)
    · exact (h.accepted _ ha).2 (hd ▸ Broker.answers_of_ready hready)
  refine h.step hgrows (fun n => ?_) (fun n j tag hplace => ?_) (fun n session tag => ?_)
    (fun n ha => ?_) (fun n hn => ?_) fun n => ?_
  · rw [hpulled]
    refine ((h.inTurn n).concat fun hx => ?_).append fun e he => entering_ignored he n
    have hn : d.arrival = n := by simpa [Entry.isHandout, hshares] using hx
    exact hn ▸ hwaits
  · by_cases hn : n = d.arrival
    · rw [hn, hthis] at hplace
      cases hplace
      exact (List.getElem?_eq_some_iff.mp hb).1
    · rw [hother hn] at hplace
      exact h.known n j tag hplace
  · rw [hheld]
    by_cases hn : n = d.arrival
    · subst hn
      have hnone : ¬s.broker.HoldsCopy session tag queue d.arrival :=
        hd ▸ hsteady.not_held hready
      rw [hthis, or_iff_right hnone]
      constructor
      · rintro ⟨rfl, rfl, -⟩
        exact ⟨i, bus, hb, rfl, rfl⟩
      · rintro ⟨j, b, hbj, rfl, hplace⟩
        cases hplace
        rw [Option.some.inj (hbj.symm.trans hb)]
        exact ⟨rfl, rfl, rfl⟩
    · rw [hother hn, or_iff_left fun hnew => hn hnew.2.2]
      exact h.held n session tag
  · by_cases hn : n = d.arrival
    · rw [hn, hthis] at ha
      cases ha
    · rw [hother hn] at ha
      rw [harrivals, hanswers]
      exact h.accepted n ha
  · by_cases hdn : n = d.arrival
    · exact .inl ((hanswers n).mpr (hdn ▸ hd ▸ Broker.answers_of_ready hready))
    · rw [hother hdn, hanswers]
      exact hn
  · have hinvoked := h.invoked n
    have hlength := entering_length i k (registry.accept d).1
    have hcount : (t.invocations shares n).length = (s.invocations shares n).length +
        ((entering i k (registry.accept d).1).filter (Entry.isInvocation shares n)).length := by
      rw [invocations, hp, List.filter_append, List.length_append]
      rfl
    rw [hcount, entering_invoked]
    by_cases hn : n = d.arrival
    · subst hn
      rw [hthis]
      simp only [hshares, beq_self_eq_true, Bool.and_self, if_true]
      omega
    · rw [hother hn, if_neg (by simp [Ne.symm hn])]
      exact hinvoked

/-! ## Runs -/

theorem grows_perform (s : Network H) (a : Act H) : s.Grows (s.perform a) := by
  intro i bus hb
  obtain ⟨bus', hb', helder⟩ := s.elder_perform a hb
  exact ⟨bus', hb', helder.session⟩

theorem act_of_resolve {b b' : Broker} {session tag : Nat} {how : Resolution}
    (h : b.resolve session tag how = .ok b') : b' = b.act (.resolve session tag how) :=
  act_of_ok h

theorem Handover.steady {a : Act H} (h : Handover queue s a t) (hs : s.broker.Steady queue) :
    t.broker.Steady queue := by
  cases h with
  | calm h =>
    obtain ⟨actions, hb, hcalm⟩ := h.broker
    exact hb ▸ (hs.calm_run (n := 0) hcalm).1
  | @looked _ _ _ st _ _ _ _ hy =>
    have hact : t.broker = s.broker.act (.poll st) := (congrArg (·.2.2) hy).symm
    exact hact ▸ hs.act (.poll st) nofun
  | @resolved _ _ bus _ _ d how _ _ _ _ ha =>
    rcases ha with ⟨-, hok⟩ | ⟨-, hb, -⟩
    · exact act_of_resolve hok ▸ hs.act (.resolve bus.session d.tag how) nofun
    · exact hb ▸ hs
  | @closed _ bus _ _ _ hr =>
    rcases hr with ⟨-, hok⟩ | ⟨-, hb, -⟩
    · exact Except.ok.inj hok ▸ hs.act (.closeSession bus.session) nofun
    · exact hb ▸ hs

theorem observed_ignored {os : List Observation} {e : Entry H} (he : e ∈ os.map (.observed i))
    (n : Nat) : Trip.Ignores shares n e ∧ e.isInvocation shares n = false := by
  obtain ⟨o, -, rfl⟩ := List.mem_map.mp he
  exact ⟨⟨rfl, fun _ => rfl⟩, rfl⟩

theorem refused_ignored {c : SessionCall} {refusal : Option BrokerError} (hrefused : refusal ≠ none)
    {os : List Observation} {e : Entry H} (he : e ∈ .called i c refusal :: os.map (.observed i))
    (n : Nat) : Trip.Ignores shares n e ∧ e.isInvocation shares n = false := by
  rcases List.mem_cons.mp he with rfl | he
  · cases refusal with
    | none => exact absurd rfl hrefused
    | some x => exact ⟨⟨rfl, fun _ => rfl⟩, rfl⟩
  · exact observed_ignored he n

theorem Tracked.refused (h : Tracked shares queue routed s) (hgrows : s.Grows t)
    {c : SessionCall} {refusal : Option BrokerError} (hrefused : refusal ≠ none)
    {os : List Observation}
    (hp : t.passages = s.passages ++ .called i c refusal :: os.map (.observed i))
    (hb : t.broker = s.broker) : Tracked shares queue routed t := by
  refine h.still hgrows hp (fun n e he => refused_ignored hrefused he n) (fun _ _ _ => by rw [hb])
    (fun _ => ?_) (Nat.le_of_eq (by rw [hb]))
  rw [hb]
  exact ⟨id, .inl⟩

theorem Tracked.resolved (h : Tracked shares queue routed s) (hgrows : s.Grows t)
    (hr : Reached s) (hsteady : s.broker.Steady queue) (hb : s.buses[i]? = some bus)
    {a : Act H} {p : Position H} {d : Broker.Delivery} {how : Resolution} {os : List Observation}
    (hres : Resolves i k a p d how os) (hok : s.broker.resolve bus.session d.tag how = .ok t.broker)
    (hp : t.passages = s.passages ++
      .called i (.ofResolution d.tag how) none :: os.map (.observed i)) :
    Tracked shares queue routed t := by
  have hact := act_of_resolve hok
  have harrivals : s.broker.arrivals ≤ t.broker.arrivals := hact ▸ s.broker.act_arrivals _
  have hnamed (tag : Nat) : (SessionCall.ofResolution d.tag how).givesBack tag ∨
      SessionCall.ofResolution d.tag how = .ack tag ↔ tag = d.tag := by
    cases hres <;> simp [SessionCall.ofResolution, SessionCall.givesBack, eq_comm (a := tag)]
  refine h.letGo hr hgrows hsteady hb hp (fun n e he => observed_ignored he n)
    (fun n session tag => ?_) (fun n => ?_) harrivals
  · rw [Broker.holdsCopy_resolve how hok, hnamed]
  · cases hres with
    | acknowledges =>
      rw [hsteady.accepted hok]
      simp [SessionCall.ofResolution]
    | givesBack =>
      have hsame := hsteady.answers_iff (n := n) (a := .resolve bus.session d.tag (.nack true))
        nofun (Broker.settling_nack ..) rfl
      rw [hact, hsame]
      simp [SessionCall.ofResolution]

theorem Tracked.closed (h : Tracked shares queue routed s) (hgrows : s.Grows t)
    (hr : Reached s) (hsteady : s.broker.Steady queue) (hb : s.buses[i]? = some bus)
    (hclosed : t.broker = s.broker.closeSession bus.session)
    (hp : t.passages = s.passages ++ [.called i .close none]) :
    Tracked shares queue routed t := by
  have hact : t.broker = s.broker.act (.closeSession bus.session) := hclosed
  have harrivals : s.broker.arrivals ≤ t.broker.arrivals := hact ▸ s.broker.act_arrivals _
  refine h.letGo hr hgrows hsteady hb hp (by simp) (fun n session tag => ?_) (fun n => ?_) harrivals
  · rw [hclosed, Broker.holdsCopy_closeSession hsteady.sound]
    simp [SessionCall.givesBack]
  · rw [hact, hsteady.answers_iff (a := .closeSession bus.session) nofun rfl rfl]
    simp

theorem Tracked.looked (h : Tracked shares queue routed s) (hgrows : s.Grows t) (hr : Reached s)
    (hsteady : s.broker.Steady queue) (hshared : SharedBy shares queue s) {st st' : Stream}
    {polled : Polled} (hd : s.dispatcher? i k = some (bus, { stream := st, position := .pulling }))
    (hy : s.broker.poll st = (polled, st', t.broker))
    (hp : t.passages = s.passages ++ (received bus.registry i k polled).2) :
    Tracked shares queue routed t := by
  have hact : t.broker = s.broker.act (.poll st) := (congrArg (·.2.2) hy).symm
  have harrivals : s.broker.arrivals ≤ t.broker.arrivals := hact ▸ s.broker.act_arrivals _
  have hanswers (n : Nat) : t.broker.Answers queue n ↔ s.broker.Answers queue n := by
    rw [hact, hsteady.answers_iff (a := .poll st) (by simp) rfl rfl]
  have hb := dispatcher?_bus hd
  have hdisp := hr.sound.dispatchers i k bus _ hd
  have hsame (hnone : (received bus.registry i k polled).2 = [])
      (hsessions : t.broker.sessions = s.broker.sessions) : Tracked shares queue routed t := by
    refine h.still hgrows hp (by simp [hnone]) (fun n session tag => ?_)
      (fun n => ⟨(hanswers n).mpr, fun hn => .inl ((hanswers n).mp hn)⟩) harrivals
    rw [Broker.HoldsCopy, Broker.heldBy, hsessions, Broker.HoldsCopy, Broker.heldBy]
  have hyield := hy ▸ s.broker.poll_yield st
  generalize hb' : t.broker = b' at hyield hsame
  cases hyield with
  | waiting | nothing | ended | fault => exact hsame rfl rfl
  | @delivery x copy rest hs _ _ hready =>
    have hheld (n session tag : Nat) : t.broker.HoldsCopy session tag queue n ↔
        s.broker.HoldsCopy session tag queue n ∨ session = st.session ∧ tag = x.lastTag + 1 ∧
          queue = st.queue ∧ n = copy.arrival :=
      hb' ▸ Broker.holdsCopy_handOut hs st.queue copy
    by_cases hi : shares i
    · have hqueue : st.queue = queue := by
        rw [hshared i bus hb, beq_iff_eq] at hi
        exact hdisp.queue.trans hi
      refine h.handedOut hgrows hsteady hb hi hp (hqueue ▸ hready ▸ List.mem_cons_self) rfl
        (fun n session tag => ?_) hanswers ?_
      · rw [hheld, hdisp.session]
        refine or_congr_right ⟨?_, ?_⟩
        · rintro ⟨hs, htag, -, hn⟩
          exact ⟨hs, htag, hn⟩
        · rintro ⟨hs, htag, hn⟩
          exact ⟨hs, htag, hqueue.symm, hn⟩
      · rw [hb']
        rfl
    · -- It came from another queue.
      have hi : shares i = false := Bool.not_eq_true _ ▸ hi
      have hqueue : queue ≠ st.queue := by
        rw [hshared i bus hb, beq_eq_false_iff_ne] at hi
        exact fun hq => hi (hdisp.queue.symm.trans hq.symm)
      refine h.still hgrows hp (fun n e he => received_ignored bus.registry he hi n)
        (fun n session tag => ?_)
        (fun n => ⟨(hanswers n).mpr, fun hn => .inl ((hanswers n).mp hn)⟩) harrivals
      rw [hheld]
      exact or_iff_left fun hnew => hqueue hnew.2.2.1

theorem Tracked.perform (h : Tracked shares queue routed s) (hr : Reached s)
    (hsteady : s.broker.Steady queue) (hshared : SharedBy shares queue s) {a : Act H}
    (ha : a.isShared queue) : Tracked shares queue routed (s.perform a) := by
  have hgrows := s.grows_perform a
  cases s.perform_handover ha with
  | calm hcalm =>
    obtain ⟨actions, hb, hactions⟩ := hcalm.broker
    refine h.still hgrows (hcalm.passages.trans (List.append_nil _).symm) (by simp)
      (fun n session tag => ?_) (fun n => ?_) (hb ▸ s.broker.run_arrivals actions)
    · rw [Broker.HoldsCopy, hb, Broker.run_heldBy hactions, Broker.HoldsCopy]
    · rw [hb]
      exact (hsteady.calm_run hactions).2
  | looked _ hd hy hp => exact h.looked hgrows hr hsteady hshared hd hy hp
  | resolved hd hres hanswered hp =>
    rcases hanswered with ⟨rfl, hok⟩ | ⟨hrefused, hb, -⟩
    · exact h.resolved hgrows hr hsteady (dispatcher?_bus hd) hres hok hp
    · exact h.refused hgrows hrefused hp hb
  | @closed i _ refusal _ hb hanswered hp =>
    rcases hanswered with ⟨rfl, hok⟩ | ⟨hrefused, hsame, -⟩
    · exact h.closed hgrows hr hsteady hb (Except.ok.inj hok).symm hp
    · have hp : (s.perform a).passages =
          s.passages ++ .called i .close refusal :: List.map (.observed i) [] := hp
      exact h.refused hgrows hrefused hp hsame

theorem SharedBy.of_run {acts : List (Act H)} (h : SharedBy shares queue (s.run acts)) :
    SharedBy shares queue s := by
  intro i bus hb
  obtain ⟨bus', hb', helder⟩ := s.elder_run acts hb
  rw [h i bus' hb', helder.config]

theorem Tracked.run (h : Tracked shares queue routed s) (hr : Reached s)
    (hsteady : s.broker.Steady queue) {acts : List (Act H)}
    (apart : ∀ a ∈ acts, a.isShared queue) (hshared : SharedBy shares queue (s.run acts)) :
    (s.run acts).broker.Steady queue ∧ Tracked shares queue routed (s.run acts) := by
  induction acts generalizing s with
  | nil => exact ⟨hsteady, h⟩
  | cons a acts ih =>
    obtain ⟨ha, hacts⟩ := List.forall_mem_cons.mp apart
    have hnow : SharedBy shares queue s := hshared.of_run
    exact ih (h.perform hr hsteady hnow ha) (hr.perform a)
      ((s.perform_handover ha).steady hsteady) hacts hshared

end CargoEvents.Network
