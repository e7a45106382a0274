import CargoEvents.Proofs.Bus.Sharing

/-! # Splitting the work

Buses that share a queue split its copies: nobody gets one that another bus still has. While
nothing goes wrong with the copies (`Act.isSmooth`), none comes back, so that each is handled once
by the time the queue is empty.
-/
namespace CargoEvents
variable {H : Type}

/-- The bus has a handler for each copy that waits in its queue, and the body decodes. -/
def Bus.serves (bus : Bus H) (b : Broker) : Bool :=
  (b.ready bus.config.topology.queue.name).all fun copy =>
    let d := copy.delivery 0
    (bus.registry.get? d.kind).any fun r => (r.decode d.body).isOk

namespace Network
variable {s t : Network H} {shares : Nat → Bool} {queue : String} {routed : Nat → Prop}
  {bus : Bus H} {i k n : Nat} {es : List (Entry H)}
open Broker (Polled Resolution Stream)

/-- Nothing goes wrong with a copy of the queue: who looks for one has handlers for all that wait,
handlers succeed, and who closes has nothing in hand. -/
def Act.isSmooth (queue : String) (s : Network H) : Act H → Bool
  | .pull i _ => !s.isSharer queue i || s.buses[i]?.all (·.serves s.broker)
  | .complete i _ result => !s.isSharer queue i || result.isOk
  | .panic i _ => !s.isSharer queue i
  | .beginClose i => !s.isSharer queue i ||
      s.buses[i]?.all fun bus => (s.broker.heldBy bus.session).isEmpty
  | _ => true

theorem SharedBy.isSharer (h : SharedBy shares queue s) (hb : s.buses[i]? = some bus) :
    s.isSharer queue i = shares i := by
  rw [h i bus hb, Network.isSharer, hb, Option.any_some]

theorem accept_of_serves {b : Broker} {copy : Broker.Copy} (h : bus.serves b)
    (hc : copy ∈ b.ready bus.config.topology.queue.name) (tag : Nat) :
    ∃ r e, bus.registry.accept (copy.delivery tag) = (.handling (copy.delivery tag) r e, []) := by
  have hserved := List.all_eq_true.mp h copy hc
  cases hget : bus.registry.get? (copy.delivery tag).kind with
  | none =>
    have hget : bus.registry.get? (copy.delivery 0).kind = none := hget
    simp [hget] at hserved
  | some r =>
    cases hd : r.decode (copy.delivery tag).body with
    | error x =>
      have hget : bus.registry.get? (copy.delivery 0).kind = some r := hget
      have hd : r.decode (copy.delivery 0).body = .error x := hd
      simp [hget, hd, Except.isOk, Except.toBool] at hserved
    | ok e => exact ⟨r, e, by simp only [Registry.accept, hget, hd]⟩

/-- Copy `n` has not come back, and was handled whenever it was handed out. -/
def Once (shares : Nat → Bool) (s : Network H) (n : Nat) : Prop :=
  (s.trip shares n).comebacks = 0 ∧
    (s.invocations shares n).length = (s.trip shares n).handouts

/-- No copy has come back, and no bus is about to give one back. -/
structure Flawless (shares : Nat → Bool) (s : Network H) : Prop where
  patient : ∀ i k d v, shares i → s.position? i k ≠ some (.pausing d v)
  once : ∀ n, s.Once shares n

theorem flawless_empty (shares : Nat → Bool) : Flawless shares ({} : Network H) :=
  ⟨by simp [position?_eq], fun _ => ⟨rfl, rfl⟩⟩

theorem Once.still (h : s.Once shares n) (hp : t.passages = s.passages ++ es)
    (hes : ∀ e ∈ es, Trip.Ignores shares n e ∧ e.isInvocation shares n = false) :
    t.Once shares n := by
  rw [Once, trip_append hp fun e he => (hes e he).1, invocations_append hp fun e he => (hes e he).2]
  exact h

theorem Once.letGo (h : s.Once shares n) {c : SessionCall}
    (hp : t.passages = s.passages ++ .called i c none :: es)
    (hes : ∀ e ∈ es, Trip.Ignores shares n e ∧ e.isInvocation shares n = false)
    (hc : ∀ tag, (s.trip shares n).place = .held i tag → ¬c.givesBack tag) :
    t.Once shares n := by
  have hnone : ∀ e ∈ .called i c none :: es, e.isInvocation shares n = false :=
    List.forall_mem_cons.mpr ⟨rfl, fun e he => (hes e he).2⟩
  rw [Once, trip_called hp fun e he => (hes e he).1, invocations_append hp hnone,
    Trip.answered_comebacks hc, Trip.answered_handouts]
  exact h

theorem Once.handled (h : s.Once shares n) {d : Broker.Delivery} {r : Registration H} {e : Event}
    (hp : t.passages = s.passages ++ [.pulled i k d, .entered i k d r e]) :
    t.Once shares n := by
  have hes : ∀ x ∈ [(.entered i k d r e : Entry H)], Trip.Ignores shares n x :=
    List.forall_mem_singleton.mpr ⟨rfl, fun _ => rfl⟩
  obtain ⟨hcomebacks, hinvoked⟩ := h
  rw [Once, trip_pulled hp hes, invocations, hp, List.filter_append, List.length_append]
  rw [invocations] at hinvoked
  by_cases hx : (shares i && d.arrival == n) = true <;>
    simp [Trip.after, Entry.isInvocation, hx, hcomebacks, hinvoked]

theorem received_smooth (hr : Reached s) (hshared : SharedBy shares queue s) {st st' : Stream}
    {polled : Polled} {b : Broker}
    (hd : s.dispatcher? i k = some (bus, { stream := st, position := .pulling }))
    (hy : s.broker.poll st = (polled, st', b)) (smooth : Act.isSmooth queue s (.pull i k))
    (hi : shares i) :
    (received bus.registry i k polled).2 = [] ∧
        (∀ d v, (received bus.registry i k polled).1 ≠ .pausing d v) ∨
      ∃ d r e, received bus.registry i k polled =
        (.handling d r e, [.pulled i k d, .entered i k d r e]) := by
  have hb := dispatcher?_bus hd
  have hserves : bus.serves s.broker := by
    simpa [Act.isSmooth, hshared.isSharer hb, hi, hb] using smooth
  have hyield := hy ▸ s.broker.poll_yield st
  cases hyield with
  | waiting | nothing | ended | fault => exact .inl ⟨rfl, nofun⟩
  | @delivery x copy rest _ _ _ hready =>
    have hqueue : st.queue = bus.config.topology.queue.name :=
      (hr.sound.dispatchers i k bus _ hd).queue
    have hc : copy ∈ s.broker.ready bus.config.topology.queue.name :=
      hqueue ▸ hready ▸ List.mem_cons_self
    obtain ⟨r, e, haccept⟩ := accept_of_serves hserves hc (x.lastTag + 1)
    exact .inr ⟨copy.delivery (x.lastTag + 1), r, e, by simp [received, haccept, entering]⟩

/-- No bus that shares the queue gets to give a delivery back. -/
theorem Flawless.patient_perform (h : Flawless shares s) (hr : Reached s)
    (hshared : SharedBy shares queue s) {a : Act H} (smooth : a.isSmooth queue s)
    (hi : shares i) (d : Broker.Delivery) (v : Verdict) :
    (s.perform a).position? i k ≠ some (.pausing d v) := by
  cases s.perform_shift a with
  | still _ hp _ =>
    rw [hp]
    exact h.patient i k d v hi
  | started _ _ hp _ =>
    rw [hp]
    split
    · nofun
    · exact h.patient i k d v hi
  | @moved j l bus st st' p p' b' es hd hm _ hp _ =>
    rw [hp]
    split
    · rename_i hij
      obtain ⟨rfl, rfl⟩ := hij
      cases hm with
      | stopped | panicked | acknowledged | unacknowledged | resumed | unresumed => nofun
      | completed d' r e result =>
        have hok : result.isOk := by
          simpa [Act.isSmooth, hshared.isSharer (dispatcher?_bus hd), hi] using smooth
        cases result with
        | ok => nofun
        | error x => cases hok
      | looked _ hy =>
        rcases received_smooth hr hshared hd hy smooth hi with hnone | ⟨d', r, e, hhandles⟩
        · exact fun hpausing => hnone.2 d v (Option.some.inj hpausing)
        · rw [hhandles]
          nofun
    · exact h.patient i k d v hi

theorem Flawless.once_perform (h : Flawless shares s) (htracked : Tracked shares queue routed s)
    (hr : Reached s) (hshared : SharedBy shares queue s) {a : Act H} (ha : a.isShared queue)
    (smooth : a.isSmooth queue s) (n : Nat) : (s.perform a).Once shares n := by
  have honce := h.once n
  cases s.perform_handover ha with
  | calm hcalm => exact honce.still (hcalm.passages.trans (List.append_nil _).symm) (by simp)
  | @looked i k bus st st' polled ha hd hy hp =>
    by_cases hi : shares i
    · rcases received_smooth hr hshared hd hy (ha ▸ smooth) hi with hnone | ⟨d, r, e, hhandles⟩
      · exact honce.still hp (by simp [hnone.1])
      · rw [hhandles] at hp
        exact honce.handled hp
    · exact honce.still hp fun e he => received_ignored bus.registry he (Bool.not_eq_true _ ▸ hi) n
  | @resolved i k bus st p d how os refusal hd hres hanswered hp =>
    rcases hanswered with ⟨rfl, -⟩ | ⟨hrefused, -⟩
    · refine honce.letGo hp (fun e he => observed_ignored he n) fun tag hplace => ?_
      cases hres with
      | acknowledges => nofun
      | givesBack _ v =>
        exact absurd (position?_of_dispatcher hd) (h.patient i k d v (Trip.shares_of_held hplace))
    · exact honce.still hp fun e he => refused_ignored hrefused he n
  | @closed i bus refusal ha hb hanswered hp =>
    have hp : (s.perform a).passages =
        s.passages ++ .called i .close refusal :: List.map (.observed i) [] := hp
    rcases hanswered with ⟨rfl, -⟩ | ⟨hrefused, -⟩
    · refine honce.letGo hp (fun e he => observed_ignored he n) fun tag hplace => ?_
      -- The bus has the copy, though it has nothing in hand.
      have hempty : s.broker.heldBy bus.session = [] := by
        have hi := Trip.shares_of_held hplace
        simpa [ha, Act.isSmooth, hshared.isSharer hb, hi, hb] using smooth
      obtain ⟨held, hm, -⟩ := (htracked.held n bus.session tag).mpr ⟨i, bus, hb, rfl, hplace⟩
      rw [hempty] at hm
      cases hm
    · exact honce.still hp fun e he => refused_ignored hrefused he n

theorem Flawless.run (h : Flawless shares s) (htracked : Tracked shares queue routed s)
    (hr : Reached s) (hsteady : s.broker.Steady queue) {acts : List (Act H)}
    (apart : ∀ a ∈ acts, a.isShared queue) (hshared : SharedBy shares queue (s.run acts))
    (smooth : throughout (Act.isSmooth queue) s acts) : Flawless shares (s.run acts) := by
  induction acts generalizing s with
  | nil => exact h
  | cons a acts ih =>
    obtain ⟨ha, hacts⟩ := List.forall_mem_cons.mp apart
    obtain ⟨hsmooth, hlater⟩ := Bool.and_eq_true_iff.mp smooth
    have hnow : SharedBy shares queue s := hshared.of_run
    have hnext : Flawless shares (s.perform a) :=
      ⟨fun _ _ d v hi => h.patient_perform hr hnow hsmooth hi d v,
        h.once_perform htracked hr hnow ha hsmooth⟩
    exact ih hnext (htracked.perform hr hsteady hnow ha) (hr.perform a)
      ((s.perform_handover ha).steady hsteady) hacts hshared hlater

/-! ## Whole runs -/

theorem sharedBy_isSharer (s : Network H) (queue : String) :
    SharedBy (s.isSharer queue) queue s := by
  intro i bus hb
  rw [isSharer, hb, Option.any_some]

theorem invocation_of_mem {e : Entry H} (he : e ∈ s.invocations shares n) :
    ∃ i k d r x, shares i ∧ d.arrival = n ∧ e = .entered i k d r x := by
  have hinvocation := (List.mem_filter.mp he).2
  cases e with
  | entered i k d r x =>
    obtain ⟨hi, hn⟩ := Bool.and_eq_true_iff.mp hinvocation
    exact ⟨i, k, d, r, x, hi, beq_iff_eq.mp hn, rfl⟩
  | pulled | left | panicked | called | observed | reported | logged => cases hinvocation

theorem accepted_of_drained {before after : List (Act H)}
    (apart : ∀ a ∈ before ++ after, a.isShared queue)
    (hshared : SharedBy shares queue (run {} (before ++ after)))
    (drained : (run {} (before ++ after)).broker.custody queue = [])
    (hn : (run {} before).broker.Answers queue n) :
    ((run {} (before ++ after)).trip shares n).place = .accepted := by
  obtain ⟨hbefore, hafter⟩ := List.forall_mem_append.mp apart
  rw [run_append] at hshared drained ⊢
  obtain ⟨hsteady, htracked⟩ := (tracked_empty shares queue).run reached_empty
    (Broker.steady_empty queue) hbefore hshared.of_run
  have hsofar : Tracked shares queue ((run {} before).broker.Answers queue) (run {} before) :=
    { htracked with lasting := fun n hn => .inl hn }
  obtain ⟨-, hlater⟩ := hsofar.run (reached_empty.run before) hsteady hafter hshared
  refine (hlater.lasting n hn).resolve_left ?_
  rintro ⟨copy, hc, -⟩
  rw [drained] at hc
  cases hc

/-- Buses that share a queue split its copies, whatever they and their callers do, as long as
nobody deletes the queue, or takes, resolves or frees its copies past the buses. A copy is handed
out again only after a call gave back the delivery it was handed out as. A session holds a copy if
and only if its trip has got there, so that two never hold one at once; and handlers are invoked on
it at most as often as it came back, and once more. If all goes smoothly, one handler of one bus is
invoked once on each copy that has come to the queue, by the time the queue has none left. -/
theorem split_between_sharers (acts : List (Act H)) (queue : String)
    (apart : ∀ a ∈ acts, a.isShared queue) :
    let s := run {} acts
    let shares := s.isSharer queue
    (∀ n before x between y later, s.passages = before ++ x :: (between ++ y :: later) →
      x.isHandout shares n → y.isHandout shares n → ∃ i k d, x = .pulled i k d ∧
        ∃ c, .called i c none ∈ between ∧ c.givesBack d.tag) ∧
    (∀ n session tag, s.broker.HoldsCopy session tag queue n ↔
      ∃ i bus, s.buses[i]? = some bus ∧ bus.session = session ∧
        (s.trip shares n).place = .held i tag) ∧
    (∀ n session tag session' tag', s.broker.HoldsCopy session tag queue n →
      s.broker.HoldsCopy session' tag' queue n → session = session' ∧ tag = tag') ∧
    (∀ n, (s.invocations shares n).length ≤ 1 + (s.trip shares n).comebacks) ∧
    (throughout (Act.isSmooth queue) {} acts → s.broker.custody queue = [] →
      ∀ before after, acts = before ++ after → ∀ n, (run {} before).broker.Answers queue n →
        ∃ i k d r e, shares i ∧ d.arrival = n ∧
          s.invocations shares n = [.entered i k d r e]) := by
  intro s shares
  have hshared : SharedBy shares queue s := sharedBy_isSharer s queue
  obtain ⟨-, htracked⟩ := (tracked_empty shares queue).run reached_empty
    (Broker.steady_empty queue) apart hshared
  refine ⟨fun n before x between y later hword hx hy => ?_, htracked.held,
    fun n session tag session' tag' hheld hheld' => ?_, fun n => ?_,
    fun smooth drained before after hacts n hn => ?_⟩
  · exact (htracked.inTurn n).came_back hword hx hy
  · obtain ⟨i, bus, hb, rfl, hplace⟩ := (htracked.held n session tag).mp hheld
    obtain ⟨j, bus', hb', rfl, hplace'⟩ := (htracked.held n session' tag').mp hheld'
    cases hplace.symm.trans hplace'
    exact ⟨congrArg Bus.session (Option.some.inj (hb.symm.trans hb')), rfl⟩
  · have hinvoked := htracked.invoked n
    have hhandouts : (s.trip shares n).handouts ≤ 1 + (s.trip shares n).comebacks := by
      rw [trip, (htracked.inTurn n).handouts, Nat.add_comm 1]
      refine Nat.add_le_add_left ?_ _
      split <;> omega
    exact Nat.le_trans hinvoked hhandouts
  · subst hacts
    have haccepted := accepted_of_drained apart hshared drained hn
    obtain ⟨hcomebacks, hinvoked⟩ := ((flawless_empty shares).run (tracked_empty shares queue)
      reached_empty (Broker.steady_empty queue) apart hshared smooth).once n
    have hhandouts : (s.trip shares n).handouts = 1 := by
      rw [trip, (htracked.inTurn n).handouts]
      change (s.trip shares n).comebacks + (if (s.trip shares n).place = _ then 0 else 1) = 1
      rw [hcomebacks, haccepted]
      rfl
    obtain ⟨x, hx⟩ := List.length_eq_one_iff.mp (hinvoked.trans hhandouts)
    obtain ⟨i, k, d, r, e, hi, hd, rfl⟩ := invocation_of_mem (hx ▸ List.mem_singleton_self x)
    exact ⟨i, k, d, r, e, hi, hd, hx⟩

/-- Each of two buses has a copy in hand before the first is acknowledged. -/
theorem split_between_sharers_two :
    let booked : Event := .newCargoBooked {}
    let acts : List (Act Unit) := [.build { service := "s" } .receiver [],
      .build { service := "s" } .log [], .subscribe 0 .newCargoBooked (),
      .subscribe 1 .newCargoBooked (), .publish 0 booked, .publish 1 booked, .start 0, .start 1,
      .pull 0 0, .pull 1 0, .complete 1 0 (.ok ()), .acknowledge 1 0, .complete 0 0 (.ok ()),
      .beginClose 1, .acknowledge 0 0, .finishClose 1]
    let s := run {} acts
    let shares := s.isSharer "s.queue"
    (∀ a ∈ acts, a.isShared "s.queue") ∧ throughout (Act.isSmooth "s.queue") {} acts ∧
    s.broker.custody "s.queue" = [] ∧ ∀ n ∈ [0, 1], ∃ i k d r e, shares i ∧ d.arrival = n ∧
      s.invocations shares n = [.entered i k d r e] := by
  intro booked acts s shares
  have apart : ∀ a ∈ acts, a.isShared "s.queue" := by simp [acts, Act.isShared]
  have smooth : throughout (Act.isSmooth "s.queue") {} acts := by decide +kernel
  have drained : s.broker.custody "s.queue" = [] := by decide +kernel
  have hcame : ((run {} (acts.take 6)).broker.custody "s.queue").map (·.arrival) = [0, 1] := by
    decide +kernel
  refine ⟨apart, smooth, drained, fun n hn => ?_⟩
  exact (split_between_sharers acts "s.queue" apart).2.2.2.2 smooth drained (acts.take 6)
    (acts.drop 6) rfl n (List.mem_map.mp (hcame ▸ hn))

end Network
end CargoEvents
