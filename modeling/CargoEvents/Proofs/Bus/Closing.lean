import CargoEvents.Proofs.Broker.Shutting
import CargoEvents.Proofs.Bus.Moments

/-! # A bus that closes

Closing tells the dispatchers to stop and then closes the session under them, and anything may
happen in between and after. What the session holds goes back in front of its queues, and what
dispatchers have in hand is among it. From then on they change nothing.
-/
namespace CargoEvents.Network
variable {H : Type} {s t : Network H} {i k : Nat} {bus : Bus H}
open Broker (Action Copy Polled Stream)

/-! ## What is in hand is held -/

/-- The session of bus `i` holds what dispatchers of the bus have in hand, unless it is
closed. -/
def HoldsInHand (s : Network H) (i : Nat) : Prop :=
  ∀ bus k p d, s.buses[i]? = some bus → s.position? i k = some p → p.delivery? = some d →
    s.broker.HoldsOpen bus.session d.tag

/-- The act does not resolve over the session past the dispatchers. -/
def Act.Spares (session : Nat) (a : Act H) : Prop :=
  ∀ tag how, a ≠ .beside (.resolve session tag how)

theorem Reached.holds_moved (hr : Reached s) {j l : Nat} {bus₁ : Bus H} {st st' : Stream}
    {p q q' : Position H} {b' : Broker} {a : Act H} {es : List (Entry H)} {d : Broker.Delivery}
    (hb : s.buses[i]? = some bus) (hp : s.position? i k = some p) (hdp : p.delivery? = some d)
    (hd : s.dispatcher? j l = some (bus₁, { stream := st, position := q }))
    (hm : Move s.broker bus₁ j l st q a b' st' q' es) (hne : ¬(i = j ∧ k = l))
    (h : s.broker.HoldsOpen bus.session d.tag) : b'.HoldsOpen bus.session d.tag := by
  have hresolve (tag : Nat) (how : Broker.Resolution) (hq : q.isEnded = false) :
      (s.broker.act (.resolve bus₁.session tag how)).HoldsOpen bus.session d.tag := by
    refine h.act fun how' heq => ?_
    by_cases hij : i = j
    · subst hij
      exact hne ⟨rfl, hr.alone hp (isEnded_of_delivery? hdp) (position?_of_dispatcher hd) hq⟩
    · have hsession := hr.ordered.session_ne hb (dispatcher?_bus hd) hij
      exact hsession (Action.resolve.inj heq).1.symm
  cases hm with
  | stopped | completed | panicked | unacknowledged | unresumed => exact h
  | looked _ hy =>
    have hpoll := h.act (a := .poll st) nofun
    rw [← show (s.broker.poll st).2.2 = b' from congrArg (·.2.2) hy]
    exact hpoll
  | acknowledged d' => exact hresolve d'.tag .ack rfl
  | resumed d' v => exact hresolve d'.tag (.nack true) rfl

theorem Reached.holds_taken (hr : Reached s) {st st' : Stream} {p p' : Position H} {b' : Broker}
    {a : Act H} {es : List (Entry H)} {d : Broker.Delivery}
    (hd : s.dispatcher? i k = some (bus, { stream := st, position := p }))
    (hm : Move s.broker bus i k st p a b' st' p' es) (hdp : p'.delivery? = some d)
    (h : ∀ d, p.delivery? = some d → s.broker.HoldsOpen bus.session d.tag) :
    b'.HoldsOpen bus.session d.tag := by
  cases hm with
  | stopped | panicked | acknowledged | unacknowledged | resumed | unresumed => cases hdp
  | completed d' r e result =>
    rw [afterRun_delivery?, Option.some.injEq] at hdp
    exact hdp ▸ h d' rfl
  | @looked polled _ _ hs hy =>
    have hsession : st.session = bus.session := (hr.sound.dispatchers i k bus _ hd).session
    have hyield := hy ▸ s.broker.poll_yield st
    cases hyield with
    | waiting | nothing | ended | fault => cases hdp
    | @delivery x copy rest hx =>
      simp only [received, accept_delivery?, Option.some.injEq] at hdp
      subst hdp
      rw [← hsession]
      exact Broker.holdsOpen_handOut hx st.queue (x.lastTag + 1) copy

theorem HoldsInHand.perform (h : s.HoldsInHand i) (hr : Reached s) {a : Act H}
    (ha : ∀ bus, s.buses[i]? = some bus → a.Spares bus.session) :
    (s.perform a).HoldsInHand i := by
  intro bus' k p d hb' hp hdp
  -- Calls, and what happens beside the buses, resolve nothing over the session.
  have hcalled (hold : s.position? i k = some p)
      (hcalls : ∃ actions, (s.perform a).broker = s.broker.run actions ∧
        ∀ x ∈ actions, x.isCall ∨ a = .beside x) :
      (s.perform a).broker.HoldsOpen bus'.session d.tag := by
    obtain ⟨bus, e, hd, rfl⟩ := bus_of_position hold
    have hb := dispatcher?_bus hd
    obtain ⟨bus₁, hb₁, helder⟩ := s.elder_perform a hb
    obtain rfl : bus₁ = bus' := Option.some.inj (hb₁.symm.trans hb')
    obtain ⟨actions, hbroker, hactions⟩ := hcalls
    rw [hbroker, helder.session]
    refine (h bus k _ d hb hold hdp).run fun x hx how hresolve => ?_
    rcases hactions x hx with hcall | hbeside
    · rw [hresolve] at hcall
      cases hcall
    · exact ha bus hb d.tag how (hresolve ▸ hbeside)
  cases s.perform_shift a with
  | still hcalls hposition _ => exact hcalled (hposition i k ▸ hp) hcalls
  | started hcalls _ hposition _ =>
    rw [hposition] at hp
    split at hp
    · cases hp
      cases hdp
    · exact hcalled hp hcalls
  | @moved j l bus₁ st st' q q' b' es hd hm hbroker hposition _ =>
    rw [hbroker]
    rw [hposition] at hp
    by_cases hij : i = j ∧ k = l
    · obtain ⟨rfl, rfl⟩ := hij
      rw [if_pos ⟨rfl, rfl⟩] at hp
      obtain rfl := Option.some.inj hp
      have hb := dispatcher?_bus hd
      obtain ⟨bus₂, hb₂, helder⟩ := s.elder_perform a hb
      obtain rfl : bus₂ = bus' := Option.some.inj (hb₂.symm.trans hb')
      rw [helder.session]
      exact hr.holds_taken hd hm hdp fun d hdq => h bus₁ k q d hb (position?_of_dispatcher hd) hdq
    · rw [if_neg hij] at hp
      obtain ⟨bus, e, hdi, rfl⟩ := bus_of_position hp
      have hb := dispatcher?_bus hdi
      obtain ⟨bus₂, hb₂, helder⟩ := s.elder_perform a hb
      obtain rfl : bus₂ = bus' := Option.some.inj (hb₂.symm.trans hb')
      rw [helder.session]
      exact hr.holds_moved hb hp hdp hd hm hij (h bus k _ d hb hp hdp)

/-! ## Dispatchers that are told to stop -/

def Stopped (s : Network H) (i : Nat) : Prop := ∃ bus, s.buses[i]? = some bus ∧ bus.shutdown

theorem stopped_iff : s.Stopped i ↔ ∃ l, s.lives[i]? = some l ∧ l.shutdown := by
  unfold Stopped lives
  rw [List.getElem?_map]
  cases s.buses[i]? with
  | none => simp
  | some bus => simp [Bus.life]

theorem turn_shutdown {l l' : Life} (h : l.Turn l') (hl : l.shutdown) : l'.shutdown := by
  cases h with
  | started | closed | stopped | ranOut => exact hl
  | drained | dropped => rfl

theorem set_shutdown {ls : List Life} {l l' : Life} {j : Nat} (hl : ls[j]? = some l)
    (hkeep : l.shutdown → l'.shutdown) (h : ∃ x, ls[i]? = some x ∧ x.shutdown) :
    ∃ x, (ls.set j l')[i]? = some x ∧ x.shutdown := by
  obtain ⟨x, hx, hstop⟩ := h
  by_cases hji : j = i
  · subst hji
    obtain rfl : l = x := Option.some.inj (hl.symm.trans hx)
    exact ⟨l', List.getElem?_set_self (List.getElem?_eq_some_iff.mp hl).1, hkeep hstop⟩
  · exact ⟨x, (List.getElem?_set_ne hji).trans hx, hstop⟩

theorem step_shutdown {ls ls' : List Life} (h : Life.Step ls ls')
    (hl : ∃ x, ls[i]? = some x ∧ x.shutdown) : ∃ x, ls'[i]? = some x ∧ x.shutdown := by
  cases h with
  | still => exact hl
  | born =>
    obtain ⟨x, hx, hstop⟩ := hl
    exact ⟨x, (List.getElem?_append_left (List.getElem?_eq_some_iff.mp hx).1).trans hx, hstop⟩
  | turned hturned ht => exact set_shutdown hturned (turn_shutdown ht) hl

theorem Stopped.onBus (h : s.Stopped i) (j : Nat) {f : Bus H → Bus H}
    (hf : ∀ b, b.shutdown → (f b).shutdown) : (s.onBus j f).Stopped i := by
  obtain ⟨bus, hb, hstop⟩ := h
  rw [Stopped, Network.onBus, List.getElem?_modify, hb]
  by_cases hji : j = i
  · exact ⟨f bus, by simp [hji], hf bus hstop⟩
  · exact ⟨bus, by simp [hji], hstop⟩

theorem Stopped.perform (h : s.Stopped i) (a : Act H) : (s.perform a).Stopped i := by
  by_cases ha : ∃ j l, a = .panic j l
  · obtain ⟨j, l, rfl⟩ := ha
    rw [Network.perform, Network.panic]
    split
    · exact Stopped.onBus (s := s.note _) h j fun b hb => hb
    · exact h
  · have hstep := s.perform_step a fun j l h => ha ⟨j, l, h⟩
    exact stopped_iff.mpr (step_shutdown hstep (stopped_iff.mp h))

theorem Stopped.run (h : s.Stopped i) (acts : List (Act H)) : (s.run acts).Stopped i := by
  induction acts generalizing s with
  | nil => exact h
  | cons a acts ih => exact ih (h.perform a)

end Network

/-- The entry, if a dispatcher of a bus that closes should not have left it: bus `i` got a
delivery, or reported that one was not resolved. -/
def Entry.untimely? {H : Type} (i : Nat) (e : Entry H) : Option (Entry H) :=
  match e with
  | .pulled j .. | .reported j (.acknowledgementFailed _) => if i = j then some e else none
  | _ => none

namespace Network
variable {H : Type} {s t : Network H} {i k : Nat} {bus : Bus H}
open Broker (Action Copy Polled Stream)

theorem ofDeliveries_untimely (i : Nat) : OfDeliveries (Entry.untimely? (H := H) i) := by
  constructor
  · intro j o
    rfl
  · intro r
    rfl
  · intro j c refusal hc
    rfl
  · intro j e he
    cases e with
    | acknowledgementFailed x => exact absurd rfl (he x)
    | _ => rfl

theorem Move.timely {b b' : Broker} {st st' : Stream} {p p' : Position H} {a : Act H}
    {es : List (Entry H)} {j : Nat} (h : Move b bus j k st p a b' st' p' es)
    (hstop : i = j → bus.shutdown) (refusal : Option BrokerError) :
    (es ++ resolving bus j refusal p).filterMap (Entry.untimely? i) = [] := by
  have hresolving (c : SessionCall) :
      (.called j c refusal :: resolving.refused bus j refusal).filterMap (Entry.untimely? i) =
        [] := by
    unfold resolving.refused
    split
    · rfl
    · rename_i hruns
      have hij : i ≠ j := fun hij => hruns (hstop hij)
      simp [Entry.untimely?, hij]
  cases h with
  | stopped | completed | panicked => rfl
  | acknowledged | unacknowledged => exact hresolving _
  | resumed | unresumed => exact hresolving _
  | @looked polled _ _ hs hy =>
    have hij : i ≠ j := by
      intro hij
      rw [hstop hij] at hs
      cases hs
    cases polled with
    | pending | ended | fault => rfl
    | delivery d =>
      simp only [received, resolving, List.append_nil, List.filterMap_cons, Entry.untimely?,
        if_neg hij]
      cases (bus.registry.accept d).1 <;> rfl

/-- Once it is told to stop, a dispatcher pulls nothing and reports no refusal. -/
theorem Stopped.timely_perform (h : s.Stopped i) (a : Act H) :
    (s.perform a).told (Entry.untimely? i) = s.told (Entry.untimely? i) := by
  cases s.perform_shift a with
  | still _ _ htold => exact htold (ofDeliveries_untimely i)
  | started _ _ _ htold => exact htold (ofDeliveries_untimely i)
  | @moved j l bus st st' p p' b' es hd hm _ _ htold =>
    obtain ⟨refusal, htold⟩ := htold
    rw [htold (ofDeliveries_untimely i), hm.timely ?_ refusal, List.append_nil]
    rintro rfl
    obtain ⟨bus', hb', hstop⟩ := h
    obtain rfl : bus = bus' := Option.some.inj ((dispatcher?_bus hd).symm.trans hb')
    exact hstop

theorem Stopped.timely_run (h : s.Stopped i) (acts : List (Act H)) :
    (s.run acts).told (Entry.untimely? i) = s.told (Entry.untimely? i) := by
  induction acts generalizing s with
  | nil => rfl
  | cons a acts ih => exact (ih (h.perform a)).trans (h.timely_perform a)

/-- A dispatcher that is told to stop asks nothing of the broker that a closed session lets
through. -/
theorem Stopped.broker_perform (h : s.Stopped i)
    (hshut : ∀ bus, s.buses[i]? = some bus → s.broker.Shut bus.session) {a : Act H}
    (ha : a.isStepOf i) : (s.perform a).broker = s.broker := by
  obtain ⟨k, hdispatched⟩ := s.perform_dispatched ha
  generalize s.perform a = s' at hdispatched
  cases hdispatched with
  | idle => rfl
  | @moved bus st st' p p' b' es _ hd hm hmoved =>
    have hb := dispatcher?_bus hd
    have hshut := hshut bus hb
    rw [hmoved.broker]
    cases hm with
    | stopped | completed | panicked | unacknowledged | unresumed => rfl
    | acknowledged d => exact hshut.resolve d.tag .ack
    | resumed d v => exact hshut.resolve d.tag (.nack true)
    | looked hs hy =>
      obtain ⟨bus', hb', hstop⟩ := h
      obtain rfl : bus = bus' := Option.some.inj (hb.symm.trans hb')
      rw [hstop] at hs
      cases hs

/-! ## Closing, in two halves -/

/-- What closing does first: the bus drains, and its dispatchers are told to stop. -/
def stop (s : Network H) (i : Nat) : Network H :=
  s.onBus i fun b => { b.enter .draining with shutdown := true }

/-- What closing does then: the session is closed, and how is kept. -/
def shut (s : Network H) (i : Nat) : Network H :=
  let (closed, s) := closeSession i s
  s.onBus i fun b => { b with closing := some closed }

theorem beginClose_eq (hb : s.buses[i]? = some bus) (hopen : bus.state ≠ .closed)
    (hclosing : bus.closing = none) : s.beginClose i = (s.stop i).shut i := by
  have hbegins : ¬(bus.state = .closed ∨ bus.closing.isSome) := by simp [hopen, hclosing]
  unfold beginClose
  rw [hb]
  dsimp only
  rw [if_neg hbegins]
  rfl

theorem stop_quiet (s : Network H) (i : Nat) : s.Quiet (s.stop i) :=
  quiet_onBus s i fun _ => ⟨rfl, rfl, rfl, rfl⟩

theorem shut_quiet (s : Network H) (i : Nat) : s.Quiet (s.shut i) :=
  (closeSession_called i s).quiet.trans (quiet_onBus _ i fun _ => ⟨rfl, rfl, rfl, rfl⟩)

theorem stop_stopped (hb : s.buses[i]? = some bus) : (s.stop i).Stopped i := by
  refine ⟨{ bus.enter .draining with shutdown := true }, ?_, rfl⟩
  simp [stop, onBus, hb]

theorem Reached.stop (h : Reached s) (i : Nat) : Reached (s.stop i) := by
  have hquiet := s.stop_quiet i
  have hstep : Life.Step s.lives (s.stop i).lives := step_onBus rfl fun _ _ => .drained
  refine ⟨h.sound.quiet hquiet, ?_, hquiet.ordered h.ordered⟩
  exact Life.AllSound.step h.lively hstep

theorem elder_stop (hb : s.buses[i]? = some bus) :
    ∃ bus', (s.stop i).buses[i]? = some bus' ∧ bus.Elder bus' :=
  ⟨{ bus.enter .draining with shutdown := true }, by simp [stop, onBus, hb], rfl, rfl⟩

theorem HoldsInHand.stop (h : s.HoldsInHand i) : (s.stop i).HoldsInHand i := by
  intro bus' k p d hb' hp hdp
  rw [(s.stop_quiet i).position?] at hp
  obtain ⟨bus, e, hd, -⟩ := bus_of_position hp
  have hb := dispatcher?_bus hd
  obtain ⟨bus₁, hb₁, helder⟩ := elder_stop hb
  obtain rfl : bus₁ = bus' := Option.some.inj (hb₁.symm.trans hb')
  rw [helder.session]
  exact h bus k p d hb hp hdp

theorem HoldsInHand.run (h : s.HoldsInHand i) (hr : Reached s) {acts : List (Act H)} {n : Nat}
    (hn : ∀ bus, (s.run acts).buses[i]? = some bus → bus.session = n)
    (ha : ∀ a ∈ acts, a.Spares n) : (s.run acts).HoldsInHand i := by
  induction acts generalizing s with
  | nil => exact h
  | cons a acts ih =>
    obtain ⟨ha, hacts⟩ := List.forall_mem_cons.mp ha
    refine ih (h.perform hr fun bus hb => ?_) (hr.perform a) hn hacts
    obtain ⟨bus', hb', helder⟩ := s.elder_run (a :: acts) hb
    rw [← helder.session, hn bus' hb']
    exact ha

theorem takeFault_none {name : String} {faults : List (String × BrokerError)}
    (h : ∀ f ∈ faults, f.1 ≠ name) : takeFault name faults = none := by
  induction faults with
  | nil => rfl
  | cons f faults ih =>
    obtain ⟨hf, hfaults⟩ := List.forall_mem_cons.mp h
    simp [takeFault, hf, ih hfaults]

theorem shut_broker (hb : s.buses[i]? = some bus) (hfaults : ∀ f ∈ bus.faults, f.1 ≠ "close") :
    (s.shut i).broker = s.broker.closeSession bus.session := by
  have hfault : takeFault SessionCall.close.name bus.faults = none := takeFault_none hfaults
  simp only [shut, closeSession, onSession', onSession, hb, hfault]
  rfl

theorem Stopped.shut (h : s.Stopped i) : (s.shut i).Stopped i := by
  have hcalled : (closeSession i s).2.Stopped i := by
    have hlives := lives_eq_of_called (closeSession_called i s)
    rw [stopped_iff, hlives]
    exact stopped_iff.mp h
  exact hcalled.onBus i fun b hb => hb

theorem elder_shut (hb : s.buses[i]? = some bus) :
    ∃ bus', (s.shut i).buses[i]? = some bus' ∧ bus.Elder bus' := by
  obtain ⟨faults, hf, -⟩ := (closeSession_called i s).buses i
  rw [hb] at hf
  refine ⟨{ bus with faults, closing := some (closeSession i s).1 }, ?_, rfl, rfl⟩
  have hshut : s.shut i = (closeSession i s).2.onBus i fun b =>
      { b with closing := some (closeSession i s).1 } := rfl
  rw [hshut, onBus, List.getElem?_modify_eq, hf]
  rfl

theorem HoldsInHand.mem_putBack (h : s.HoldsInHand i) (hr : Reached s)
    (hb : s.buses[i]? = some bus) (hopen : s.broker.isOpen bus.session) {p : Position H}
    {d : Broker.Delivery} (hp : s.position? i k = some p) (hdp : p.delivery? = some d) :
    ∃ c : Copy, c.delivery d.tag = d ∧
      c.marked ∈ s.broker.putBack bus.session bus.config.topology.queue.name := by
  obtain ⟨x, hx, hheld⟩ := h bus k p d hb hp hdp
  obtain ⟨y, hy, ho⟩ := Broker.isOpen_iff.mp hopen
  obtain rfl : x = y := Option.some.inj (hx.symm.trans hy)
  obtain ⟨held, hm, htag⟩ := hheld ho
  obtain ⟨bus₁, e, hd, rfl⟩ := bus_of_position hp
  obtain rfl : bus₁ = bus := Option.some.inj ((dispatcher?_bus hd).symm.trans hb)
  have hdisp := hr.sound.dispatchers i k bus₁ e hd
  obtain ⟨z, hz, -, hlent⟩ := hdisp.lent d hdp
  rw [hdisp.session, hx] at hz
  obtain rfl := Option.some.inj hz
  obtain ⟨hqueue, hcopy⟩ := hlent held hm htag
  refine ⟨held.copy, htag ▸ hcopy, ?_⟩
  rw [Broker.putBack, hx]
  refine List.mem_map.mpr ⟨held, List.mem_filter.mpr ⟨hm, ?_⟩, rfl⟩
  rw [hqueue, hdisp.queue]
  exact beq_self_eq_true _

theorem holdsInHand_run (acts : List (Act H)) (hb : (run {} acts).buses[i]? = some bus)
    (ha : ∀ a ∈ acts, a.Spares bus.session) : (run {} acts).HoldsInHand i := by
  refine HoldsInHand.run (s := {}) (by simp [HoldsInHand]) reached_empty (n := bus.session)
    (fun b h => ?_) ha
  obtain rfl : bus = b := Option.some.inj (hb.symm.trans h)
  rfl

theorem Reached.shut_run (h : Reached s) (hb : s.buses[i]? = some bus)
    (hfaults : ∀ f ∈ bus.faults, f.1 ≠ "close") (acts : List (Act H)) :
    ((s.shut i).run acts).broker.Shut bus.session := by
  obtain ⟨actions, hrun⟩ := (s.shut i).run_broker acts
  rw [hrun, shut_broker hb hfaults]
  have hlt := h.ordered.known bus (List.mem_of_getElem? hb)
  have hshut := h.sound.broker.shut_closeSession (List.getElem?_eq_getElem hlt)
  exact hshut.run actions

/-- Closing leaves the queues consistent. Whenever a bus closes, over a session that does not
refuse to, and whatever happens between its dispatchers being told to stop and its session being
closed: what the session holds then goes back, marked as redelivered, in front of what waits, and
a delivery that a dispatcher has in hand is among it, unless someone else resolved deliveries of
the session. Whatever happens after that, the session stays closed and holds nothing, and steps of
the bus's dispatchers change nothing in the broker. From the moment they are told to stop they
pull no delivery and report no refused resolution. -/
theorem close_gives_back (before between : List (Act H)) {i : Nat} {bus : Bus H}
    (hb : (run {} before).buses[i]? = some bus) (hopen : bus.state ≠ .closed)
    (hclosing : bus.closing = none)
    (hfaults : ∀ b, (((run {} before).stop i).run between).buses[i]? = some b →
      ∀ f ∈ b.faults, f.1 ≠ "close") :
    let t := ((run {} before).stop i).run between
    let u := t.shut i
    (between = [] → (run {} before).beginClose i = u) ∧
    (∀ queue, t.broker.queues.contains queue →
      u.broker.ready queue = t.broker.putBack bus.session queue ++ t.broker.ready queue) ∧
    (t.broker.isOpen bus.session → (∀ a ∈ before ++ between, a.Spares bus.session) →
      ∀ k p d, t.position? i k = some p → p.delivery? = some d → ∃ c : Copy,
        c.delivery d.tag = d ∧
        c.marked ∈ t.broker.putBack bus.session bus.config.topology.queue.name) ∧
    ∀ after, let s := u.run after
      s.broker.Shut bus.session ∧
      s.told (Entry.untimely? i) = (run {} before).told (Entry.untimely? i) ∧
      ∀ a : Act H, a.isStepOf i → (s.perform a).broker = s.broker := by
  intro t u
  have hreached : Reached t := ((reached_empty.run before).stop i).run between
  obtain ⟨bus₁, hb₁, helder₁⟩ := elder_stop hb
  obtain ⟨bus₂, hb₂, helder₂⟩ := ((run {} before).stop i).elder_run between hb₁
  have helder : bus.Elder bus₂ := helder₁.trans helder₂
  have hstopped : t.Stopped i := (stop_stopped hb).run between
  refine ⟨?_, ?_, ?_, ?_⟩
  · rintro rfl
    exact beginClose_eq hb hopen hclosing
  · intro queue hqueue
    have hbroker : u.broker = t.broker.closeSession bus.session := by
      rw [shut_broker hb₂ (hfaults bus₂ hb₂), helder.session]
    rw [hbroker]
    exact hreached.sound.broker.ready_closeSession bus.session hqueue
  · intro hsession hspares k p d hp hdp
    obtain ⟨hbefore, hbetween⟩ := List.forall_mem_append.mp hspares
    have hholds : t.HoldsInHand i := by
      refine (holdsInHand_run before hb hbefore).stop.run ((reached_empty.run before).stop i)
        (n := bus.session) (fun b h => ?_) hbetween
      obtain rfl : bus₂ = b := Option.some.inj (hb₂.symm.trans h)
      exact helder.session
    obtain ⟨c, hc, hmem⟩ := hholds.mem_putBack hreached hb₂ (helder.session ▸ hsession) hp hdp
    rw [helder.session, helder.config] at hmem
    exact ⟨c, hc, hmem⟩
  · intro after s
    have hshut : s.broker.Shut bus.session :=
      helder.session ▸ hreached.shut_run hb₂ (hfaults bus₂ hb₂) after
    refine ⟨hshut, ?_, fun a ha => ?_⟩
    · have huntimely := ofDeliveries_untimely (H := H) i
      calc s.told (Entry.untimely? i)
        _ = u.told (Entry.untimely? i) := hstopped.shut.timely_run after
        _ = t.told (Entry.untimely? i) := (t.shut_quiet i).told huntimely
        _ = ((run {} before).stop i).told (Entry.untimely? i) :=
          (stop_stopped hb).timely_run between
        _ = (run {} before).told (Entry.untimely? i) := ((run {} before).stop_quiet i).told huntimely
    · obtain ⟨bus₃, hb₃, helder₃⟩ := elder_shut hb₂
      obtain ⟨bus₄, hb₄, helder₄⟩ := u.elder_run after hb₃
      refine (hstopped.shut.run after).broker_perform (fun b hb => ?_) ha
      obtain rfl : bus₄ = b := Option.some.inj (hb₄.symm.trans hb)
      rw [((helder.trans helder₃).trans helder₄).session]
      exact hshut

/-- A session that closes between the handler's return and its acknowledgement. -/
theorem close_gives_back_acknowledging :
    let booking : Act Unit := .beside (.operate (.inject defaultExchange "NewCargoBooked" none []))
    let before : List (Act Unit) := [.build { service := "s" } .receiver [],
      .subscribe 0 .newCargoBooked (), booking, booking, .start 0, .pull 0 0]
    let t := ((run {} before).stop 0).run [.complete 0 0 (.ok ())]
    let s := (t.shut 0).run [.acknowledge 0 0, .pull 0 0, .finishClose 0]
    let c (arrival : Nat) : Copy :=
      { arrival, routingKey := "NewCargoBooked", typeTag := none, body := [] }
    (t.shut 0).broker.ready "s.queue" = [(c 0).marked] ++ [c 1] ∧
    (∃ x : Copy, x.delivery 1 = (c 0).delivery 1 ∧ x.marked ∈ t.broker.putBack 0 "s.queue") ∧
    s.broker.Shut 0 ∧ s.told (Entry.untimely? 0) = (run {} before).told (Entry.untimely? 0) ∧
    (s.perform (.acknowledge 0 0)).broker = s.broker := by
  intro booking before t s c
  obtain ⟨bus, hb⟩ : ∃ bus, (run {} before).buses[0]? = some bus :=
    Option.isSome_iff_exists.mp (by decide +kernel)
  have hkept : (run {} before).buses[0]?.map (fun b =>
      (b.session, b.state, b.closing.isSome, b.config.topology.queue.name)) =
        some (0, .consuming, false, "s.queue") := by decide +kernel
  have hfaults : t.buses[0]?.map (·.faults) = some [] := by decide +kernel
  rw [hb, Option.map_some, Option.some.injEq, Prod.mk.injEq, Prod.mk.injEq, Prod.mk.injEq] at hkept
  obtain ⟨hsession, hstate, hclosing, hqueue⟩ := hkept
  have hunscripted (b : Bus Unit) (h : t.buses[0]? = some b) : b.faults = [] := by
    rw [h] at hfaults
    exact Option.some.inj hfaults
  have hgives := close_gives_back before [.complete 0 0 (.ok ())] hb (by simp [hstate])
    (by simpa using hclosing) fun b h => by simp [hunscripted b h]
  rw [hsession, hqueue] at hgives
  obtain ⟨-, hready, hhand, hafter⟩ := hgives
  have hback : t.broker.putBack 0 "s.queue" = [(c 0).marked] := by decide +kernel
  have hwaits : t.broker.ready "s.queue" = [c 1] := by decide +kernel
  obtain ⟨hshut, huntimely, hstill⟩ := hafter [.acknowledge 0 0, .pull 0 0, .finishClose 0]
  refine ⟨?_, ?_, hshut, huntimely, hstill _ rfl⟩
  · rw [hready "s.queue" (by decide +kernel), hback, hwaits]
  · refine hhand (by decide +kernel) ?_ 0 (.acknowledging ((c 0).delivery 1)) _
      (by decide +kernel) rfl
    simp [before, booking, Act.Spares]

end CargoEvents.Network
