import CargoEvents.Proofs.Bus.Blocked

/-! # Publishing to a queue that is served

A publisher can publish as long as its bus is open and its session is, and an event that it
publishes gets to the tail of each queue bound for its kind. Steps of dispatchers leave
publishers and bindings as they are, so what a dispatcher has to attempt grows at its end.
-/
namespace CargoEvents
variable {H σ : Type}

namespace Broker

/-- Publishing works as before, and reaches the same queues. -/
structure Wired (b b' : Broker) : Prop where
  exchanges : b'.exchanges = b.exchanges
  bindings : b'.bindings = b.bindings
  publishFault : b'.publishFault = b.publishFault
  isOpen : ∀ n, b'.isOpen n = b.isOpen n

theorem Wired.refl (b : Broker) : b.Wired b := ⟨rfl, rfl, rfl, fun _ => rfl⟩

theorem Wired.trans {b c d : Broker} (h : b.Wired c) (h' : c.Wired d) : b.Wired d :=
  ⟨h'.exchanges.trans h.exchanges, h'.bindings.trans h.bindings,
    h'.publishFault.trans h.publishFault, fun n => (h'.isOpen n).trans (h.isOpen n)⟩

theorem wired_onSession (b : Broker) (s : Nat) {f : Session → Session}
    (hf : ∀ x, (f x).isOpen = x.isOpen) : b.Wired (b.onSession s f) := by
  refine ⟨rfl, rfl, rfl, fun n => ?_⟩
  simp only [isOpen, onSession, List.getElem?_modify]
  split
  · cases b.sessions[n]? <;> simp [hf]
  · simp

theorem poll_wired (b : Broker) (st : Stream) : b.Wired (b.poll st).2.2 := by
  have hyield := b.poll_yield st
  generalize b.poll st = yielded at hyield
  cases hyield with
  | waiting | nothing | ended => exact .refl b
  | fault => exact ⟨rfl, rfl, rfl, fun _ => rfl⟩
  | @delivery x copy rest =>
    let f (y : Session) : Session :=
      { y with
        lastTag := x.lastTag + 1
        unacked := y.unacked ++ [{ tag := x.lastTag + 1, queue := st.queue, copy }] }
    exact (b.wired_onSession st.session (f := f) fun _ => rfl).trans ⟨rfl, rfl, rfl, fun _ => rfl⟩

theorem resolve_wired {b b' : Broker} {s tag : Nat} {how : Resolution}
    (h : b.resolve s tag how = .ok b') : b.Wired b' := by
  obtain ⟨x, held, -, -, -, rfl⟩ := resolve_eq_ok h
  have hreleased := b.wired_onSession s (f := (·.release tag)) fun _ => rfl
  refine hreleased.trans ?_
  split <;> exact ⟨rfl, rfl, rfl, fun _ => rfl⟩

theorem publish_wired {b b' : Broker} {s : Nat} {exchange : String} {m : Message}
    (h : b.publish s exchange m = .ok b') : b.Wired b' := by
  obtain ⟨-, -, -, rfl⟩ := publish_eq_ok h
  exact ⟨rfl, rfl, rfl, fun _ => rfl⟩

theorem poll_eq_pending {b : Broker} {st : Stream} {x : Session}
    (hs : b.sessions[st.session]? = some x) (ho : x.isOpen) (he : b.epoch = st.epoch)
    (hf : b.deliveryFaults = []) (hr : b.ready st.queue = []) :
    ∃ st', b.poll st = (.pending, st', b) ∧ st'.epoch = st.epoch := by
  by_cases hw : st.waitedAt = some b.signals
  · exact ⟨st, by simp [poll, hw], rfl⟩
  · exact ⟨{ st with waitedAt := some b.signals },
      by simp [poll, look, hw, hs, ho, he, hf, hr], rfl⟩

/-- The copy of an event's message that gets to a queue. -/
def copyFor (b : Broker) (e : Event) : Copy :=
  b.newCopy (Message.ofEvent e).routingKey (tagOf (.ofEvent e)) (Message.ofEvent e).body

end Broker

namespace Network
open Broker (Copy Stream)

structure Upheld (s s' : Network H) : Prop where
  broker : s.broker.Wired s'.broker
  buses : ∀ (j : Nat) (b : Bus H), s.buses[j]? = some b → ∃ b', s'.buses[j]? = some b' ∧
    b'.config = b.config ∧ b'.session = b.session ∧ b'.state.isTerminal = b.state.isTerminal ∧
    (b.faults = [] → b'.faults = [])

variable {s t u : Network H} {i j k : Nat} {bus : Bus H}

theorem Upheld.trans (h : s.Upheld t) (h' : t.Upheld u) : s.Upheld u := by
  refine ⟨h.broker.trans h'.broker, fun j b hb => ?_⟩
  obtain ⟨b', hb', hc, hs, ht, hf⟩ := h.buses j b hb
  obtain ⟨b'', hb'', hc', hs', ht', hf'⟩ := h'.buses j b' hb'
  exact ⟨b'', hb'', hc'.trans hc, hs'.trans hs, ht'.trans ht, fun h => hf' (hf h)⟩

theorem upheld_of_eq (hw : s.broker.Wired t.broker) (hb : t.buses = s.buses) : s.Upheld t :=
  ⟨hw, fun _ b hj => ⟨b, hb ▸ hj, rfl, rfl, rfl, id⟩⟩

theorem Upheld.refl (s : Network H) : s.Upheld s := upheld_of_eq (.refl _) rfl

theorem upheld_onBus (s : Network H) (i : Nat) {f : Bus H → Bus H}
    (hf : ∀ b, (f b).config = b.config ∧ (f b).session = b.session ∧
      (f b).state.isTerminal = b.state.isTerminal ∧ (b.faults = [] → (f b).faults = [])) :
    s.Upheld (s.onBus i f) := by
  refine ⟨.refl _, fun j b hb => ?_⟩
  by_cases hij : i = j
  · exact ⟨f b, by simp [onBus, hij, hb], hf b⟩
  · exact ⟨b, by simp [onBus, hij, hb], rfl, rfl, rfl, id⟩

theorem upheld_move (s : Network H) (i k : Nat) (p : Position H) : s.Upheld (s.move i k p) :=
  s.upheld_onBus i fun _ => ⟨rfl, rfl, rfl, id⟩

theorem upheld_note (s : Network H) (e : Entry H) : s.Upheld (s.note e) :=
  upheld_of_eq (.refl _) rfl

theorem upheld_observe (s : Network H) (i : Nat) (os : List Observation) :
    s.Upheld (s.observe i os) :=
  upheld_of_eq (by rw [observe_broker]; exact .refl _) (observe_buses ..)

theorem upheld_report (s : Network H) (i : Nat) (es : List BusError) : s.Upheld (s.report i es) :=
  upheld_of_eq (by rw [report_broker]; exact .refl _) (report_buses ..)

theorem onSession'_upheld (i : Nat) (c : SessionCall)
    {op : Nat → Broker → Except BrokerError Broker}
    (hop : ∀ n b b', op n b = .ok b' → b.Wired b') (s : Network H) :
    s.Upheld (onSession' i c op s).2 := by
  simp only [onSession', onSession]
  split
  · exact .refl s
  · rename_i bus hb
    split
    · rename_i e faults hf
      refine ⟨.refl _, fun j b hj => ?_⟩
      by_cases hij : i = j
      · subst hij
        obtain rfl : bus = b := Option.some.inj (hb.symm.trans hj)
        refine ⟨{ bus with faults }, by simp [onBus, hj], rfl, rfl, rfl, fun hnil => ?_⟩
        exact List.sublist_nil.mp (hnil ▸ takeFault_sublist hf)
      · exact ⟨b, by simpa [onBus, hij] using hj, rfl, rfl, rfl, id⟩
    · cases ho : op bus.session s.broker with
      | error e => exact upheld_of_eq (.refl _) rfl
      | ok b' => exact upheld_of_eq (hop _ _ _ ho) rfl

theorem settle_upheld (s : Network H) (i : Nat) (bus : Bus H) (d : Broker.Delivery)
    (how : Broker.Resolution) (os : List Observation) : s.Upheld (s.settle i bus d how os) := by
  have hresolve : s.Upheld (resolve i d.tag how s).2 :=
    onSession'_upheld i _ (fun _ _ _ => Broker.resolve_wired) s
  unfold settle
  generalize resolve i d.tag how s = resolved at hresolve ⊢
  exact (hresolve.trans (upheld_observe ..)).trans (upheld_report ..)

theorem take_upheld (s : Network H) (i k : Nat) (polled : Broker.Polled) :
    s.Upheld (s.take i k polled) := by
  cases polled with
  | pending => exact .refl s
  | ended =>
    refine Upheld.trans (s.upheld_onBus i fun b => ?_) (upheld_move ..)
    split
    · rename_i hc
      exact ⟨rfl, rfl, by simp [Bus.enter, hc, BusState.isTerminal], id⟩
    · exact ⟨rfl, rfl, rfl, id⟩
  | fault e => exact (s.upheld_observe i _).trans (upheld_report ..)
  | delivery d =>
    simp only [take]
    split
    · exact upheld_of_eq (.refl _) rfl
    · rename_i b hb
      generalize b.registry.accept d = accepted
      obtain ⟨p, os⟩ := accepted
      refine Upheld.trans ?_ (upheld_move ..)
      refine Upheld.trans ?_ (upheld_observe ..)
      cases p <;> exact upheld_of_eq (.refl _) rfl

theorem pull_upheld (s : Network H) (i k : Nat) : s.Upheld (s.pull i k) := by
  unfold pull
  split
  · rename_i bus st hd
    split
    · exact s.upheld_move i k _
    · have hwired := s.broker.poll_wired st
      generalize s.broker.poll st = polled at hwired ⊢
      obtain ⟨polled, st', b'⟩ := polled
      have hpolled : s.Upheld { s with broker := b' } := upheld_of_eq hwired rfl
      have hstream := upheld_onBus { s with broker := b' } i (f := fun b =>
        { b with dispatchers := b.dispatchers.modify k fun d => { d with stream := st' } })
        fun _ => ⟨rfl, rfl, rfl, id⟩
      exact (hpolled.trans hstream).trans (take_upheld ..)
  · exact .refl s

theorem turn_upheld (run : H → Event → Call HandlerError σ Unit) (i k : Nat)
    (state : Network H × σ) : state.1.Upheld (turn run i k state).1 := by
  obtain ⟨s, t⟩ := state
  simp only [turn]
  split
  · exact s.pull_upheld i k
  · rename_i hd
    simp only [complete, hd]
    refine Upheld.trans ?_ (upheld_move ..)
    exact (s.upheld_note _).trans (upheld_observe ..)
  · rename_i hd
    simp only [acknowledge, hd]
    exact (settle_upheld ..).trans (upheld_move ..)
  · rename_i hd
    simp only [resume, hd]
    exact (settle_upheld ..).trans ((upheld_report ..).trans (upheld_move ..))
  · exact .refl s
  · exact .refl s

/-! ## Publishers -/

/-- A bus on the exchange that is open, as its session is, and meets no fault. -/
def Publisher (exchange : String) (s : Network H) (j : Nat) : Prop :=
  ∃ bus, s.buses[j]? = some bus ∧ bus.config.exchange = exchange ∧ bus.state.isTerminal = false ∧
    bus.faults = [] ∧ s.broker.isOpen bus.session

/-- Messages are accepted for the exchange, and those of the kinds get to the queue. -/
structure Routed (kinds : List EventKind) (exchange queue : String) (b : Broker) : Prop where
  declared : b.exchanges.contains exchange
  accepts : b.publishFault = none
  bound : ∀ kind ∈ kinds, { exchange, key := kind.name, queue } ∈ b.bindings

variable {exchange queue : String} {kinds : List EventKind}

theorem Publisher.upheld (h : Publisher exchange s j) (hu : s.Upheld t) :
    Publisher exchange t j := by
  obtain ⟨bus, hb, hx, hopen, hf, hsession⟩ := h
  obtain ⟨bus', hb', hc, hs, ht, hf'⟩ := hu.buses j bus hb
  refine ⟨bus', hb', hc ▸ hx, ht.trans hopen, hf' hf, ?_⟩
  rw [hs, hu.broker.isOpen, hsession]

theorem Routed.wired {b b' : Broker} (h : Routed kinds exchange queue b) (hw : b.Wired b') :
    Routed kinds exchange queue b' :=
  ⟨hw.exchanges ▸ h.declared, hw.publishFault ▸ h.accepts, hw.bindings ▸ h.bound⟩

theorem Publisher.publish (h : Publisher exchange s j) (hs : s.broker.Sound)
    (hr : Routed kinds exchange queue s.broker) {e : Event} (he : e.kind ∈ kinds) :
    (publish j e s).1 = .ok () ∧ s.Upheld (s.perform (.publish j e)) ∧
      (s.perform (.publish j e)).broker.ready queue =
        s.broker.ready queue ++ [s.broker.copyFor e] := by
  obtain ⟨bus, hb, rfl, hopen, hf, hsession⟩ := h
  obtain ⟨b', hp⟩ : ∃ b', s.broker.publish bus.session bus.config.exchange (.ofEvent e) = .ok b' :=
    by simp [Broker.publish, hsession, hr.accepts, hr.declared]
  let c : SessionCall := .publish bus.config.exchange (Message.ofEvent e).routingKey
  have heq : publish j e s = (.ok (), (note { s with broker := b' } (.called j c none)).observe j
      [.published e.kind.name]) := by
    simp only [Network.publish, whileOpen, hb, hopen, publishOver, SessionCalls.publishEvent,
      Call.adapt_apply, calls, onSession', onSession, hf, takeFault, hp]
    rfl
  have hready := (hs.appended_publish hp).ready queue
  have hbound : { exchange := bus.config.exchange, key := (Message.ofEvent e).routingKey, queue } ∈
      s.broker.bindings := hr.bound e.kind he
  rw [Broker.brought, if_pos hbound] at hready
  have hpublished : s.Upheld (note { s with broker := b' } (.called j c none)) :=
    upheld_of_eq (Broker.publish_wired hp) rfl
  rw [perform, heq]
  refine ⟨rfl, hpublished.trans (upheld_observe ..), ?_⟩
  rw [observe_broker]
  exact hready

/-! ## More to attempt -/

theorem plan_append (tag : Nat) (jobs more : List (Job H)) :
    plan tag (jobs ++ more) = plan tag jobs ++ plan (tag + (plan tag jobs).length) more := by
  simp only [plan, List.flatMap_append, List.zipIdx_append, List.length_zipIdx]
  congr 2
  omega

/-- An attempt takes three turns, so the turns to go tell the tags that are still to come,
also while an attempt is under way. -/
theorem plan_more (tag : Nat) (jobs more : List (Job H)) {n left : Nat} (hleft : left < 3)
    (hn : n = 3 * (plan tag jobs).length + left) :
    plan tag (jobs ++ more) = plan tag jobs ++ plan (tag + n / 3) more ∧
      n + 3 * (plan (tag + n / 3) more).length = 3 * (plan tag (jobs ++ more)).length + left := by
  have hdiv : n / 3 = (plan tag jobs).length := by omega
  have hplan := plan_append tag jobs more
  rw [hdiv]
  refine ⟨hplan, ?_⟩
  rw [hplan, List.length_append]
  omega

theorem Work.append {run : H → Event → Call HandlerError σ Unit} {a b c : σ}
    {jobs more : List (Job H)} (h : Work run a jobs b) (h' : Work run b more c) :
    Work run a (jobs ++ more) c := by
  induction h with
  | done => exact h'
  | @attempt t t' u j jobs ran later ih =>
    have hrest := ih h'
    rw [List.append_assoc] at hrest
    exact .attempt ran hrest

def lastTag? (s : Network H) (i : Nat) : Option Nat :=
  (s.buses[i]?.bind fun b => s.broker.sessions[b.session]?).map (·.lastTag)

variable {run : H → Event → Call HandlerError σ Unit} {registry : Registry H}
  {told : List (Entry H)} {tag n : Nat} {held : List Broker.Held} {ready : List Copy} {a b c : σ}
  {came : List Copy} {more : List (Job H)}

theorem Serving.lastTag? {p : Position H} (h : Serving registry queue i k s p tag held ready) :
    s.lastTag? i = some tag := by
  obtain ⟨-, bus, st, x, hu, -, -, rfl, -⟩ := h
  simp [Network.lastTag?, (dispatcher?_eq_some.mp hu.dispatcher).1, hu.session]

theorem Stage.lastTag?_turn (h : Stage run i k registry queue told b (n + 1) came (s, a))
    (ht : s.lastTag? i = some tag) :
    ∃ tag', (Network.turn run i k (s, a)).1.lastTag? i = some tag' ∧
      tag' + n / 3 = tag + (n + 1) / 3 := by
  generalize hn : n + 1 = m at h
  cases h with
  | @between _ _ tag₁ jobs _ serving fits work log =>
    cases work with
    | done => simp [plan] at hn
    | @attempt _ t' _ j jobs ran later =>
      obtain rfl := Option.some.inj (serving.lastTag?.symm.trans ht)
      have hj := fits j List.mem_cons_self
      refine ⟨tag₁ + 1, ?_, by omega⟩
      rw [serving.turn_pulling]
      exact (serving.pull hj.found hj.decodes).1.lastTag?
  | @running _ _ tag₁ j jobs _ serving fits work log =>
    cases work with
    | @attempt _ t' _ _ _ ran later =>
      obtain rfl := Option.some.inj (serving.lastTag?.symm.trans ht)
      refine ⟨tag₁, ?_, by omega⟩
      rw [serving.turn_handling, ran]
      exact (serving.complete j.first.result).1.lastTag?
  | @resolving _ _ tag₁ j jobs _ serving fits work log =>
    obtain rfl := Option.some.inj (serving.lastTag?.symm.trans ht)
    refine ⟨tag₁, ?_, by omega⟩
    obtain ⟨copy, r, e, failures⟩ := j
    cases failures with
    | nil =>
      rw [serving.turn_acknowledging]
      exact serving.acknowledge.1.lastTag?
    | cons error later =>
      rw [serving.turn_pausing]
      exact serving.resume.1.lastTag?

theorem Stage.extend (h : Stage run i k registry queue told b n (more.map (·.copy)) (s, a))
    (ht : s.lastTag? i = some tag) (fits : ∀ j ∈ more, j.Fits registry) (work : Work run b more c) :
    Stage run i k registry queue
      (told ++ (plan (tag + n / 3) more).flatMap (Attempt.log i k)) c
      (n + 3 * (plan (tag + n / 3) more).length) [] (s, a) := by
  have hfit {js : List (Job H)} (hjs : ∀ j ∈ js, j.Fits registry) :
      ∀ j ∈ js ++ more, j.Fits registry := fun j hj =>
    (List.mem_append.mp hj).elim (hjs j) (fits j)
  cases h with
  | @between _ _ tag₁ jobs _ serving hfits hwork log =>
    obtain rfl := Option.some.inj (serving.lastTag?.symm.trans ht)
    obtain ⟨hplan, hturns⟩ := plan_more tag₁ jobs more (by decide : 0 < 3) (Nat.add_zero _).symm
    rw [hturns, Nat.add_zero]
    refine .between ?_ (hfit hfits) (hwork.append work) ?_
    · rwa [List.append_nil, List.map_append]
    · rw [hplan, List.flatMap_append, ← List.append_assoc, log]
  | @running _ _ tag₁ j jobs _ serving hfits hwork log =>
    obtain rfl := Option.some.inj (serving.lastTag?.symm.trans ht)
    obtain ⟨hplan, hturns⟩ := plan_more tag₁ (j.rest ++ jobs) more (by decide : 2 < 3) rfl
    rw [hturns]
    rw [List.append_assoc] at hplan ⊢
    refine .running ?_ (hfit hfits) (hwork.append work) ?_
    · rwa [List.append_nil, List.map_append]
    · rw [hplan, List.flatMap_append, ← log]
      simp
  | @resolving _ _ tag₁ j jobs _ serving hfits hwork log =>
    obtain rfl := Option.some.inj (serving.lastTag?.symm.trans ht)
    obtain ⟨hplan, hturns⟩ := plan_more tag₁ (j.rest ++ jobs) more (by decide : 1 < 3) rfl
    rw [hturns]
    have hfits' := hfit hfits
    have hwork' := hwork.append work
    rw [List.append_assoc] at hplan hfits' hwork' ⊢
    refine .resolving ?_ hfits' hwork' ?_
    · rwa [List.append_nil, List.map_append]
    · rw [hplan, List.flatMap_append, ← log]
      simp

/-! ## Nothing to attempt -/

theorem Serving.pull_nothing (h : Serving registry queue i k s .pulling tag [] []) :
    Serving registry queue i k (s.pull i k) .pulling tag [] [] ∧
      (s.pull i k).log i k = s.log i k := by
  have hsound := h.sound_perform (.pull i k)
  obtain ⟨hs, bus, st, x, hu, rfl, rfl, rfl, hfree, hready⟩ := h
  have hdisp := hs.dispatchers i k bus _ hu.dispatcher
  have hsession : st.session = bus.session := hdisp.session
  have hqueue : st.queue = bus.config.topology.queue.name := hdisp.queue
  obtain ⟨st', hpoll, hepoch⟩ := Broker.poll_eq_pending (hsession ▸ hu.session) hu.isOpen
    hu.current.symm hu.delivers (hqueue ▸ hready)
  have hpull : s.pull i k = s.onDispatcher i k fun d => { d with stream := st' } :=
    pull_eq_take hu.dispatcher hu.runs hpoll
  have hd := dispatcher?_onDispatcher hu.dispatcher fun d => { d with stream := st' }
  rw [perform, hpull] at hsound
  rw [hpull]
  refine ⟨⟨hsound, _, st', x, ⟨hd, hu.faultless, hu.runs, hu.session, hu.isOpen, ?_, hu.delivers,
    hu.declared⟩, rfl, rfl, rfl, hfree, hready⟩, rfl⟩
  exact hepoch.trans hu.current

theorem Serving.through (h : Serving registry queue i k s .pulling tag [] []) (a : σ) :
    Stage run i k registry queue (s.log i k) a 0 [] (s, a) := by
  have hplan : 3 * (plan tag ([] : List (Job H))).length = 0 := rfl
  rw [← hplan]
  exact .between h (List.forall_mem_nil _) (.done a) (List.append_nil _)

theorem Stage.rest (h : Stage run i k registry queue told b 0 [] (s, a)) :
    Stage run i k registry queue told b 0 [] (Network.turn run i k (s, a)) ∧
      (Network.turn run i k (s, a)).1.lastTag? i = s.lastTag? i := by
  obtain ⟨⟨tag, hserving⟩, rfl, rfl⟩ := h.done
  obtain ⟨hrest, hlog⟩ := hserving.pull_nothing
  rw [hserving.turn_pulling, hrest.lastTag?, hserving.lastTag?, ← hlog]
  exact ⟨hrest.through a, rfl⟩

/-! ## What is due -/

theorem Stage.sound (h : Stage run i k registry queue told b n came (s, a)) : s.broker.Sound := by
  cases h with
  | between serving | running serving | resolving serving => exact serving.1.broker

theorem Announced.lastTag? (h : s.Announced t) (i : Nat) : t.lastTag? i = s.lastTag? i := by
  obtain ⟨faults, hbus, -⟩ := h.buses i
  have hsessions : t.broker.sessions = s.broker.sessions := by
    rcases h.broker with hsame | ⟨exchange, key, typeTag, body, happended⟩
    · rw [hsame]
    · exact happended.sessions
  simp only [Network.lastTag?, hbus, hsessions]
  cases s.buses[i]? <;> rfl

/-- A dispatcher that is through with all there is in `n` turns, after which `told` has been
logged, the handlers are in state `b`, and the last delivery had the tag `last`. -/
structure Due (run : H → Event → Call HandlerError σ Unit) (i k : Nat) (registry : Registry H)
    (queue : String) (told : List (Entry H)) (last : Nat) (b : σ) (n : Nat)
    (state : Network H × σ) : Prop where
  stage : Stage run i k registry queue told b n [] state
  tag : ∃ tag, state.1.lastTag? i = some tag ∧ tag + n / 3 = last

variable {last : Nat} {state : Network H × σ}

theorem Serving.due (h : Serving registry queue i k s .pulling tag [] []) (a : σ) :
    Due run i k registry queue (s.log i k) tag a 0 (s, a) :=
  ⟨h.through a, tag, h.lastTag?, rfl⟩

theorem Due.turn (h : Due run i k registry queue told last b n state) :
    Due run i k registry queue told last b (n - 1) (Network.turn run i k state) := by
  obtain ⟨s, a⟩ := state
  obtain ⟨tag, htag, hlast⟩ := h.tag
  cases n with
  | zero =>
    obtain ⟨hstage, hsame⟩ := h.stage.rest
    exact ⟨hstage, tag, hsame.trans htag, hlast⟩
  | succ n =>
    obtain ⟨tag', htag', heq⟩ := h.stage.lastTag?_turn htag
    exact ⟨h.stage.turn, tag', htag', heq.trans hlast⟩

/-- What is published gets its turn when all before it is through. -/
theorem Due.publish (h : Due run i k registry queue told last b n (s, a))
    (hp : Publisher exchange s j) (hr : Routed kinds exchange queue s.broker) {e : Event}
    (he : e.kind ∈ kinds) {job : Job H} (hcopy : job.copy = s.broker.copyFor e)
    (fits : job.Fits registry) (work : Work run b [job] c) :
    ∃ n', Due run i k registry queue (told ++ (plan last [job]).flatMap (Attempt.log i k))
      (last + (plan last [job]).length) c n' (s.perform (.publish j e), a) := by
  obtain ⟨tag, htag, rfl⟩ := h.tag
  have hs := h.stage.sound
  obtain ⟨-, -, hready⟩ := hp.publish hs hr he
  have hstage := h.stage.announced (a := .publish j e) rfl
  have hcopies : [s.broker.copyFor e] = [job].map (·.copy) := by rw [List.map_singleton, hcopy]
  rw [hready, List.drop_left, List.nil_append, hcopies] at hstage
  have htag' : (s.perform (.publish j e)).lastTag? i = some tag :=
    ((announced_perform hs rfl).lastTag? i).trans htag
  have hmore := hstage.extend htag' (List.forall_mem_singleton.mpr fits) work
  refine ⟨_, hmore, tag, htag', ?_⟩
  omega

theorem Due.turns (h : Due run i k registry queue told last b n state) (m : Nat) :
    Due run i k registry queue told last b (n - m) (play run i k state (.replicate m .turn)) := by
  induction m generalizing n state with
  | zero => exact h
  | succ m ih =>
    have hrest := ih h.turn
    rw [Nat.sub_sub, Nat.add_comm 1 m] at hrest
    exact hrest

theorem Due.finish (h : Due run i k registry queue told last b n state) (m : Nat) :
    let later := play run i k state (.replicate m .turn)
    (m < n → later.1.Busy i k queue) ∧
    (n ≤ m → later.1.Drained i k queue ∧ later.1.log i k = told ∧ later.2 = b) := by
  intro later
  have hlater : Stage run i k registry queue told b (n - m) [] later := (h.turns m).stage
  refine ⟨fun hm => ?_, fun hm => ?_⟩
  · obtain ⟨l, hl⟩ := Nat.exists_eq_succ_of_ne_zero (Nat.sub_ne_zero_of_lt hm)
    rw [hl] at hlater
    exact hlater.busy
  · rw [Nat.sub_eq_zero_of_le hm] at hlater
    obtain ⟨⟨tag, hserving⟩, hlog, hstate⟩ := Stage.done hlater
    exact ⟨hserving.drained, hlog, hstate⟩

end Network
end CargoEvents
