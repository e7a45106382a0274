import CargoEvents.Proofs.Broker.Signals
import CargoEvents.Proofs.Bus.Calls

/-! # What dispatchers can do

Each step of a dispatcher is a move: from one position to the next, with what it asks of
the broker and what it notes. `perform_effect` says once what any act can do to a network.
-/
namespace CargoEvents.Network
variable {H : Type}
open Broker (Action Polled Stream)

/-- Dispatcher `k` of bus `i` was changed by `f`, and no other was. -/
def Reworked (i k : Nat) (f : Dispatcher H → Dispatcher H) (s s' : Network H) : Prop :=
  ∀ (j : Nat) (b' : Bus H), s'.buses[j]? = some b' → ∃ b, s.buses[j]? = some b ∧
    b'.config = b.config ∧ b'.session = b.session ∧ b'.registry = b.registry ∧
    b'.dispatchers = if j = i then b.dispatchers.modify k f else b.dispatchers

theorem Reworked.trans {i k : Nat} {f g : Dispatcher H → Dispatcher H} {s t u : Network H}
    (h : Reworked i k f s t) (h' : Reworked i k g t u) : Reworked i k (g ∘ f) s u := by
  intro j b'' hb''
  obtain ⟨b', hb', hc', hs', hr', hd'⟩ := h' j b'' hb''
  obtain ⟨b, hb, hc, hs, hr, hd⟩ := h j b' hb'
  refine ⟨b, hb, hc'.trans hc, hs'.trans hs, hr'.trans hr, ?_⟩
  rw [hd', hd]
  split
  · rw [List.modify_modify_eq]
  · rfl

theorem reworked_onBus (s : Network H) (i k : Nat) {g : Bus H → Bus H} {f : Dispatcher H → Dispatcher H}
    (hg : ∀ b, (g b).config = b.config ∧ (g b).session = b.session ∧ (g b).registry = b.registry ∧
      (g b).dispatchers = b.dispatchers.modify k f) : Reworked i k f s (s.onBus i g) := by
  intro j b' hb'
  rw [onBus, List.getElem?_modify] at hb'
  obtain ⟨b, hb, rfl⟩ := Option.map_eq_some_iff.mp hb'
  refine ⟨b, hb, ?_⟩
  by_cases hij : j = i
  · simpa [hij] using hg b
  · simp [hij, Ne.symm hij]

theorem reworked_of_eq {i k : Nat} {s s' : Network H} (h : s'.buses = s.buses) :
    Reworked i k id s s' := by
  intro j b' hb'
  exact ⟨b', h ▸ hb', rfl, rfl, rfl, by simp [List.modify_id]⟩

def entering (i k : Nat) : Position H → List (Entry H)
  | .handling d r e => [.entered i k d r e]
  | _ => []

def received (registry : Registry H) (i k : Nat) : Polled → Position H × List (Entry H)
  | .delivery d =>
    ((registry.accept d).1, .pulled i k d :: entering i k (registry.accept d).1)
  | .ended => (.ended, [])
  | .pending | .fault _ => (.pulling, [])

/-- A step of dispatcher `k` of `bus`, which has number `i`: what becomes of the broker, of
the dispatcher's stream and of its position, and what it notes. -/
inductive Move (b : Broker) (bus : Bus H) (i k : Nat) (st : Stream) :
    Position H → Act H → Broker → Stream → Position H → List (Entry H) → Prop
  | stopped (hs : bus.shutdown) : Move b bus i k st .pulling (.pull i k) b st .ended []
  | looked {polled : Polled} {st' : Stream} {b' : Broker} (hs : bus.shutdown = false)
      (hy : b.poll st = (polled, st', b')) :
      Move b bus i k st .pulling (.pull i k) b' st' (received bus.registry i k polled).1
        (received bus.registry i k polled).2
  | completed (d : Broker.Delivery) (r : Registration H) (e : Event) (result : Except HandlerError Unit) :
      Move b bus i k st (.handling d r e) (.complete i k result) b st (.afterRun d r result)
        [.left i k d result]
  | panicked (d : Broker.Delivery) (r : Registration H) (e : Event) :
      Move b bus i k st (.handling d r e) (.panic i k) b st .ended [.panicked i k d]
  | acknowledged (d : Broker.Delivery) :
      Move b bus i k st (.acknowledging d) (.acknowledge i k)
        (b.act (.resolve bus.session d.tag .ack)) st .pulling []
  | unacknowledged (d : Broker.Delivery) :
      Move b bus i k st (.acknowledging d) (.acknowledge i k) b st .pulling []
  | resumed (d : Broker.Delivery) (v : Verdict) :
      Move b bus i k st (.pausing d v) (.resume i k)
        (b.act (.resolve bus.session d.tag (.nack true))) st .pulling []
  | unresumed (d : Broker.Delivery) (v : Verdict) :
      Move b bus i k st (.pausing d v) (.resume i k) b st .pulling []

/-- How the call that resolves a delivery at this position is recorded. A refusal is reported
unless the bus stops. -/
def resolving (bus : Bus H) (i : Nat) (refusal : Option BrokerError) : Position H → List (Entry H)
  | .acknowledging d => .called i (.ack d.tag) refusal :: refused
  | .pausing d _ => .called i (.nack d.tag true) refusal :: refused
  | .pulling | .handling .. | .ended => []
where
  refused : List (Entry H) :=
    if bus.shutdown then [] else refusal.toList.map fun e => .reported i (.acknowledgementFailed e)

/-- A network after a move of dispatcher `k` of `bus` from position `p`. -/
structure Moved (bus : Bus H) (i k : Nat) (p : Position H) (b' : Broker) (st' : Stream)
    (p' : Position H) (es : List (Entry H)) (s s' : Network H) : Prop where
  broker : s'.broker = b'
  buses : Reworked i k (fun _ => { stream := st', position := p' }) s s'
  told : ∃ refusal, ∀ {α : Type} {f : Entry H → Option α}, OfDeliveries f →
    s'.told f = s.told f ++ (es ++ resolving bus i refusal p).filterMap f

theorem Moved.diary {bus : Bus H} {i k : Nat} {p p' : Position H} {b' : Broker} {st' : Stream}
    {es : List (Entry H)} {s s' : Network H} (h : Moved bus i k p b' st' p' es s s') (j l : Nat) :
    s'.diary j l = s.diary j l ++ es.filterMap (Entry.by? j l) := by
  obtain ⟨refusal, htold⟩ := h.told
  have hrefused : (resolving.refused bus i refusal).filterMap (Entry.by? j l) = [] := by
    unfold resolving.refused
    split
    · rfl
    · simp [Entry.by?]
  have hnone : (resolving bus i refusal p).filterMap (Entry.by? j l) = [] := by
    cases p with
    | pulling | handling | ended => rfl
    | acknowledging | pausing => exact hrefused
  have hdiary := htold (ofDeliveries_by j l)
  rwa [List.filterMap_append, hnone, List.append_nil] at hdiary

theorem dispatcher?_eq_some {s : Network H} {i k : Nat} {bus : Bus H} {d : Dispatcher H} :
    s.dispatcher? i k = some (bus, d) ↔ s.buses[i]? = some bus ∧ bus.dispatchers[k]? = some d := by
  simp only [dispatcher?, Option.bind_eq_bind, Option.bind_eq_some_iff, Option.pure_def,
    Option.some.injEq, Prod.mk.injEq]
  constructor
  · rintro ⟨b, hb, d', hd', rfl, rfl⟩
    exact ⟨hb, hd'⟩
  · rintro ⟨hb, hd⟩
    exact ⟨bus, hb, d, hd, rfl, rfl⟩

theorem move_reworked (s : Network H) (i k : Nat) (p : Position H) :
    Reworked i k (fun d => { d with position := p }) s (s.move i k p) :=
  reworked_onBus s i k fun _ => ⟨rfl, rfl, rfl, rfl⟩

theorem Reworked.known {i k : Nat} {s s' : Network H} {bus : Bus H} {d d' : Dispatcher H}
    {f : Dispatcher H → Dispatcher H} (hd : s.dispatcher? i k = some (bus, d))
    (h : Reworked i k f s s') (hf : f d = d') : Reworked i k (fun _ => d') s s' := by
  intro j b' hb'
  obtain ⟨b, hb, hc, hs, hr, hds⟩ := h j b' hb'
  refine ⟨b, hb, hc, hs, hr, hds.trans ?_⟩
  split
  · rename_i hji
    obtain ⟨hbus, hk⟩ := dispatcher?_eq_some.mp hd
    obtain rfl : b = bus := Option.some.inj (hb.symm.trans (hji ▸ hbus))
    refine List.ext_getElem? fun l => ?_
    simp only [List.getElem?_modify]
    by_cases hkl : k = l
    · subst hkl
      simp [hk, hf]
    · simp [hkl]
  · rfl

theorem Moved.of_move {s t : Network H} {i k : Nat} {bus : Bus H} {st : Stream}
    {p p' : Position H} {es : List (Entry H)} {b' : Broker}
    (hd : s.dispatcher? i k = some (bus, { stream := st, position := p }))
    (hbroker : t.broker = b') (hbuses : Reworked i k id s t)
    (htold : ∃ refusal, ∀ {α : Type} {f : Entry H → Option α}, OfDeliveries f →
      t.told f = s.told f ++ (es ++ resolving bus i refusal p).filterMap f) :
    Moved bus i k p b' st p' es s (t.move i k p') :=
  ⟨hbroker, .known hd (hbuses.trans (move_reworked t i k p')) rfl, htold⟩

theorem completed_moved (s : Network H) {i k : Nat} {bus : Bus H} {st : Stream}
    {d : Broker.Delivery} {r : Registration H} {e : Event}
    (hd : s.dispatcher? i k = some (bus, { stream := st, position := .handling d r e }))
    (result : Except HandlerError Unit) :
    Moved bus i k (.handling d r e) s.broker st (.afterRun d r result) [.left i k d result] s
      (s.complete i k result) := by
  simp only [complete, hd]
  refine .of_move hd (by simp) (reworked_of_eq (by simp)) ⟨none, fun hf => ?_⟩
  rw [told_observe _ _ _ (hf.observed i), told_note]
  rfl

theorem panicked_moved (s : Network H) {i k : Nat} {bus : Bus H} {st : Stream}
    {d : Broker.Delivery} {r : Registration H} {e : Event}
    (hd : s.dispatcher? i k = some (bus, { stream := st, position := .handling d r e })) :
    Moved bus i k (.handling d r e) s.broker st .ended [.panicked i k d] s (s.panic i k) := by
  simp only [panic, hd]
  exact .of_move hd rfl (reworked_of_eq rfl) ⟨none, fun _ => told_note ..⟩

/-- Resolving reaches the broker, unless the bus meets a fault, and changes nothing of the
dispatchers. The call is recorded, and a refusal of it is reported. -/
theorem settle_cases {s : Network H} {i : Nat} {bus : Bus H} (hb : s.buses[i]? = some bus)
    (k : Nat) (d : Broker.Delivery) (how : Broker.Resolution) (observed : List Observation) :
    let s' := s.settle i bus d how observed
    (s'.broker = s.broker ∨ s'.broker = s.broker.act (.resolve bus.session d.tag how)) ∧
    Reworked i k id s s' ∧ ∃ refusal, ∀ {α : Type} {f : Entry H → Option α}, OfDeliveries f →
      s'.told f = s.told f ++ (.called i (.ofResolution d.tag how) refusal ::
        resolving.refused bus i refusal).filterMap f := by
  have hresolve : ((resolve i d.tag how s).2.broker = s.broker ∨
      (resolve i d.tag how s).2.broker = s.broker.act (.resolve bus.session d.tag how)) ∧
      Reworked i k id s (resolve i d.tag how s).2 ∧
      ∃ refusal, (resolve i d.tag how s).2.history =
          .called i (.ofResolution d.tag how) refusal :: s.history ∧
        refusalReport bus.shutdown (resolve i d.tag how s).1 =
          if bus.shutdown then [] else refusal.toList.map .acknowledgementFailed := by
    simp only [resolve, onSession', onSession, hb]
    split
    · refine ⟨.inl rfl, ?_, _, rfl, rfl⟩
      exact (reworked_onBus s i k fun _ => ⟨rfl, rfl, rfl, (List.modify_id ..).symm⟩)
    · cases hr : s.broker.resolve bus.session d.tag how with
      | error e => exact ⟨.inl rfl, reworked_of_eq rfl, _, rfl, rfl⟩
      | ok b' =>
        refine ⟨.inr ?_, reworked_of_eq rfl, none, rfl, ?_⟩
        · simp only [Broker.act, hr]
          rfl
        · cases bus.shutdown <;> rfl
  unfold settle
  generalize resolve i d.tag how s = resolved at hresolve
  obtain ⟨result, t⟩ := resolved
  obtain ⟨hbroker, hbuses, refusal, hhistory, hreport⟩ := hresolve
  refine ⟨by simpa using hbroker, hbuses.trans (reworked_of_eq (by simp)), refusal,
    fun {_ f} hf => ?_⟩
  have htold : t.told f = s.told f ++ [.called i (.ofResolution d.tag how) refusal].filterMap f := by
    rw [← told_note, told, told, hhistory]
    rfl
  have hrefused : ((refusalReport bus.shutdown result).filterMap fun e => f (.reported i e)) =
      (resolving.refused bus i refusal).filterMap f := by
    rw [hreport, resolving.refused]
    cases bus.shutdown with
    | true => rfl
    | false => cases refusal <;> rfl
  dsimp only
  rw [told_report _ _ _ hf.logged, told_observe _ _ _ (hf.observed i), htold, hrefused,
    List.append_assoc, ← List.filterMap_append]
  rfl

theorem acknowledged_moved (s : Network H) {i k : Nat} {bus : Bus H} {st : Stream}
    {d : Broker.Delivery}
    (hd : s.dispatcher? i k = some (bus, { stream := st, position := .acknowledging d })) :
    ∃ b', Move s.broker bus i k st (.acknowledging d) (.acknowledge i k) b' st .pulling [] ∧
      Moved bus i k (.acknowledging d) b' st .pulling [] s (s.acknowledge i k) := by
  have hb := (dispatcher?_eq_some.mp hd).1
  obtain ⟨hbroker, hbuses, refusal, htold⟩ := settle_cases hb k d .ack [.delivery d.kind .ack]
  simp only [acknowledge, hd]
  rcases hbroker with h | h
  · exact ⟨_, .unacknowledged d, .of_move hd h hbuses ⟨refusal, htold⟩⟩
  · exact ⟨_, .acknowledged d, .of_move hd h hbuses ⟨refusal, htold⟩⟩

theorem resumed_moved (s : Network H) {i k : Nat} {bus : Bus H} {st : Stream}
    {d : Broker.Delivery} {v : Verdict}
    (hd : s.dispatcher? i k = some (bus, { stream := st, position := .pausing d v })) :
    ∃ b', Move s.broker bus i k st (.pausing d v) (.resume i k) b' st .pulling [] ∧
      Moved bus i k (.pausing d v) b' st .pulling [] s (s.resume i k) := by
  have hb := (dispatcher?_eq_some.mp hd).1
  obtain ⟨hbroker, hbuses, refusal, htold⟩ :=
    settle_cases hb k d (.nack true) (v.observed d.kind)
  simp only [resume, hd]
  have hbuses := hbuses.trans (reworked_of_eq (report_buses _ i (v.report d.tag)))
  -- What the verdict reports is no refusal.
  have hverdict {α : Type} {f : Entry H → Option α} (hf : OfDeliveries f) :
      (v.report d.tag).filterMap (fun e => f (.reported i e)) = [] := by
    cases v with
    | unroutable => rfl
    | undecodable e => simp [Verdict.report, hf.reported]
    | failed key e => simp [Verdict.report, hf.reported]
  have htold : ∃ refusal, ∀ {α : Type} {f : Entry H → Option α}, OfDeliveries f →
      ((s.settle i bus d (.nack true) (v.observed d.kind)).report i (v.report d.tag)).told f =
        s.told f ++ ([] ++ resolving bus i refusal (.pausing d v)).filterMap f := by
    refine ⟨refusal, fun hf => ?_⟩
    rw [told_report _ _ _ hf.logged, hverdict hf, List.append_nil]
    exact htold hf
  rcases hbroker with h | h
  · exact ⟨_, .unresumed d v, .of_move hd (by simp [h]) hbuses htold⟩
  · exact ⟨_, .resumed d v, .of_move hd (by simp [h]) hbuses htold⟩

theorem take_moved {s t : Network H} {i k : Nat} {bus : Bus H} {st st' : Stream} (polled : Polled)
    (hd : s.dispatcher? i k = some (bus, { stream := st, position := .pulling }))
    (hbuses : Reworked i k (fun d => { d with stream := st' }) s t)
    (hb : t.buses[i]? ≠ none) (hhistory : t.history = s.history) :
    Moved bus i k .pulling t.broker st' (received bus.registry i k polled).1
      (received bus.registry i k polled).2 s (t.take i k polled) := by
  have hmoved (u : Network H) (p' : Position H) (h : Reworked i k id t u) :
      Reworked i k (fun _ => { stream := st', position := p' }) s (u.move i k p') :=
    .known hd ((hbuses.trans h).trans (move_reworked u i k p')) rfl
  have htold {α : Type} (f : Entry H → Option α) : t.told f = s.told f := by
    rw [told, told, hhistory]
  cases polled with
  | pending =>
    refine ⟨rfl, .known hd hbuses rfl, none, fun {_ f} _ => ?_⟩
    exact (htold f).trans (List.append_nil _).symm
  | fault e =>
    refine ⟨by simp [take], .known hd (hbuses.trans (reworked_of_eq (by simp [take]))) rfl, none,
      fun {_ f} hf => ?_⟩
    simp only [take, received]
    rw [told_report _ _ _ hf.logged, told_observe _ _ _ (hf.observed i), htold]
    simp [hf.reported, resolving]
  | ended =>
    refine ⟨rfl, hmoved _ _ ?_, none, fun {_ f} _ => ?_⟩
    · refine reworked_onBus t i k fun b => ?_
      split <;> exact ⟨rfl, rfl, rfl, (List.modify_id ..).symm⟩
    · exact (htold f).trans (List.append_nil _).symm
  | delivery d =>
    obtain ⟨b, hb⟩ := Option.ne_none_iff_exists'.mp hb
    have hregistry : b.registry = bus.registry := by
      obtain ⟨b₀, hb₀, -, -, hr, -⟩ := hbuses i b hb
      rw [hr, Option.some.inj (hb₀.symm.trans (dispatcher?_eq_some.mp hd).1)]
    simp only [take, received, note_buses, hb, hregistry]
    generalize (bus.registry.accept d) = accepted
    obtain ⟨p', observed⟩ := accepted
    have hnoted (u : Network H) (hu : u.broker = t.broker) (hbuses : u.buses = t.buses)
        (hnotes : ∀ {α : Type} (f : Entry H → Option α), u.told f =
          t.told f ++ (Entry.pulled i k d :: entering i k p').filterMap f) :
        Moved bus i k .pulling t.broker st' p' (.pulled i k d :: entering i k p') s
          ((u.observe i observed).move i k p') := by
      refine ⟨by simpa [move, onDispatcher, onBus] using hu, hmoved _ _ (reworked_of_eq ?_), none,
        fun {_ f} hf => ?_⟩
      · simpa using hbuses
      · rw [resolving, List.append_nil, ← htold f, ← hnotes f]
        exact told_observe u i observed (hf.observed i)
    cases p' with
    | handling d' r e =>
      refine hnoted _ rfl rfl fun f => ?_
      rw [told_note, told_note, List.append_assoc, ← List.filterMap_append]
      rfl
    | pulling | acknowledging | pausing | ended => exact hnoted _ rfl rfl fun f => told_note ..

theorem pulled_moved (s : Network H) {i k : Nat} {bus : Bus H} {st : Stream}
    (hd : s.dispatcher? i k = some (bus, { stream := st, position := .pulling })) :
    ∃ b' st' p' es, Move s.broker bus i k st .pulling (.pull i k) b' st' p' es ∧
      Moved bus i k .pulling b' st' p' es s (s.pull i k) := by
  obtain ⟨hb, hk⟩ := dispatcher?_eq_some.mp hd
  simp only [pull, hd]
  split <;> rename_i hstop
  · refine ⟨_, _, _, _, .stopped hstop, .of_move hd rfl (reworked_of_eq rfl) ⟨none, fun _ => ?_⟩⟩
    exact (List.append_nil _).symm
  · obtain ⟨polled, st', b', hy⟩ : ∃ polled st' b', s.broker.poll st = (polled, st', b') :=
      ⟨_, _, _, rfl⟩
    rw [hy]
    have hstream := reworked_onBus { s with broker := b' } i k
      (g := fun b => { b with dispatchers := b.dispatchers.modify k fun d => { d with stream := st' } })
      fun _ => ⟨rfl, rfl, rfl, rfl⟩
    refine ⟨b', st', _, _, 
      .looked (Bool.eq_false_iff.mpr hstop) hy, take_moved polled hd hstream ?_ rfl⟩
    simp [onBus, hb]

/-! ## Any act -/

inductive Effect (s : Network H) : Act H → Network H → Prop
  | quiet {a : Act H} {s' : Network H} (h : s.Quiet s') : Effect s a s'
  | subscribed {i : Nat} {kind : EventKind} {handler : H} {s' : Network H} (h : s.Quiet s') :
      Effect s (.subscribe i kind handler) (s'.onBus i (withHandler kind handler))
  | started {i : Nat} {bus : Bus H} {st : Stream} {s' : Network H} (h : s.Called s')
      (hb : s.buses[i]? = some bus)
      (hst : s.broker.consume bus.session bus.config.topology.queue.name = .ok st) :
      Effect s (.start i) (s'.onBus i (withDispatcher st))
  | beside (a : Action) : Effect s (.beside a) { s with broker := s.broker.act a }
  | moved {a : Act H} {i k : Nat} {bus : Bus H} {st st' : Stream} {p p' : Position H}
      {b' : Broker} {es : List (Entry H)} {s' : Network H}
      (hd : s.dispatcher? i k = some (bus, { stream := st, position := p }))
      (hm : Move s.broker bus i k st p a b' st' p' es)
      (hs : Moved bus i k p b' st' p' es s s') :
      Effect s a s'

/-- What a step of dispatcher `k` of bus `i` does: a move, or nothing if the dispatcher is not
where the step begins. -/
inductive Dispatched (s : Network H) (a : Act H) (i k : Nat) : Network H → Prop
  | idle : Dispatched s a i k s
  | moved {bus : Bus H} {st st' : Stream} {p p' : Position H} {b' : Broker}
      {es : List (Entry H)} {s' : Network H}
      (hd : s.dispatcher? i k = some (bus, { stream := st, position := p }))
      (hm : Move s.broker bus i k st p a b' st' p' es)
      (hs : Moved bus i k p b' st' p' es s s') :
      Dispatched s a i k s'

theorem pull_dispatched (s : Network H) (i k : Nat) :
    Dispatched s (.pull i k) i k (s.pull i k) := by
  cases hd : s.dispatcher? i k with
  | none => simpa only [pull, hd] using .idle
  | some found =>
    obtain ⟨bus, st, p⟩ := found
    cases p with
    | pulling =>
      obtain ⟨b', st', p', es, hm, hs⟩ := s.pulled_moved hd
      exact .moved hd hm hs
    | handling | acknowledging | pausing | ended => simpa only [pull, hd] using .idle

theorem complete_dispatched (s : Network H) (i k : Nat) (result : Except HandlerError Unit) :
    Dispatched s (.complete i k result) i k (s.complete i k result) := by
  cases hd : s.dispatcher? i k with
  | none => simpa only [complete, hd] using .idle
  | some found =>
    obtain ⟨bus, st, p⟩ := found
    cases p with
    | handling d r e =>
      exact .moved hd (.completed d r e result) (s.completed_moved hd result)
    | pulling | acknowledging | pausing | ended => simpa only [complete, hd] using .idle

theorem panic_dispatched (s : Network H) (i k : Nat) :
    Dispatched s (.panic i k) i k (s.panic i k) := by
  cases hd : s.dispatcher? i k with
  | none => simpa only [panic, hd] using .idle
  | some found =>
    obtain ⟨bus, st, p⟩ := found
    cases p with
    | handling d r e => exact .moved hd (.panicked d r e) (s.panicked_moved hd)
    | pulling | acknowledging | pausing | ended => simpa only [panic, hd] using .idle

theorem acknowledge_dispatched (s : Network H) (i k : Nat) :
    Dispatched s (.acknowledge i k) i k (s.acknowledge i k) := by
  cases hd : s.dispatcher? i k with
  | none => simpa only [acknowledge, hd] using .idle
  | some found =>
    obtain ⟨bus, st, p⟩ := found
    cases p with
    | acknowledging d =>
      obtain ⟨b', hm, hs⟩ := s.acknowledged_moved hd
      exact .moved hd hm hs
    | pulling | handling | pausing | ended => simpa only [acknowledge, hd] using .idle

theorem resume_dispatched (s : Network H) (i k : Nat) :
    Dispatched s (.resume i k) i k (s.resume i k) := by
  cases hd : s.dispatcher? i k with
  | none => simpa only [resume, hd] using .idle
  | some found =>
    obtain ⟨bus, st, p⟩ := found
    cases p with
    | pausing d v =>
      obtain ⟨b', hm, hs⟩ := s.resumed_moved hd
      exact .moved hd hm hs
    | pulling | handling | acknowledging | ended => simpa only [resume, hd] using .idle

def Act.isStepOf (i : Nat) : Act H → Bool
  | .pull j _ | .complete j .. | .panic j _ | .acknowledge j _ | .resume j _ => i == j
  | _ => false

theorem perform_dispatched (s : Network H) {a : Act H} {i : Nat} (ha : a.isStepOf i) :
    ∃ k, Dispatched s a i k (s.perform a) := by
  cases a with
  | pull j k =>
    obtain rfl : i = j := by simpa [Act.isStepOf] using ha
    exact ⟨k, s.pull_dispatched i k⟩
  | complete j k result =>
    obtain rfl : i = j := by simpa [Act.isStepOf] using ha
    exact ⟨k, s.complete_dispatched i k result⟩
  | panic j k =>
    obtain rfl : i = j := by simpa [Act.isStepOf] using ha
    exact ⟨k, s.panic_dispatched i k⟩
  | acknowledge j k =>
    obtain rfl : i = j := by simpa [Act.isStepOf] using ha
    exact ⟨k, s.acknowledge_dispatched i k⟩
  | resume j k =>
    obtain rfl : i = j := by simpa [Act.isStepOf] using ha
    exact ⟨k, s.resume_dispatched i k⟩
  | _ => simp [Act.isStepOf] at ha

theorem Dispatched.effect {s s' : Network H} {a : Act H} {i k : Nat}
    (h : Dispatched s a i k s') : Effect s a s' := by
  cases h with
  | idle => exact .quiet (.refl s)
  | moved hd hm hs => exact .moved hd hm hs

/-- All that an act can do. -/
theorem perform_effect (s : Network H) (a : Act H) : Effect s a (s.perform a) := by
  cases a with
  | build config sink faults => exact .quiet (s.build_quiet config sink faults)
  | publish i e => exact .quiet (s.publish_quiet i e)
  | publishOver i e => exact .quiet (s.publishOver_quiet i e)
  | subscribe i kind handler =>
    simp only [perform]
    rcases s.subscribe_cases i kind handler with h | ⟨s', h, he⟩
    · exact .quiet h
    · rw [he]
      exact .subscribed h
  | start i =>
    simp only [perform]
    rcases s.start_cases i with h | ⟨s', bus, st, h, hb, hst, he⟩
    · exact .quiet h
    · rw [he]
      exact .started h hb hst
  | restore i => exact .quiet (s.restore_quiet i)
  | beginClose i => exact .quiet (s.beginClose_quiet i)
  | finishClose i => exact .quiet (s.finishClose_quiet i)
  | drop i => exact .quiet (quiet_onBus s i fun b => ⟨rfl, rfl, rfl, rfl⟩)
  | fault i faults => exact .quiet (quiet_onBus s i fun b => ⟨rfl, rfl, rfl, rfl⟩)
  | beside a => exact .beside a
  | pull i k => exact (s.pull_dispatched i k).effect
  | complete i k result => exact (s.complete_dispatched i k result).effect
  | panic i k => exact (s.panic_dispatched i k).effect
  | acknowledge i k => exact (s.acknowledge_dispatched i k).effect
  | resume i k => exact (s.resume_dispatched i k).effect

end CargoEvents.Network
