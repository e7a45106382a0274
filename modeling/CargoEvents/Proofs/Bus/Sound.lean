import CargoEvents.Proofs.Bus.Moves

/-! # Invariants of networks

Every dispatcher looks at its own bus's queue, over its own bus's session. What it has in
hand is the copy that the session holds under the tag, if it still holds one; its position
agrees with what it noted last; and it waits for a signal only while it has reason to.
-/
namespace CargoEvents

namespace Broker

/-- What the session holds under the delivery's tag is the copy it was made of. -/
def Lent (b : Broker) (s : Nat) (queue : String) (d : Delivery) : Prop :=
  ∃ x, b.sessions[s]? = some x ∧ d.tag ≤ x.lastTag ∧
    ∀ held ∈ x.unacked, held.tag = d.tag → held.queue = queue ∧ held.copy.delivery held.tag = d

theorem Lent.later {b b' : Broker} {s : Nat} {queue : String} {d : Delivery}
    (h : b.Lent s queue d) (hl : SessionsLater b b') : b'.Lent s queue d := by
  obtain ⟨x, hx, htag, hheld⟩ := h
  obtain ⟨y, hy, hxy⟩ := hl s x hx
  refine ⟨y, hy, Nat.le_trans htag hxy.lastTag_le, fun held hm ht => ?_⟩
  rcases hxy.held held hm with hm | hlt
  · exact hheld held hm ht
  · omega

theorem Sound.lent_handOut {b : Broker} (h : b.Sound) {s : Nat} {x : Session}
    (hs : b.sessions[s]? = some x) (queue : String) (copy : Copy) :
    (b.handOut s queue (x.lastTag + 1) copy).Lent s queue (copy.delivery (x.lastTag + 1)) := by
  refine ⟨{ x with
    lastTag := x.lastTag + 1
    unacked := x.unacked ++ [{ tag := x.lastTag + 1, queue, copy }] }, ?_, Nat.le_refl _, ?_⟩
  · simp [handOut, hs]
  · intro held hm ht
    rcases List.mem_append.mp hm with hm | hm
    · have hle := (h.session hs).given held hm
      have ht : held.tag = x.lastTag + 1 := ht
      omega
    · obtain rfl := List.mem_singleton.mp hm
      exact ⟨rfl, rfl⟩

end Broker

/-- The registration is for the delivery's kind, and the body decodes to the event. -/
structure Registration.Suits {H : Type} (r : Registration H) (d : Broker.Delivery) (e : Event) :
    Prop where
  kind : r.kind.name = d.kind
  decodes : r.decode d.body = .ok e

namespace Network
variable {H : Type}
open Broker (Action Polled Stream)

/-- How the last entries of a diary agree with a position. -/
def Noted (known : Registration H → Prop) (i k : Nat) (diary : List (Entry H)) :
    Position H → Prop
  | .handling d r e => known r ∧ r.Suits d e ∧ [.pulled i k d, .entered i k d r e] <:+ diary
  | .acknowledging d => ∃ r e, known r ∧ r.Suits d e ∧
      [.pulled i k d, .entered i k d r e, .left i k d (.ok ())] <:+ diary
  | .pulling | .pausing .. | .ended => True

structure Dispatcher.Sound (known : Registration H → Prop) (b : Broker) (bus : Bus H) (i k : Nat)
    (diary : List (Entry H)) (d : Dispatcher H) : Prop where
  session : d.stream.session = bus.session
  queue : d.stream.queue = bus.config.topology.queue.name
  lent : ∀ delivery, d.position.delivery? = some delivery →
    b.Lent d.stream.session d.stream.queue delivery
  noted : Noted known i k diary d.position
  waits : ∀ n, d.stream.waitedAt = some n →
    n ≤ b.signals ∧ (n = b.signals → b.Idle d.stream.session d.stream.queue)

/-- The invariants, if the buses have registered only what is known. -/
structure Sound (known : Nat → Registration H → Prop) (s : Network H) : Prop where
  broker : s.broker.Sound
  registered : ∀ (i : Nat) (bus : Bus H) (key : String) (r : Registration H),
    s.buses[i]? = some bus → bus.registry.get? key = some r → r.kind.name = key ∧ known i r
  dispatchers : ∀ i k bus d, s.dispatcher? i k = some (bus, d) →
    Dispatcher.Sound (known i) s.broker bus i k (s.diary i k) d

theorem sound_empty (known : Nat → Registration H → Prop) : Sound known {} :=
  ⟨Broker.sound_empty, by simp, by simp [dispatcher?]⟩

theorem Dispatcher.Sound.run {known : Registration H → Prop} {b : Broker} {bus : Bus H}
    {i k : Nat} {diary : List (Entry H)} {d : Dispatcher H}
    (h : Dispatcher.Sound known b bus i k diary d) (actions : List Action) :
    Dispatcher.Sound known (b.run actions) bus i k diary d := by
  refine ⟨h.session, h.queue, fun delivery hd => (h.lent delivery hd).later (b.run_later actions),
    h.noted, fun n hn => ?_⟩
  obtain ⟨hle, hidle⟩ := h.waits n hn
  have hsignals := b.run_signals actions
  refine ⟨Nat.le_trans hle hsignals, fun he => ?_⟩
  have hn : n = b.signals := by omega
  exact (hidle hn).run actions (by omega)

theorem Dispatcher.Sound.bus {known : Registration H → Prop} {b : Broker} {bus bus' : Bus H}
    {i k : Nat} {diary : List (Entry H)} {d : Dispatcher H}
    (h : Dispatcher.Sound known b bus i k diary d) (hc : bus'.config = bus.config)
    (hs : bus'.session = bus.session) : Dispatcher.Sound known b bus' i k diary d :=
  ⟨hs ▸ h.session, hc ▸ h.queue, h.lent, h.noted, h.waits⟩

theorem Sound.quiet {known : Nat → Registration H → Prop} {s s' : Network H} (h : Sound known s)
    (hq : s.Quiet s') : Sound known s' := by
  obtain ⟨actions, hb, -⟩ := hq.broker
  refine ⟨hb ▸ h.broker.run actions, fun i b' key r hb' hr => ?_, fun i k b' d hd => ?_⟩
  · rcases hq.buses i b' hb' with ⟨bus, hbus, ha⟩ | ⟨-, hempty, -⟩
    · exact h.registered i bus key r hbus (ha.registry ▸ hr)
    · simp [Registry.get?, hempty] at hr
  · obtain ⟨hb', hk⟩ := dispatcher?_eq_some.mp hd
    rcases hq.buses i b' hb' with ⟨bus, hbus, ha⟩ | ⟨-, -, hnone⟩
    · have hd' := h.dispatchers i k bus d (dispatcher?_eq_some.mpr ⟨hbus, ha.dispatchers ▸ hk⟩)
      rw [hb, hq.diary]
      exact (hd'.run actions).bus ha.config ha.session
    · simp [hnone] at hk

theorem Sound.withHandler {known : Nat → Registration H → Prop} {s : Network H}
    (h : Sound known s) {i : Nat} {kind : EventKind} {handler : H}
    (hk : known i { kind, handler }) : Sound known (s.onBus i (withHandler kind handler)) := by
  refine ⟨h.broker, fun j b' key r hb' hr => ?_, fun j k b' d hd => ?_⟩
  · rw [onBus, List.getElem?_modify] at hb'
    obtain ⟨bus, hbus, rfl⟩ := Option.map_eq_some_iff.mp hb'
    by_cases hij : i = j
    · subst hij
      simp only [if_true, Network.withHandler, Registry.get?_insert] at hr
      by_cases hkey : key = kind.name
      · simp only [hkey, if_true, Option.some.injEq] at hr
        subst hr
        exact ⟨hkey.symm, hk⟩
      · exact h.registered i bus key r hbus (by simpa [hkey] using hr)
    · exact h.registered j bus key r hbus (by simpa [hij] using hr)
  · obtain ⟨hb', hk⟩ := dispatcher?_eq_some.mp hd
    rw [onBus, List.getElem?_modify] at hb'
    obtain ⟨bus, hbus, rfl⟩ := Option.map_eq_some_iff.mp hb'
    have hold := h.dispatchers j k bus d (dispatcher?_eq_some.mpr ⟨hbus, by
      split at hk <;> exact hk⟩)
    exact hold.bus (by split <;> rfl) (by split <;> rfl)

theorem consume_eq_ok {b : Broker} {s : Nat} {queue : String} {st : Stream}
    (h : b.consume s queue = .ok st) : st = { session := s, queue, epoch := b.epoch } := by
  unfold Broker.consume at h
  split at h
  · cases h
  · split at h
    · cases h
      rfl
    · cases h

theorem Sound.withDispatcher {known : Nat → Registration H → Prop} {s : Network H}
    (h : Sound known s) {i : Nat} {st : Stream}
    (hst : ∀ bus, s.buses[i]? = some bus → st.session = bus.session ∧
      st.queue = bus.config.topology.queue.name ∧ st.waitedAt = none) :
    Sound known (s.onBus i (withDispatcher st)) := by
  refine ⟨h.broker, fun j b' key r hb' hr => ?_, fun j k b' d hd => ?_⟩
  · rw [onBus, List.getElem?_modify] at hb'
    obtain ⟨bus, hbus, rfl⟩ := Option.map_eq_some_iff.mp hb'
    exact h.registered j bus key r hbus (by split at hr <;> exact hr)
  · obtain ⟨hb', hk⟩ := dispatcher?_eq_some.mp hd
    rw [onBus, List.getElem?_modify] at hb'
    obtain ⟨bus, hbus, rfl⟩ := Option.map_eq_some_iff.mp hb'
    by_cases hij : i = j
    · subst hij
      simp only [if_true, Network.withDispatcher] at hk ⊢
      rcases Nat.lt_or_ge k bus.dispatchers.length with hlt | hge
      · rw [List.getElem?_append_left hlt] at hk
        exact (h.dispatchers i k bus d (dispatcher?_eq_some.mpr ⟨hbus, hk⟩)).bus rfl rfl
      · rw [List.getElem?_append_right hge] at hk
        obtain rfl := List.mem_singleton.mp (List.mem_of_getElem? hk)
        obtain ⟨hs, hq, hw⟩ := hst bus hbus
        refine ⟨hs, hq, fun _ hn => ?_, trivial, fun n hn => ?_⟩
        · cases hn
        · simp [hw] at hn
    · simp only [hij, if_false] at hk ⊢
      exact h.dispatchers j k bus d (dispatcher?_eq_some.mpr ⟨hbus, hk⟩)

theorem Sound.beside {known : Nat → Registration H → Prop} {s : Network H} (h : Sound known s)
    (a : Action) : Sound known { s with broker := s.broker.act a } :=
  ⟨h.broker.act a, h.registered, fun i k bus d hd => (h.dispatchers i k bus d hd).run [a]⟩

theorem Move.asked {b b' : Broker} {bus : Bus H} {i k : Nat} {st st' : Stream} {p p' : Position H}
    {a : Act H} {es : List (Entry H)} (h : Move b bus i k st p a b' st' p' es) :
    ∃ actions, b' = b.run actions := by
  cases h with
  | stopped | completed | panicked | unacknowledged | unresumed => exact ⟨[], rfl⟩
  | looked _ hy => exact ⟨[.poll st], (congrArg (·.2.2) hy).symm⟩
  | acknowledged d => exact ⟨[.resolve bus.session d.tag .ack], rfl⟩
  | resumed d => exact ⟨[.resolve bus.session d.tag (.nack true)], rfl⟩

theorem Move.notes {b b' : Broker} {bus : Bus H} {i k : Nat} {st st' : Stream} {p p' : Position H}
    {a : Act H} {es : List (Entry H)} (h : Move b bus i k st p a b' st' p' es) (j l : Nat) :
    es.filterMap (Entry.by? j l) = if i = j ∧ k = l then es else [] := by
  have hown (es : List (Entry H))
      (hes : ∀ e ∈ es, e.by? j l = if i = j ∧ k = l then some e else none) :
      es.filterMap (Entry.by? j l) = if i = j ∧ k = l then es else [] := by
    rw [List.filterMap_congr hes]
    split <;> simp
  apply hown
  cases h with
  | stopped | unacknowledged | unresumed | acknowledged | resumed => simp
  | completed | panicked => exact List.forall_mem_singleton.mpr rfl
  | @looked polled _ _ _ hy =>
    cases polled with
    | pending | ended | fault => simp [received]
    | delivery d =>
      refine List.forall_mem_cons.mpr ⟨rfl, ?_⟩
      cases (bus.registry.accept d).1 with
      | handling => exact List.forall_mem_singleton.mpr rfl
      | pulling | acknowledging | pausing | ended => simp [entering]

theorem accept_eq_handling {registry : Registry H} {d d' : Broker.Delivery} {r : Registration H}
    {e : Event} (h : (registry.accept d).1 = .handling d' r e) :
    d' = d ∧ registry.get? d.kind = some r ∧ r.decode d.body = .ok e := by
  unfold Registry.accept at h
  split at h
  · cases h
  · rename_i reg hreg
    split at h
    · cases h
    · rename_i e' he
      cases h
      exact ⟨rfl, hreg, he⟩

theorem accept_delivery? (registry : Registry H) (d : Broker.Delivery) :
    (registry.accept d).1.delivery? = some d := by
  unfold Registry.accept
  split
  · rfl
  · split <;> rfl

theorem afterRun_delivery? (d : Broker.Delivery) (r : Registration H)
    (result : Except HandlerError Unit) : (Position.afterRun d r result).delivery? = some d := by
  cases result <;> rfl

theorem Dispatcher.Sound.move {known : Registration H → Prop} {b b' : Broker} {bus : Bus H}
    {i k : Nat} {diary : List (Entry H)} {st st' : Stream} {p p' : Position H} {a : Act H}
    {es : List (Entry H)} (hb : b.Sound)
    (hr : ∀ key r, bus.registry.get? key = some r → r.kind.name = key ∧ known r)
    (h : Dispatcher.Sound known b bus i k diary { stream := st, position := p })
    (hm : Move b bus i k st p a b' st' p' es) :
    Dispatcher.Sound known b' bus i k (diary ++ es) { stream := st', position := p' } := by
  -- With nothing in hand and nothing noted, only what the stream waits for is at stake.
  have hfree {b₁ : Broker} {q : Position H} (hq : q.delivery? = none) (actions : List Action)
      (hrun : b₁ = b.run actions) : Dispatcher.Sound known b₁ bus i k (diary ++ [])
        { stream := st, position := q } := by
    have hw := (h.run actions).waits
    refine ⟨h.session, h.queue, fun d hd => ?_, ?_, hrun ▸ hw⟩
    · simp [hq] at hd
    · cases q with
      | handling | acknowledging | pausing => simp [Position.delivery?] at hq
      | pulling | ended => trivial
  cases hm with
  | stopped => exact hfree rfl [] rfl
  | acknowledged d => exact hfree rfl [.resolve bus.session d.tag .ack] rfl
  | resumed d v => exact hfree rfl [.resolve bus.session d.tag (.nack true)] rfl
  | unacknowledged | unresumed => exact hfree rfl [] rfl
  | panicked d r e =>
    exact ⟨h.session, h.queue, nofun, trivial, h.waits⟩
  | completed d r e result =>
    refine ⟨h.session, h.queue, fun delivery hd => ?_, ?_, h.waits⟩
    · rw [afterRun_delivery?, Option.some.injEq] at hd
      exact hd ▸ h.lent d rfl
    · cases result with
      | error e => trivial
      | ok u =>
        obtain ⟨hk, hsuits, before, hbefore⟩ := h.noted
        exact ⟨r, e, hk, hsuits, before, by simp [← hbefore]⟩
  | @looked polled _ _ _ hy =>
    have hyield := hy ▸ b.poll_yield st
    cases hyield with
    | waiting => exact hfree rfl [] rfl
    | nothing hi =>
      refine ⟨h.session, h.queue, nofun, trivial, fun n hn => ?_⟩
      cases hn
      exact ⟨Nat.le_refl _, fun _ => hi⟩
    | ended | fault =>
      exact ⟨h.session, h.queue, nofun, trivial, nofun⟩
    | @delivery x copy rest hs =>
      refine ⟨h.session, h.queue, fun d hd => ?_, ?_, nofun⟩
      · rw [received, accept_delivery?, Option.some.injEq] at hd
        exact hd ▸ hb.lent_handOut hs st.queue copy
      · simp only [received]
        generalize hp : (bus.registry.accept (copy.delivery (x.lastTag + 1))).1 = q
        cases q with
        | handling d r e =>
          obtain ⟨rfl, hget, he⟩ := accept_eq_handling hp
          obtain ⟨hkind, hk⟩ := hr _ r hget
          exact ⟨hk, ⟨hkind, he⟩, List.suffix_append ..⟩
        | acknowledging d =>
          unfold Registry.accept at hp
          split at hp
          · cases hp
          · split at hp <;> cases hp
        | pulling | pausing | ended => trivial

theorem Sound.moved {known : Nat → Registration H → Prop} {s s' : Network H} (h : Sound known s)
    {a : Act H} {i k : Nat} {bus : Bus H} {st st' : Stream} {p p' : Position H} {b' : Broker}
    {es : List (Entry H)} (hd : s.dispatcher? i k = some (bus, { stream := st, position := p }))
    (hm : Move s.broker bus i k st p a b' st' p' es) (hs : Moved bus i k p b' st' p' es s s') :
    Sound known s' := by
  obtain ⟨actions, hrun⟩ := hm.asked
  obtain ⟨hbus, hk⟩ := dispatcher?_eq_some.mp hd
  refine ⟨?_, fun j bus' key r hb' hr => ?_, fun j l bus' d hd' => ?_⟩
  · rw [hs.broker, hrun]
    exact h.broker.run actions
  · obtain ⟨b₀, hb₀, -, -, hreg, -⟩ := hs.buses j bus' hb'
    exact h.registered j b₀ key r hb₀ (hreg ▸ hr)
  · obtain ⟨hb', hl⟩ := dispatcher?_eq_some.mp hd'
    obtain ⟨b₀, hb₀, hc, hses, -, hds⟩ := hs.buses j bus' hb'
    rw [hs.diary, hm.notes, hs.broker]
    -- The dispatcher that moved, and all others, for which the broker alone went on.
    by_cases hij : i = j ∧ k = l
    · obtain ⟨rfl, rfl⟩ := hij
      obtain rfl : bus = b₀ := Option.some.inj (hbus.symm.trans hb₀)
      have hnew : d = { stream := st', position := p' } := by
        rw [hds, if_pos rfl, List.getElem?_modify_eq, hk] at hl
        exact (Option.some.inj hl).symm
      rw [if_pos ⟨rfl, rfl⟩, hnew]
      refine ((h.dispatchers i k bus _ hd).move h.broker (fun key r hget => ?_) hm).bus hc hses
      exact h.registered i bus key r hbus hget
    · have hold : s.dispatcher? j l = some (b₀, d) := by
        refine dispatcher?_eq_some.mpr ⟨hb₀, ?_⟩
        rw [hds] at hl
        split at hl
        · rename_i hji
          have hkl : k ≠ l := fun hkl => hij ⟨hji.symm, hkl⟩
          rwa [List.getElem?_modify_ne _ _ hkl] at hl
        · exact hl
      rw [if_neg hij, List.append_nil, hrun]
      exact ((h.dispatchers j l b₀ d hold).run actions).bus hc hses

theorem Sound.perform {known : Nat → Registration H → Prop} {s : Network H} (h : Sound known s)
    (a : Act H) (hk : ∀ i kind handler, a = .subscribe i kind handler → known i { kind, handler }) :
    Sound known (s.perform a) := by
  generalize hs : s.perform a = s'
  have he : Effect s a s' := hs ▸ s.perform_effect a
  cases he with
  | quiet hq => exact h.quiet hq
  | @subscribed i kind handler _ hq => exact (h.quiet hq).withHandler (hk i kind handler rfl)
  | @started i bus st s₁ hc hb hst =>
    refine (h.quiet hc.quiet).withDispatcher fun b' hb' => ?_
    obtain ⟨faults, hf, -⟩ := hc.buses i
    rw [hb', hb] at hf
    cases hf
    rw [consume_eq_ok hst]
    exact ⟨rfl, rfl, rfl⟩
  | beside a => exact h.beside a
  | moved hd hm hs => exact h.moved hd hm hs

theorem Sound.run {known : Nat → Registration H → Prop} {s : Network H} (h : Sound known s)
    (acts : List (Act H))
    (hk : ∀ i kind handler, .subscribe i kind handler ∈ acts → known i { kind, handler }) :
    Sound known (s.run acts) := by
  induction acts generalizing s with
  | nil => exact h
  | cons a acts ih =>
    refine ih (h.perform a fun i kind handler ha => ?_) fun i kind handler hm => ?_
    · exact hk i kind handler (ha ▸ List.mem_cons_self)
    · exact hk i kind handler (List.mem_cons_of_mem _ hm)

end Network
end CargoEvents
