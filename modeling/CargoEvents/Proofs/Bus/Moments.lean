import CargoEvents.Proofs.Bus.Lives

/-! # Moments of a run

Buses stay, each on its session, and one dispatcher of a bus runs at most. What is told of a
delivery was noted in a move of some dispatcher, at a moment that splits the run, so what a
dispatcher finds at one moment has a past.
-/
namespace CargoEvents

/-- The entry, if it tells what became of a delivery. -/
def Entry.ofDelivery? {H : Type} (e : Entry H) : Option (Entry H) :=
  match e with
  | .pulled .. | .entered .. | .left .. | .panicked .. => some e
  | .called _ c _ => if c.resolves then some e else none
  | .reported _ (.acknowledgementFailed _) => some e
  | _ => none

structure Bus.Elder {H : Type} (b b' : Bus H) : Prop where
  config : b'.config = b.config
  session : b'.session = b.session

theorem Bus.Elder.refl {H : Type} (b : Bus H) : b.Elder b := ⟨rfl, rfl⟩

theorem Bus.Elder.trans {H : Type} {b b' b'' : Bus H} (h : b.Elder b') (h' : b'.Elder b'') : b.Elder b'' :=
  ⟨h'.config.trans h.config, h'.session.trans h.session⟩

namespace Network
variable {H : Type} {s t : Network H} {i k : Nat} {bus : Bus H}
open Broker (Action Polled Stream)

theorem ofDeliveries_ofDelivery : OfDeliveries (Entry.ofDelivery? (H := H)) := by
  constructor
  · intro i o
    rfl
  · intro r
    rfl
  · intro i c refusal hc
    simp [Entry.ofDelivery?, hc]
  · intro i e he
    cases e with
    | acknowledgementFailed x => exact absurd rfl (he x)
    | _ => rfl

theorem mem_told {α : Type} {f : Entry H → Option α} {x : α} :
    x ∈ s.told f ↔ ∃ e ∈ s.history, f e = some x := by
  simp [told]

/-! ## Buses stay -/

theorem step_length {ls ls' : List Life} (h : Life.Step ls ls') : ls.length ≤ ls'.length := by
  cases h with
  | still => exact Nat.le_refl _
  | born => simp
  | turned => simp

theorem panic_length (s : Network H) (i k : Nat) :
    (s.panic i k).buses.length = s.buses.length := by
  unfold panic
  split
  · simp [move, onDispatcher, onBus, note]
  · rfl

theorem perform_length (s : Network H) (a : Act H) :
    s.buses.length ≤ (s.perform a).buses.length := by
  by_cases ha : ∃ i k, a = .panic i k
  · obtain ⟨i, k, rfl⟩ := ha
    exact Nat.le_of_eq (s.panic_length i k).symm
  · have hstep := s.perform_step a fun i k h => ha ⟨i, k, h⟩
    simpa [lives] using step_length hstep

theorem dispatcher?_bus {d : Dispatcher H} (h : s.dispatcher? i k = some (bus, d)) :
    s.buses[i]? = some bus := (dispatcher?_eq_some.mp h).1

theorem elder_perform (s : Network H) (a : Act H) (hb : s.buses[i]? = some bus) :
    ∃ bus', (s.perform a).buses[i]? = some bus' ∧ bus.Elder bus' := by
  have hi : i < s.buses.length := (List.getElem?_eq_some_iff.mp hb).1
  have hlength := s.perform_length a
  have hi' : i < (s.perform a).buses.length := Nat.lt_of_lt_of_le hi hlength
  refine ⟨_, List.getElem?_eq_getElem hi', ?_⟩
  have hb' := List.getElem?_eq_getElem hi'
  generalize (s.perform a).buses[i] = bus' at hb'
  generalize hs : s.perform a = s' at hb'
  have he : Effect s a s' := hs ▸ s.perform_effect a
  have hquiet {t : Network H} (hq : s.Quiet t) {b : Bus H} (hbt : t.buses[i]? = some b) :
      bus.Elder b := by
    rcases hq.buses i b hbt with ⟨b₀, hb₀, ha⟩ | ⟨hnew, -⟩
    · obtain rfl : b₀ = bus := Option.some.inj (hb₀.symm.trans hb)
      exact ⟨ha.config, ha.session⟩
    · omega
  have hchanged {t : Network H} {j : Nat} (f : Bus H → Bus H) (hq : s.Quiet t)
      (hf : ∀ b : Bus H, b.Elder (f b)) (hbt : (t.onBus j f).buses[i]? = some bus') : bus.Elder bus' := by
    rw [onBus, List.getElem?_modify] at hbt
    obtain ⟨b, hb, rfl⟩ := Option.map_eq_some_iff.mp hbt
    refine (hquiet hq hb).trans ?_
    split
    · exact hf b
    · exact .refl b
  cases he with
  | quiet hq => exact hquiet hq hb'
  | @subscribed _ kind handler _ hq =>
    exact hchanged (withHandler kind handler) hq (fun b => ⟨rfl, rfl⟩) hb'
  | @started _ _ st _ hc => exact hchanged (withDispatcher st) hc.quiet (fun b => ⟨rfl, rfl⟩) hb'
  | beside a =>
    obtain rfl : bus = bus' := Option.some.inj (hb.symm.trans hb')
    exact .refl bus
  | moved hd hm hmoved =>
    obtain ⟨b₀, hb₀, hc, hsession, -⟩ := hmoved.buses i bus' hb'
    obtain rfl : b₀ = bus := Option.some.inj (hb₀.symm.trans hb)
    exact ⟨hc, hsession⟩

theorem elder_run (s : Network H) (acts : List (Act H)) (hb : s.buses[i]? = some bus) :
    ∃ bus', (s.run acts).buses[i]? = some bus' ∧ bus.Elder bus' := by
  induction acts generalizing s bus with
  | nil => exact ⟨bus, hb, .refl bus⟩
  | cons a acts ih =>
    obtain ⟨bus', hb', h⟩ := s.elder_perform a hb
    obtain ⟨bus'', hb'', h'⟩ := ih (s.perform a) hb'
    exact ⟨bus'', hb'', h.trans h'⟩

theorem perform_broker (s : Network H) (a : Act H) :
    ∃ actions, (s.perform a).broker = s.broker.run actions := by
  generalize hs : s.perform a = s'
  have he : Effect s a s' := hs ▸ s.perform_effect a
  cases he with
  | quiet h => exact h.broker.imp fun _ h => h.1
  | subscribed h => exact h.broker.imp fun _ h => h.1
  | started h => exact h.broker.imp fun _ h => h.1
  | beside a => exact ⟨[a], rfl⟩
  | moved _ hm hmoved => exact hmoved.broker ▸ hm.asked

theorem run_broker (s : Network H) (acts : List (Act H)) :
    ∃ actions, (s.run acts).broker = s.broker.run actions := by
  induction acts generalizing s with
  | nil => exact ⟨[], rfl⟩
  | cons a acts ih =>
    obtain ⟨xs, hx⟩ := s.perform_broker a
    obtain ⟨ys, hy⟩ := ih (s.perform a)
    exact ⟨xs ++ ys, by rw [run_cons, hy, hx, Broker.run_append]⟩

/-! ## Positions -/

def position? (s : Network H) (i k : Nat) : Option (Position H) :=
  (s.dispatcher? i k).map (·.2.position)

theorem position?_eq (s : Network H) (i k : Nat) :
    s.position? i k = s.buses[i]?.bind fun b => b.dispatchers[k]?.map (·.position) := by
  unfold position? dispatcher?
  cases hb : s.buses[i]? with
  | none => rfl
  | some b => cases hd : b.dispatchers[k]? <;> simp [hd]

theorem position?_of_dispatcher {d : Dispatcher H} (h : s.dispatcher? i k = some (bus, d)) :
    s.position? i k = some d.position := by
  simp [position?, h]

theorem Quiet.position? (h : s.Quiet t) (i k : Nat) : t.position? i k = s.position? i k := by
  rw [position?_eq, position?_eq]
  cases hb' : t.buses[i]? with
  | none =>
    have hlength := h.length
    have hi := List.getElem?_eq_none_iff.mp hb'
    have hb : s.buses[i]? = none := List.getElem?_eq_none_iff.mpr (by omega)
    rw [hb]
  | some b' =>
    rcases h.buses i b' hb' with ⟨b, hb, ha⟩ | ⟨hi, -, hnone⟩
    · rw [hb]
      simp [ha.dispatchers]
    · rw [List.getElem?_eq_none_iff.mpr hi]
      simp [hnone]

/-- What an act does to the broker, to positions and to what is told of deliveries. -/
inductive Shift (s : Network H) (a : Act H) (s' : Network H) : Prop
  | still (hb : ∃ actions, s'.broker = s.broker.run actions ∧
        ∀ x ∈ actions, x.isCall ∨ a = .beside x)
      (hp : ∀ j l, s'.position? j l = s.position? j l)
      (ht : ∀ {α : Type} {f : Entry H → Option α}, OfDeliveries f → s'.told f = s.told f)
  | started {i k : Nat} (hb : ∃ actions, s'.broker = s.broker.run actions ∧
        ∀ x ∈ actions, x.isCall ∨ a = .beside x)
      (hn : s.position? i k = none)
      (hp : ∀ j l, s'.position? j l = if j = i ∧ l = k then some .pulling else s.position? j l)
      (ht : ∀ {α : Type} {f : Entry H → Option α}, OfDeliveries f → s'.told f = s.told f)
  | moved {i k : Nat} {bus : Bus H} {st st' : Stream} {p p' : Position H} {b' : Broker}
      {es : List (Entry H)} (hd : s.dispatcher? i k = some (bus, { stream := st, position := p }))
      (hm : Move s.broker bus i k st p a b' st' p' es) (hb : s'.broker = b')
      (hp : ∀ j l, s'.position? j l = if j = i ∧ l = k then some p' else s.position? j l)
      (ht : ∃ refusal, ∀ {α : Type} {f : Entry H → Option α}, OfDeliveries f →
        s'.told f = s.told f ++ (es ++ resolving bus i refusal p).filterMap f)

theorem position?_onBus (s : Network H) (i : Nat) {f : Bus H → Bus H}
    (hf : ∀ b, (f b).dispatchers = b.dispatchers) (j l : Nat) :
    (s.onBus i f).position? j l = s.position? j l := by
  rw [position?_eq, position?_eq, onBus, List.getElem?_modify]
  cases hb : s.buses[j]? with
  | none => rfl
  | some b =>
    by_cases hij : i = j
    · simp [hij, hf]
    · simp [hij]

theorem position?_withDispatcher {s : Network H} {i : Nat} {bus : Bus H}
    (hb : s.buses[i]? = some bus) (st : Stream) (j l : Nat) :
    (s.onBus i (withDispatcher st)).position? j l =
      if j = i ∧ l = bus.dispatchers.length then some .pulling else s.position? j l := by
  rw [position?_eq, position?_eq, onBus, List.getElem?_modify]
  by_cases hji : j = i
  · subst hji
    simp only [hb, if_true, true_and, Option.map_eq_map, Option.map_some, Option.bind_some,
      withDispatcher]
    rcases Nat.lt_trichotomy l bus.dispatchers.length with hlt | rfl | hgt
    · simp [List.getElem?_append_left hlt, Nat.ne_of_lt hlt]
    · simp
    · have hnone : (bus.dispatchers ++ [{ stream := st }])[l]? = none := by
        refine List.getElem?_eq_none_iff.mpr ?_
        rw [List.length_append]
        exact hgt
      have hnone' : bus.dispatchers[l]? = none := List.getElem?_eq_none_iff.mpr (Nat.le_of_lt hgt)
      simp [hnone, hnone', Nat.ne_of_gt hgt]
  · simp [hji, Ne.symm hji]

theorem Reworked.position? {d' : Dispatcher H} {d : Dispatcher H}
    (hd : s.dispatcher? i k = some (bus, d)) (h : Reworked i k (fun _ => d') s t)
    (hlength : s.buses.length ≤ t.buses.length) (j l : Nat) :
    t.position? j l = if j = i ∧ l = k then some d'.position else s.position? j l := by
  obtain ⟨hbus, hk⟩ := dispatcher?_eq_some.mp hd
  rw [position?_eq, position?_eq]
  cases hb' : t.buses[j]? with
  | none =>
    have hj := List.getElem?_eq_none_iff.mp hb'
    have hb : s.buses[j]? = none := List.getElem?_eq_none_iff.mpr (by omega)
    have hne : j ≠ i := by
      rintro rfl
      rw [hb] at hbus
      cases hbus
    simp [hb, hne]
  | some b' =>
    obtain ⟨b, hb, -, -, -, hds⟩ := h j b' hb'
    rw [hb, Option.bind_some, Option.bind_some, hds]
    by_cases hji : j = i
    · subst hji
      obtain rfl : b = bus := Option.some.inj (hb.symm.trans hbus)
      rw [if_pos rfl, List.getElem?_modify]
      by_cases hlk : l = k
      · subst hlk
        simp [hk]
      · simp [hlk, Ne.symm hlk]
    · simp [hji]

theorem perform_shift (s : Network H) (a : Act H) : Shift s a (s.perform a) := by
  have hlength := s.perform_length a
  generalize hs : s.perform a = s' at hlength
  have he : Effect s a s' := hs ▸ s.perform_effect a
  have hcalls {t : Network H} (h : s.Quiet t) : ∃ actions, t.broker = s.broker.run actions ∧
      ∀ x ∈ actions, x.isCall ∨ a = .beside x := by
    obtain ⟨actions, hb, hcalls⟩ := h.broker
    exact ⟨actions, hb, fun x hx => .inl (hcalls x hx)⟩
  cases he with
  | quiet h => exact .still (hcalls h) h.position? h.told
  | @subscribed i kind handler t h =>
    refine .still (hcalls (t := t) h) (fun j l => ?_) h.told
    rw [← h.position? j l]
    exact t.position?_onBus i (f := withHandler kind handler) (fun _ => rfl) j l
  | @started i bus st t h hb hst =>
    obtain ⟨faults, hf, -⟩ := h.buses i
    rw [hb] at hf
    have hposition (j l : Nat) := position?_withDispatcher hf st j l
    refine .started (i := i) (k := bus.dispatchers.length) (hcalls (t := t) h.quiet) ?_
      (fun j l => ?_) h.quiet.told
    · rw [position?_eq, hb]
      simp
    · rw [hposition, h.quiet.position?]
  | beside x =>
    exact .still ⟨[x], rfl, List.forall_mem_singleton.mpr (.inr rfl)⟩ (fun _ _ => rfl) fun _ => rfl
  | moved hd hm hmoved =>
    exact .moved hd hm hmoved.broker (hmoved.buses.position? hd hlength) hmoved.told

/-! ## What holds after any run -/

theorem Moved.sessions {p p' : Position H} {b' : Broker} {st' : Stream} {es : List (Entry H)}
    (h : Moved bus i k p b' st' p' es s t) (hlength : s.buses.length ≤ t.buses.length) :
    t.buses.map (·.session) = s.buses.map (·.session) := by
  apply List.ext_getElem?
  intro j
  rw [List.getElem?_map, List.getElem?_map]
  cases hb' : t.buses[j]? with
  | none =>
    have hj := List.getElem?_eq_none_iff.mp hb'
    rw [List.getElem?_eq_none_iff.mpr (Nat.le_trans hlength hj)]
  | some b' =>
    obtain ⟨b, hb, -, hsession, -⟩ := h.buses j b' hb'
    rw [hb]
    simp [hsession]

theorem Ordered.perform (h : s.Ordered) (a : Act H) : (s.perform a).Ordered := by
  have hlength := s.perform_length a
  generalize hs : s.perform a = s' at hlength
  have he : Effect s a s' := hs ▸ s.perform_effect a
  cases he with
  | quiet hq => exact hq.ordered h
  | @subscribed j kind handler t hq =>
    exact (hq.ordered h).run [] rfl (t.onBus_sessions j fun b => rfl)
  | @started j bus st t hc =>
    exact (hc.quiet.ordered h).run [] rfl (t.onBus_sessions j fun b => rfl)
  | beside x => exact h.run [x] rfl rfl
  | moved hd hm hmoved =>
    obtain ⟨actions, hrun⟩ := hm.asked
    exact h.run actions (hmoved.broker.trans hrun) (hmoved.sessions hlength)

theorem Ordered.session_ne (h : s.Ordered) {j : Nat} {b b' : Bus H} (hb : s.buses[i]? = some b)
    (hb' : s.buses[j]? = some b') (hij : i ≠ j) : b.session ≠ b'.session := by
  have hpairwise := List.pairwise_iff_getElem.mp h.increasing
  obtain ⟨hi, rfl⟩ := List.getElem?_eq_some_iff.mp hb
  obtain ⟨hj, rfl⟩ := List.getElem?_eq_some_iff.mp hb'
  rcases Nat.lt_or_gt_of_ne hij with hlt | hgt
  · have := hpairwise i j (by simpa using hi) (by simpa using hj) hlt
    simp only [List.getElem_map] at this
    omega
  · have := hpairwise j i (by simpa using hj) (by simpa using hi) hgt
    simp only [List.getElem_map] at this
    omega

/-- What holds of a network after any run. -/
structure Reached (s : Network H) : Prop where
  sound : Sound (fun _ _ => True) s
  lively : s.Lively
  ordered : s.Ordered

theorem reached_empty : Reached ({} : Network H) :=
  ⟨sound_empty _, lively_empty, by simp, by simp⟩

theorem Reached.perform (h : Reached s) (a : Act H) : Reached (s.perform a) :=
  ⟨h.sound.perform a fun _ _ _ _ => trivial, h.lively.perform a, h.ordered.perform a⟩

theorem Reached.run (h : Reached s) (acts : List (Act H)) : Reached (s.run acts) := by
  induction acts generalizing s with
  | nil => exact h
  | cons a acts ih => exact ih (h.perform a)

theorem bus_of_position {p : Position H} (hp : s.position? i k = some p) :
    ∃ bus d, s.dispatcher? i k = some (bus, d) ∧ d.position = p := by
  unfold position? at hp
  obtain ⟨⟨bus, d⟩, hd, hp⟩ := Option.map_eq_some_iff.mp hp
  exact ⟨bus, d, hd, hp⟩

theorem Lively.alone (h : s.Lively) {l : Nat} {p q : Position H}
    (hp : s.position? i k = some p) (hpe : p.isEnded = false) (hq : s.position? i l = some q)
    (hqe : q.isEnded = false) : k = l := by
  obtain ⟨bus, d, hd, rfl⟩ := bus_of_position hp
  obtain ⟨bus', d', hd', rfl⟩ := bus_of_position hq
  have hb := dispatcher?_bus hd
  obtain rfl : bus = bus' := Option.some.inj (hb.symm.trans (dispatcher?_bus hd'))
  have hlife := h.sound i bus.life (lives_getElem? hb)
  have hk := hlife.runs k (life_runs hd hpe)
  have hl := hlife.runs l (life_runs hd' hqe)
  omega

theorem Reached.alone (h : Reached s) {l : Nat} {p q : Position H}
    (hp : s.position? i k = some p) (hpe : p.isEnded = false) (hq : s.position? i l = some q)
    (hqe : q.isEnded = false) : k = l :=
  h.lively.alone hp hpe hq hqe

/-! ## Moments -/

theorem eq_of_ofDelivery {x e : Entry H} (h : x.ofDelivery? = some e) : x = e := by
  cases x with
  | pulled | entered | left | panicked => exact Option.some.inj h
  | called j c refusal =>
    simp only [Entry.ofDelivery?] at h
    split at h
    · exact Option.some.inj h
    · cases h
  | observed | logged => cases h
  | reported j error =>
    cases error with
    | acknowledgementFailed => exact Option.some.inj h
    | _ => cases h

theorem eq_of_by {e x : Entry H} {j l : Nat} (h : e.by? j l = some x) : e = x := by
  cases e with
  | pulled | entered | left | panicked =>
    simp only [Entry.by?] at h
    split at h
    · exact Option.some.inj h
    · cases h
  | called | observed | reported | logged => cases h

/-- The move at the end of `before` noted `e`. -/
def NotedAt (s : Network H) (before : List (Act H)) (a : Act H) (e : Entry H) : Prop :=
  ∃ i k bus st st' p p' b' es refusal,
    (s.run before).dispatcher? i k = some (bus, { stream := st, position := p }) ∧
    Move (s.run before).broker bus i k st p a b' st' p' es ∧ e ∈ es ++ resolving bus i refusal p

/-- What is told of a delivery was noted in a move, unless it was told before the run. -/
theorem noted_run (s : Network H) (acts : List (Act H)) {e : Entry H}
    (he : e ∈ (s.run acts).told Entry.ofDelivery?) :
    e ∈ s.told Entry.ofDelivery? ∨
      ∃ before a after, acts = before ++ a :: after ∧ s.NotedAt before a e := by
  induction acts generalizing s with
  | nil => exact .inl he
  | cons a acts ih =>
    rcases ih (s.perform a) he with he | ⟨before, b, after, rfl, h⟩
    · cases s.perform_shift a with
      | still _ _ ht => exact .inl (ht ofDeliveries_ofDelivery ▸ he)
      | started _ _ _ ht => exact .inl (ht ofDeliveries_ofDelivery ▸ he)
      | moved hd hm _ _ ht =>
        obtain ⟨refusal, htold⟩ := ht
        rw [htold ofDeliveries_ofDelivery] at he
        rcases List.mem_append.mp he with he | he
        · exact .inl he
        · obtain ⟨x, hx, hxe⟩ := List.mem_filterMap.mp he
          obtain rfl := eq_of_ofDelivery hxe
          exact .inr ⟨[], a, acts, rfl, _, _, _, _, _, _, _, _, _, refusal, hd, hm, hx⟩
    · exact .inr ⟨a :: before, b, after, rfl, h⟩

theorem noted_at (acts : List (Act H)) {e : Entry H} (he : e ∈ (run {} acts).history)
    (hof : e.ofDelivery? = some e) :
    ∃ before a after, acts = before ++ a :: after ∧ NotedAt {} before a e := by
  have he : e ∈ (run {} acts).told Entry.ofDelivery? := mem_told.mpr ⟨e, he, hof⟩
  refine (noted_run {} acts he).resolve_left ?_
  simp [told]

/-- Pulling now, dispatcher `k` of bus `i` gets `d`, and looks for its handler in `registry`. -/
def Pulls (s : Network H) (i k : Nat) (d : Broker.Delivery) (registry : Registry H) : Prop :=
  ∃ bus st, s.dispatcher? i k = some (bus, { stream := st, position := .pulling }) ∧
    bus.shutdown = false ∧ (s.broker.poll st).1 = .delivery d ∧ bus.registry = registry

/-- At some moment of the run, dispatcher `k` of bus `i` pulled `d` and looked for its handler
in `registry`. -/
def Took (acts : List (Act H)) (i k : Nat) (d : Broker.Delivery) (registry : Registry H) : Prop :=
  ∃ before after, acts = before ++ .pull i k :: after ∧ (run {} before).Pulls i k d registry

theorem Took.later {acts : List (Act H)} {d : Broker.Delivery} {registry : Registry H}
    (h : Took acts i k d registry) (more : List (Act H)) : Took (acts ++ more) i k d registry := by
  obtain ⟨before, after, rfl, h⟩ := h
  exact ⟨before, after ++ more, by simp, h⟩

/-- Handlers are entered with what was pulled and looked up at once. -/
theorem took_of_entered {acts : List (Act H)} {d : Broker.Delivery} {r : Registration H} {e : Event}
    (h : .entered i k d r e ∈ (run {} acts).history) :
    ∃ registry, Took acts i k d registry ∧ registry.get? d.kind = some r ∧
      r.decode d.body = .ok e := by
  obtain ⟨before, a, after, hacts, j, l, bus, st, st', p, p', b', es, refusal, hd, hm, hmem⟩ :=
    noted_at acts h rfl
  cases hm with
  | stopped | completed | panicked => simp [resolving] at hmem
  | acknowledged | unacknowledged | resumed | unresumed =>
    simp only [List.nil_append, resolving, List.mem_cons, reduceCtorEq, false_or,
      resolving.refused] at hmem
    split at hmem <;> simp at hmem
  | @looked polled _ _ hs hy =>
    cases polled with
    | pending | ended | fault => simp [received, resolving] at hmem
    | delivery d' =>
      simp only [received, resolving, List.append_nil, List.mem_cons, reduceCtorEq,
        false_or] at hmem
      cases hp : (bus.registry.accept d').1 with
      | pulling | acknowledging | pausing | ended => simp [hp, entering] at hmem
      | handling d'' r' e' =>
        simp only [hp, entering, List.mem_singleton] at hmem
        cases hmem
        obtain ⟨rfl, hget, he⟩ := accept_eq_handling hp
        refine ⟨bus.registry, ⟨before, after, hacts, bus, st, hd, hs, ?_, rfl⟩, hget, he⟩
        exact congrArg (·.1) hy

theorem Move.called_not_mem {b b' : Broker} {st st' : Stream} {p p' : Position H} {a : Act H}
    {es : List (Entry H)} (h : Move b bus i k st p a b' st' p' es) (j : Nat) (c : SessionCall)
    (refusal : Option BrokerError) : .called j c refusal ∉ es := by
  intro hmem
  cases h with
  | stopped | acknowledged | unacknowledged | resumed | unresumed => simp at hmem
  | completed | panicked => simp at hmem
  | @looked polled =>
    cases polled with
    | pending | ended | fault => simp [received] at hmem
    | delivery d =>
      simp only [received, List.mem_cons, reduceCtorEq, false_or] at hmem
      cases hp : (bus.registry.accept d).1 <;> simp [hp, entering] at hmem

theorem nack_requeues {acts : List (Act H)} {tag : Nat} {requeue : Bool}
    {refusal : Option BrokerError}
    (h : .called i (.nack tag requeue) refusal ∈ (run {} acts).history) : requeue = true := by
  obtain ⟨before, a, after, hacts, j, l, bus, st, st', p, p', b', es, refused, hd, hm, hmem⟩ :=
    noted_at acts h rfl
  have hmem := (List.mem_append.mp hmem).resolve_left (hm.called_not_mem i _ refusal)
  cases p with
  | pulling | handling | ended => simp [resolving] at hmem
  | acknowledging d | pausing d v =>
    simp only [resolving, List.mem_cons, resolving.refused] at hmem
    rcases hmem with hmem | hmem
    · cases hmem <;> rfl
    · split at hmem <;> simp at hmem

end Network
end CargoEvents
