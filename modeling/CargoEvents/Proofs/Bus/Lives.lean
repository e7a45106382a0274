import CargoEvents.Event.Samples
import CargoEvents.Proofs.Bus.Sound

/-! # What the state of a bus says of its dispatchers

A bus is `consuming` from the start of a dispatcher until the dispatcher's stream ends or the
bus closes. A handler that panics ends its dispatcher too, but the state stays as it is: from
then on the bus is `consuming` with nobody who consumes, and cannot be started again.
-/
namespace CargoEvents
variable {H : Type}

/-- What callers and dispatchers make of a bus. -/
structure Life where
  state : BusState := .idle
  shutdown : Bool := false
  isDropped : Bool := false
  /-- For each dispatcher, whether it has ended. -/
  ended : List Bool := []

def Bus.life (b : Bus H) : Life where
  state := b.state
  shutdown := b.shutdown
  isDropped := b.isDropped
  ended := b.dispatchers.map (·.position.isEnded)

namespace Life

def Runs (l : Life) (k : Nat) : Prop := l.ended[k]? = some false

def endAt (l : Life) (k : Nat) : Life := { l with ended := l.ended.set k true }

/-- What can happen to a bus, panics apart. -/
inductive Turn (l : Life) : Life → Prop
  | started (idle : l.state = .idle) :
      Turn l { l with state := .consuming, ended := l.ended ++ [false] }
  | drained : Turn l { l with state := .draining, shutdown := true }
  | closed : Turn l { l with state := .closed }
  | dropped : Turn l { l with shutdown := true, isDropped := true }
  | stopped {k : Nat} (told : l.shutdown) (runs : l.Runs k) : Turn l (l.endAt k)
  | ranOut {k : Nat} (runs : l.Runs k) :
      Turn l { l.endAt k with state := if l.state = .consuming then .idle else l.state }

/-- How the state agrees with the dispatchers, of which some have crashed. -/
structure Sound (l : Life) (crashed : Nat → Prop) : Prop where
  stops : l.shutdown → l.isDropped ∨ l.state.isTerminal
  runs : ∀ k, l.Runs k → k + 1 = l.ended.length
  idle : l.state = .idle → ∀ k, ¬l.Runs k ∧ ¬crashed k
  consuming : l.state = .consuming → l.isDropped = false →
    ∃ k, k + 1 = l.ended.length ∧ (l.Runs k ∨ crashed k)
  crash : ∀ k, crashed k → k + 1 = l.ended.length ∧ ¬l.Runs k

def newborn : Life := {}

theorem sound_newborn : newborn.Sound fun _ => False :=
  ⟨nofun, by simp [Runs, newborn], by simp [Runs, newborn], nofun, nofun⟩

variable {l l' : Life} {crashed : Nat → Prop} {k : Nat}

theorem endAt_runs (runs : l.Runs k) (j : Nat) : (l.endAt k).Runs j ↔ l.Runs j ∧ j ≠ k := by
  have hk : k < l.ended.length := (List.getElem?_eq_some_iff.mp runs).1
  by_cases hkj : j = k
  · simp [Runs, endAt, hkj, hk]
  · simp [Runs, endAt, List.getElem?_set_ne (Ne.symm hkj), hkj]

theorem length_endAt (l : Life) (k : Nat) : (l.endAt k).ended.length = l.ended.length :=
  List.length_set ..

theorem append_runs (l : Life) (j : Nat) :
    ({ l with ended := l.ended ++ [false] } : Life).Runs j ↔ l.Runs j ∨ j = l.ended.length := by
  simp only [Runs]
  rcases Nat.lt_trichotomy j l.ended.length with hlt | rfl | hgt
  · simp [List.getElem?_append_left hlt, Nat.ne_of_lt hlt]
  · simp
  · have hall : (l.ended ++ [false]).length ≤ j := by
      rw [List.length_append]
      exact hgt
    rw [List.getElem?_eq_none hall, List.getElem?_eq_none (Nat.le_of_lt hgt)]
    simp [Nat.ne_of_gt hgt]

theorem Sound.alone (h : l.Sound crashed) (runs : l.Runs k) (j : Nat) :
    ¬(l.endAt k).Runs j ∧ ¬crashed j := by
  have hk := h.runs k runs
  constructor
  · rw [endAt_runs runs]
    rintro ⟨hj, hne⟩
    have := h.runs j hj
    omega
  · intro hcrash
    obtain ⟨hj, hended⟩ := h.crash j hcrash
    obtain rfl : j = k := by omega
    exact hended runs

theorem Sound.turn (h : l.Sound crashed) (ht : l.Turn l') : l'.Sound crashed := by
  cases ht with
  | started idle =>
    have hidle := h.idle idle
    have hruns (k : Nat) (hk : Runs { l with ended := l.ended ++ [false] } k) :
        k = l.ended.length :=
      ((append_runs l k).mp hk).resolve_left (hidle k).1
    refine ⟨fun hs => ?_, fun k hk => ?_, nofun, fun _ _ => ?_, fun k hk => ?_⟩
    · refine (h.stops hs).imp id fun ht => ?_
      simp [idle, BusState.isTerminal] at ht
    · simp [hruns k hk]
    · exact ⟨l.ended.length, by simp, .inl ((append_runs l _).mpr (.inr rfl))⟩
    · exact absurd hk (hidle k).2
  | drained => exact ⟨fun _ => .inr rfl, h.runs, nofun, nofun, h.crash⟩
  | closed => exact ⟨fun _ => .inr rfl, h.runs, nofun, nofun, h.crash⟩
  | dropped => exact ⟨fun _ => .inl rfl, h.runs, h.idle, nofun, h.crash⟩
  | stopped told runs =>
    have hnone := h.alone runs
    refine ⟨h.stops, fun j hj => absurd hj (hnone j).1, fun _ => hnone, fun hs hd => ?_,
      fun j hj => absurd hj (hnone j).2⟩
    -- A bus that tells its dispatchers to stop is not consuming.
    have hs : l.state = .consuming := hs
    have hd : l.isDropped = false := hd
    have hstop := h.stops told
    simp [hs, hd, BusState.isTerminal] at hstop
  | ranOut runs =>
    have hnone := h.alone runs
    refine ⟨fun hs => ?_, fun j hj => absurd hj (hnone j).1, fun _ => hnone, fun hs _ => ?_,
      fun j hj => absurd hj (hnone j).2⟩
    · refine (h.stops hs).imp id fun ht => ?_
      cases hstate : l.state <;> simp_all [BusState.isTerminal]
    · dsimp only at hs
      split at hs
      · cases hs
      · contradiction

theorem Sound.panicked (h : l.Sound crashed) (runs : l.Runs k) :
    (l.endAt k).Sound fun j => crashed j ∨ j = k := by
  have hnone := h.alone runs
  have hlast := h.runs k runs
  refine ⟨h.stops, fun j hj => absurd hj (hnone j).1, fun hs => ?_, fun _ _ => ?_, fun j hj => ?_⟩
  · exact absurd runs (h.idle hs k).1
  · exact ⟨k, by rw [hlast, length_endAt], .inr (.inr rfl)⟩
  · obtain rfl : j = k := hj.resolve_left (hnone j).2
    exact ⟨by rw [hlast, length_endAt], (hnone j).1⟩

inductive Step (ls : List Life) : List Life → Prop
  | still : Step ls ls
  | born : Step ls (ls ++ [newborn])
  | turned {i : Nat} {l l' : Life} (hl : ls[i]? = some l) (ht : l.Turn l') : Step ls (ls.set i l')

/-- All lives are sound, and only buses that are there have dispatchers that crashed. -/
structure AllSound (ls : List Life) (crashed : Nat → Nat → Prop) : Prop where
  sound : ∀ (i : Nat) (l : Life), ls[i]? = some l → l.Sound (crashed i)
  known : ∀ i k, crashed i k → i < ls.length

theorem allSound_nil : AllSound [] fun _ _ => False := ⟨by simp, nofun⟩

variable {ls ls' : List Life} {crashed : Nat → Nat → Prop} {i : Nat}

theorem AllSound.set (h : AllSound ls crashed) (hl : ls[i]? = some l) (hs : l'.Sound (crashed i)) :
    AllSound (ls.set i l') crashed := by
  refine ⟨fun j x hx => ?_, fun j k hc => by simpa using h.known j k hc⟩
  by_cases hij : i = j
  · subst hij
    rw [List.getElem?_set_self (List.getElem?_eq_some_iff.mp hl).1] at hx
    obtain rfl := Option.some.inj hx
    exact hs
  · exact h.sound j x (by rwa [List.getElem?_set_ne hij] at hx)

theorem AllSound.step (h : AllSound ls crashed) (hs : Step ls ls') : AllSound ls' crashed := by
  cases hs with
  | still => exact h
  | born =>
    refine ⟨fun i l hl => ?_, fun i k hc => ?_⟩
    · rcases Nat.lt_or_ge i ls.length with hi | hi
      · exact h.sound i l ((List.getElem?_append_left hi).symm.trans hl)
      · have hnone : crashed i = fun _ => False :=
          funext fun k => eq_false fun hc => Nat.not_lt.mpr hi (h.known i k hc)
        rw [List.getElem?_append_right hi] at hl
        obtain rfl := List.mem_singleton.mp (List.mem_of_getElem? hl)
        exact hnone ▸ sound_newborn
    · have := h.known i k hc
      simp only [List.length_append]
      omega
  | @turned i l l' hl ht => exact h.set hl ((h.sound i l hl).turn ht)

theorem AllSound.panicked (h : AllSound ls crashed) (hl : ls[i]? = some l) (runs : l.Runs k) :
    AllSound (ls.set i (l.endAt k)) fun j m => crashed j m ∨ j = i ∧ m = k := by
  have hi := (List.getElem?_eq_some_iff.mp hl).1
  refine ⟨fun j x hx => ?_, fun j m hc => ?_⟩
  · by_cases hij : i = j
    · subst hij
      rw [List.getElem?_set_self hi] at hx
      obtain rfl := Option.some.inj hx
      simpa using (h.sound i l hl).panicked runs
    · simpa [Ne.symm hij] using h.sound j x (by rwa [List.getElem?_set_ne hij] at hx)
  · rw [List.length_set]
    rcases hc with hc | ⟨rfl, -⟩
    · exact h.known j m hc
    · exact hi

end Life

namespace Network
open Broker (Stream)

def lives (s : Network H) : List Life := s.buses.map Bus.life

@[simp] theorem lives_observe (s : Network H) (i : Nat) (os : List Observation) :
    (s.observe i os).lives = s.lives := congrArg (List.map Bus.life) (s.observe_buses i os)

@[simp] theorem lives_report (s : Network H) (i : Nat) (es : List BusError) :
    (s.report i es).lives = s.lives := congrArg (List.map Bus.life) (s.report_buses i es)

/-- A handler has panicked under dispatcher `k` of bus `i`. -/
def Crashed (s : Network H) (i k : Nat) : Prop := ∃ d, .panicked i k d ∈ s.diary i k

theorem lives_eq_of_called {s s' : Network H} (h : s.Called s') : s'.lives = s.lives := by
  apply List.ext_getElem?
  intro i
  obtain ⟨faults, hf, -⟩ := h.buses i
  simp only [lives, List.getElem?_map, hf, Option.map_map]
  rfl

variable {s t : Network H} {i k : Nat} {bus bus' : Bus H} {d : Dispatcher H}

theorem lives_getElem? (hb : s.buses[i]? = some bus) : s.lives[i]? = some bus.life := by
  simp [lives, hb]

theorem life_eq (ht : t.lives = s.lives) (hb : s.buses[i]? = some bus)
    (hb' : t.buses[i]? = some bus') : bus'.life = bus.life := by
  have h := lives_getElem? hb'
  rw [ht, lives_getElem? hb, Option.some.injEq] at h
  exact h.symm

theorem lives_onBus (hb : s.buses[i]? = some bus) (f : Bus H → Bus H) :
    (s.onBus i f).lives = s.lives.set i (f bus).life := by
  apply List.ext_getElem?
  intro j
  simp only [lives, onBus, List.getElem?_map, List.getElem?_modify, List.getElem?_set,
    List.length_map]
  by_cases hij : i = j
  · subst hij
    obtain ⟨hi, rfl⟩ := List.getElem?_eq_some_iff.mp hb
    simp [hi]
  · simp [hij]

theorem onBus_none (hb : s.buses[i]? = none) (f : Bus H → Bus H) : s.onBus i f = s := by
  have hle : s.buses.length ≤ i := List.getElem?_eq_none_iff.mp hb
  simp [onBus, List.modify_eq_self hle]

theorem lives_onBus_self (s : Network H) (i : Nat) {f : Bus H → Bus H}
    (hf : ∀ b, (f b).life = b.life) : (s.onBus i f).lives = s.lives := by
  cases hb : s.buses[i]? with
  | none => rw [onBus_none hb]
  | some bus =>
    rw [lives_onBus hb, hf]
    obtain ⟨hi, hlife⟩ := List.getElem?_eq_some_iff.mp (lives_getElem? hb)
    rw [← hlife, List.set_getElem_self]

theorem step_onBus (ht : t.lives = s.lives) {f : Bus H → Bus H}
    (hf : ∀ b, t.buses[i]? = some b → b.life.Turn (f b).life) :
    Life.Step s.lives (t.onBus i f).lives := by
  rw [← ht]
  cases hb : t.buses[i]? with
  | none => exact (onBus_none hb f).symm ▸ .still
  | some b =>
    rw [lives_onBus hb]
    exact .turned (lives_getElem? hb) (hf b hb)

theorem lives_onSession {α : Type} (i : Nat) (c : SessionCall)
    (op : Nat → Broker → Except BrokerError (α × Broker)) (s : Network H) :
    (onSession i c op s).2.lives = s.lives := by
  unfold onSession
  split
  · rfl
  · split
    · exact lives_onBus_self s i fun _ => rfl
    · split <;> rfl

/-! ## Callers -/

theorem build_step (s : Network H) (config : BusConfig) (sink : ErrorSink)
    (faults : List (String × BrokerError)) :
    Life.Step s.lives (build config sink faults s).2.lives := by
  let bus : Bus H := { config, session := s.broker.sessions.length, sink, faults }
  let s₁ : Network H := { s with broker := s.broker.openSession, buses := s.buses ++ [bus] }
  have hlives := lives_eq_of_called (declare_called s.buses.length config.topology s₁)
  have hborn : s₁.lives = s.lives ++ [Life.newborn] := by
    simp [s₁, lives, bus, Bus.life, Life.newborn]
  rw [hborn] at hlives
  simp only [build]
  split <;> rename_i t hd <;> rw [hd] at hlives
  · exact hlives ▸ .born
  · have hlength : s.buses.length = s.lives.length := (List.length_map ..).symm
    have hsame : (t.buses.take s.buses.length).map Bus.life = s.lives := by
      rw [List.map_take, hlength, ← lives, hlives, List.take_left]
    exact hsame ▸ .still

theorem publishOver_lives (s : Network H) (i : Nat) (e : Event) :
    (publishOver i e s).2.lives = s.lives := by
  unfold publishOver
  split
  · rfl
  · rename_i bus hb
    have h := lives_eq_of_called (publishEvent_called i bus.config.exchange e s)
    split <;> rename_i hp <;> rw [hp] at h
    · rwa [lives_observe]
    · rwa [lives_observe]

theorem subscribe_lives (s : Network H) (i : Nat) (kind : EventKind) (handler : H) :
    (subscribe i kind handler s).2.lives = s.lives := by
  refine whileOpen_ind (P := fun t => t.lives = s.lives) rfl fun bus _ _ => ?_
  have hcalled := lives_eq_of_called (bind_called i bus.config.topology kind.name s)
  rcases Call.bind_cases ((calls i).bind bus.config.topology kind.name) (fun _ =>
    modify (·.onBus i (withHandler kind handler))) s with h | ⟨_, -, h⟩
  · exact (congrArg _ h).trans hcalled
  · have hsame := lives_onBus_self ((calls i).bind bus.config.topology kind.name s).2 i
      (f := withHandler kind handler) fun _ => rfl
    exact (congrArg _ h).trans (hsame.trans hcalled)

theorem restore_lives (s : Network H) (i : Nat) : (restore i s).2.lives = s.lives := by
  refine whileOpen_ind (P := fun t => t.lives = s.lives) rfl fun bus _ _ => lives_eq_of_called ?_
  exact (declare_called (H := H) i bus.config.topology).bind Called.trans
    (fun _ => .forM Called.refl Called.trans (bind_called i bus.config.topology) _) s

theorem start_step (s : Network H) (i : Nat) : Life.Step s.lives (start i s).2.lives := by
  refine whileOpen_ind (P := fun t => Life.Step s.lives t.lives) .still fun bus hb hopen => ?_
  split
  · exact .still
  · rename_i hstate
    have hidle : bus.life.state = .idle := by
      cases h : bus.state <;> simp_all [BusState.isTerminal, Bus.life]
    let call : Call BusError (Network H) Stream := ExceptT.adapt .transportError
      (consume i bus.config.topology.queue.name bus.config.effectiveTag)
    have hcalled : (call s).2.lives = s.lives := lives_eq_of_called (consume_called i _ _ s)
    rcases call.bind_cases (fun st => modify (·.onBus i (withDispatcher st))) s with
      h | ⟨st, hst, h⟩
    · exact (congrArg lives h).trans hcalled ▸ .still
    · have hstarted : Life.Step s.lives ((call s).2.onBus i (withDispatcher st)).lives := by
        refine step_onBus hcalled fun b hb' => ?_
        have hturn : b.life.Turn _ := .started (life_eq hcalled hb hb' ▸ hidle)
        simpa [withDispatcher, Bus.life, Bus.enter, Position.isEnded] using hturn
      exact congrArg lives h ▸ hstarted

theorem beginClose_step (s : Network H) (i : Nat) : Life.Step s.lives (s.beginClose i).lives := by
  unfold beginClose
  split
  · exact .still
  · split
    · exact .still
    · let drained := s.onBus i fun b => { b.enter .draining with shutdown := true }
      have hdrained : Life.Step s.lives drained.lives := step_onBus rfl fun _ _ => .drained
      have hclosed : (closeSession i drained).2.lives = drained.lives := lives_onSession ..
      have hsame := lives_onBus_self (closeSession i drained).2 i
        (f := fun b => { b with closing := some (closeSession i drained).1 }) fun _ => rfl
      rw [← hclosed, ← hsame] at hdrained
      exact hdrained

theorem finishClose_step (s : Network H) (i : Nat) :
    Life.Step s.lives (finishClose i s).2.lives := by
  unfold finishClose
  split
  · exact .still
  · exact step_onBus rfl fun _ _ => .closed

theorem drop_step (s : Network H) (i : Nat) : Life.Step s.lives (s.drop i).lives :=
  step_onBus rfl fun _ _ => .dropped

/-! ## Dispatchers -/

theorem life_runs (hd : s.dispatcher? i k = some (bus, d)) (hp : d.position.isEnded = false) :
    bus.life.Runs k := by
  simp [Life.Runs, Bus.life, (dispatcher?_eq_some.mp hd).2, hp]

theorem life_at (b : Bus H) (k : Nat) (p : Position H) :
    ({ b with
      dispatchers := b.dispatchers.modify k fun d => { d with position := p } } : Bus H).life =
      { b.life with ended := b.life.ended.set k p.isEnded } := by
  have hset : (b.dispatchers.modify k fun d => { d with position := p }).map (·.position.isEnded) =
      (b.dispatchers.map (·.position.isEnded)).set k p.isEnded := by
    apply List.ext_getElem?
    intro j
    simp only [List.getElem?_map, List.getElem?_modify, List.set_eq_modify]
    split <;> simp [Function.comp_def]
  simp only [Bus.life, hset]

theorem lives_move (hd : s.dispatcher? i k = some (bus, d)) (hp : d.position.isEnded = false)
    (ht : t.lives = s.lives) {p : Position H} (hp' : p.isEnded = false) :
    (t.move i k p).lives = s.lives := by
  refine Eq.trans ?_ ht
  cases hb : t.buses[i]? with
  | none => exact congrArg lives (onBus_none hb _)
  | some b =>
    have hlife := life_eq ht (dispatcher?_eq_some.mp hd).1 hb
    have hruns := life_runs hd hp
    obtain ⟨hk, hfalse⟩ := List.getElem?_eq_some_iff.mp (hlife ▸ hruns)
    obtain ⟨hi, hlives⟩ := List.getElem?_eq_some_iff.mp (lives_getElem? hb)
    have hsame : { b.life with ended := b.life.ended.set k p.isEnded } = b.life := by
      rw [hp', ← hfalse, List.set_getElem_self]
    refine (lives_onBus hb _).trans ?_
    rw [life_at, hsame, ← hlives, List.set_getElem_self]

theorem step_ended (hd : s.dispatcher? i k = some (bus, d)) (ht : t.lives = s.lives)
    (h : bus.life.Turn (bus.life.endAt k)) : Life.Step s.lives (t.move i k .ended).lives := by
  refine step_onBus ht fun b hb => ?_
  rw [life_at, life_eq ht (dispatcher?_eq_some.mp hd).1 hb]
  exact h

theorem lives_stream (s : Network H) (i k : Nat) (st : Stream) :
    (s.onDispatcher i k fun d => { d with stream := st }).lives = s.lives := by
  refine lives_onBus_self s i fun b => ?_
  have hsame : (b.dispatchers.modify k fun d => { d with stream := st }).map (·.position.isEnded) =
      b.dispatchers.map (·.position.isEnded) := by
    apply List.ext_getElem?
    intro j
    simp only [List.getElem?_map, List.getElem?_modify]
    split <;> simp [Function.comp_def]
  simp only [Bus.life, hsame]

theorem lives_settle (s : Network H) (i : Nat) (bus : Bus H) (d : Broker.Delivery)
    (how : Broker.Resolution) (os : List Observation) :
    (s.settle i bus d how os).lives = s.lives := by
  have hresolve : (resolve i d.tag how s).2.lives = s.lives := lives_onSession ..
  unfold settle
  generalize resolve i d.tag how s = resolved at hresolve ⊢
  obtain ⟨result, t⟩ := resolved
  simpa using hresolve

theorem isEnded_of_delivery? {p : Position H} {d : Broker.Delivery} (h : p.delivery? = some d) :
    p.isEnded = false := by
  cases p with
  | ended => cases h
  | pulling | handling | acknowledging | pausing => rfl

theorem streamEnded_turn (hd : s.dispatcher? i k = some (bus, d))
    (hp : d.position.isEnded = false) (ht : t.lives = s.lives) :
    Life.Step s.lives ((t.streamEnded i).move i k .ended).lives := by
  have htwo : (t.streamEnded i).move i k .ended = t.onBus i fun b =>
      { (if b.state = .consuming then b.enter .idle else b) with
        dispatchers := (if b.state = .consuming then b.enter .idle else b).dispatchers.modify k
          fun d => { d with position := .ended } } := by
    simp only [streamEnded, move, onDispatcher, onBus, List.modify_modify_eq, Function.comp_def]
  rw [htwo]
  refine step_onBus ht fun b hb => ?_
  have hruns : b.life.Runs k := life_eq ht (dispatcher?_eq_some.mp hd).1 hb ▸ life_runs hd hp
  have hlife : (if b.state = .consuming then b.enter .idle else b).life =
      { b.life with state := if b.state = .consuming then .idle else b.state } := by
    split <;> rfl
  rw [life_at, hlife]
  exact .ranOut hruns

theorem take_step (hd : s.dispatcher? i k = some (bus, d)) (hp : d.position.isEnded = false)
    (ht : t.lives = s.lives) (polled : Broker.Polled) :
    Life.Step s.lives (t.take i k polled).lives := by
  cases polled with
  | pending => exact ht ▸ .still
  | ended => exact streamEnded_turn hd hp ht
  | fault e =>
    have hsame : (t.take i k (.fault e)).lives = s.lives := by simpa [take] using ht
    exact hsame ▸ .still
  | delivery d' =>
    simp only [take]
    split
    · exact ht ▸ .still
    · rename_i b hb
      have hgoes := isEnded_of_delivery? (accept_delivery? b.registry d')
      generalize b.registry.accept d' = accepted at hgoes ⊢
      obtain ⟨p, os⟩ := accepted
      refine (lives_move hd hp ?_ hgoes).symm ▸ .still
      cases p <;> exact (lives_observe ..).trans ht

theorem pull_step (s : Network H) (i k : Nat) : Life.Step s.lives (s.pull i k).lives := by
  unfold pull
  split
  · rename_i bus st hd
    split
    · rename_i hstop
      exact step_ended hd rfl (.stopped hstop (life_runs hd rfl))
    · generalize s.broker.poll st = polled
      obtain ⟨polled, st', b'⟩ := polled
      exact take_step hd rfl (lives_stream { s with broker := b' } i k st') polled
  · exact .still

theorem complete_lives (s : Network H) (i k : Nat) (result : Except HandlerError Unit) :
    (s.complete i k result).lives = s.lives := by
  unfold complete
  split
  · rename_i bus st d r e hd
    exact lives_move hd rfl (lives_observe (s.note (.left i k d result)) ..)
      (isEnded_of_delivery? (afterRun_delivery? d r result))
  · rfl

theorem acknowledge_lives (s : Network H) (i k : Nat) : (s.acknowledge i k).lives = s.lives := by
  unfold acknowledge
  split
  · rename_i hd
    exact lives_move hd rfl (lives_settle ..) rfl
  · rfl

theorem resume_lives (s : Network H) (i k : Nat) : (s.resume i k).lives = s.lives := by
  unfold resume
  split
  · rename_i hd
    exact lives_move hd rfl ((lives_report ..).trans (lives_settle ..)) rfl
  · rfl

/-! ## Panics -/

theorem received_panicked_not_mem (registry : Registry H) (i k : Nat) (polled : Broker.Polled)
    (j l : Nat) (d : Broker.Delivery) : .panicked j l d ∉ (received registry i k polled).2 := by
  cases polled with
  | pending | ended | fault => simp [received]
  | delivery d' =>
    simp only [received, List.mem_cons, reduceCtorEq, false_or]
    cases (registry.accept d').1 with
    | handling => simp [entering]
    | pulling | acknowledging | pausing | ended => simp [entering]

theorem Move.panicked_not_mem {b b' : Broker} {st st' : Stream} {p p' : Position H} {a : Act H}
    {es : List (Entry H)} (h : Move b bus i k st p a b' st' p' es) (ha : a ≠ .panic i k)
    (j l : Nat) (d : Broker.Delivery) : .panicked j l d ∉ es := by
  cases h with
  | stopped | unacknowledged | unresumed | acknowledged | resumed => simp
  | completed => simp
  | panicked => exact absurd rfl ha
  | looked => exact received_panicked_not_mem bus.registry i k _ j l d

theorem crashed_of_effect {a : Act H} (he : Effect s a t) (ha : ∀ i k, a ≠ .panic i k)
    (j l : Nat) : t.Crashed j l ↔ s.Crashed j l := by
  cases he with
  | quiet h => rw [Crashed, h.diary, Crashed]
  | subscribed h =>
    rw [Crashed, Crashed, ← h.diary]
    rfl
  | started h =>
    rw [Crashed, Crashed, ← h.quiet.diary]
    rfl
  | beside => rfl
  | @moved _ i k _ _ _ _ _ _ _ _ hd hm hs =>
    simp only [Crashed, hs.diary, hm.notes, List.mem_append]
    split
    · simp [hm.panicked_not_mem (ha i k)]
    · simp

theorem panic_lives {d : Broker.Delivery} {r : Registration H} {e : Event} {st : Stream}
    (hd : s.dispatcher? i k = some (bus, { stream := st, position := .handling d r e })) :
    (s.panic i k).lives = s.lives.set i (bus.life.endAt k) ∧
      ∀ j l, (s.panic i k).Crashed j l ↔ s.Crashed j l ∨ j = i ∧ l = k := by
  constructor
  · simp only [panic, hd]
    refine (lives_onBus (dispatcher?_eq_some.mp hd).1 _).trans ?_
    rw [life_at]
    rfl
  · intro j l
    have hm : Move s.broker bus i k st (.handling d r e) (.panic i k) _ st .ended _ :=
      .panicked d r e
    simp only [Crashed, (s.panicked_moved hd).diary, hm.notes, List.mem_append, exists_or]
    refine or_congr_right ?_
    split
    · rename_i h
      simp [h]
    · rename_i h
      simpa using fun hj hl => h ⟨hj.symm, hl.symm⟩

/-! ## Runs -/

def Lively (s : Network H) : Prop := Life.AllSound s.lives s.Crashed

theorem lively_empty : Lively ({} : Network H) := by
  have hnone : ({} : Network H).Crashed = fun _ _ => False := by
    funext i k
    simp [Crashed, diary, told]
  rw [Lively, hnone]
  exact Life.allSound_nil

theorem Lively.panic (h : s.Lively) (i k : Nat) : (s.panic i k).Lively := by
  have hstays (hp : s.panic i k = s) : (s.panic i k).Lively := hp.symm ▸ h
  cases hd : s.dispatcher? i k with
  | none => exact hstays (by simp only [Network.panic, hd])
  | some found =>
    obtain ⟨bus, st, p⟩ := found
    cases p with
    | handling d r e =>
      obtain ⟨hlives, hcrash⟩ := panic_lives hd
      have hlife := lives_getElem? (dispatcher?_eq_some.mp hd).1
      have hcrash : (s.panic i k).Crashed = _ := funext₂ fun j l => propext (hcrash j l)
      rw [Lively, hlives, hcrash]
      exact Life.AllSound.panicked h hlife (life_runs hd rfl)
    | pulling | acknowledging | pausing | ended => exact hstays (by simp only [Network.panic, hd])

theorem perform_step (s : Network H) (a : Act H) (ha : ∀ i k, a ≠ .panic i k) :
    Life.Step s.lives (s.perform a).lives := by
  have hstill {t : Network H} (ht : t.lives = s.lives) : Life.Step s.lives t.lives := ht ▸ .still
  cases a with
  | build config sink faults => exact s.build_step config sink faults
  | publish i e =>
    exact hstill (whileOpen_ind (P := fun t => t.lives = s.lives) rfl
      fun _ _ _ => s.publishOver_lives i e)
  | publishOver i e => exact hstill (s.publishOver_lives i e)
  | subscribe i kind handler => exact hstill (s.subscribe_lives i kind handler)
  | start i => exact s.start_step i
  | restore i => exact hstill (s.restore_lives i)
  | beginClose i => exact s.beginClose_step i
  | finishClose i => exact s.finishClose_step i
  | drop i => exact s.drop_step i
  | pull i k => exact s.pull_step i k
  | complete i k result => exact hstill (s.complete_lives i k result)
  | panic i k => exact absurd rfl (ha i k)
  | acknowledge i k => exact hstill (s.acknowledge_lives i k)
  | resume i k => exact hstill (s.resume_lives i k)
  | fault i faults => exact hstill (s.lives_onBus_self i fun _ => rfl)
  | beside a => exact .still

theorem Lively.perform (h : s.Lively) (a : Act H) : (s.perform a).Lively := by
  by_cases ha : ∃ i k, a = .panic i k
  · obtain ⟨i, k, rfl⟩ := ha
    exact h.panic i k
  · have ha : ∀ i k, a ≠ .panic i k := fun i k h => ha ⟨i, k, h⟩
    have hcrash : (s.perform a).Crashed = s.Crashed :=
      funext₂ fun j l => propext (crashed_of_effect (s.perform_effect a) ha j l)
    rw [Lively, hcrash]
    exact Life.AllSound.step h (s.perform_step a ha)

theorem Lively.run (h : s.Lively) (acts : List (Act H)) : (s.run acts).Lively := by
  induction acts generalizing s with
  | nil => exact h
  | cons a acts ih => exact ih (h.perform a)

/-- Dispatcher `k` of bus `i` runs, on a stream of the bus's queue. -/
def Live (s : Network H) (i k : Nat) : Prop :=
  ∃ bus d, s.dispatcher? i k = some (bus, d) ∧ d.position.isEnded = false ∧
    d.stream.session = bus.session ∧ d.stream.queue = bus.config.topology.queue.name

theorem live_iff_runs {acts : List (Act H)} (hb : (run {} acts).buses[i]? = some bus) :
    (run {} acts).Live i k ↔ bus.life.Runs k := by
  constructor
  · rintro ⟨b, d, hd, hp, -⟩
    obtain rfl : b = bus := Option.some.inj ((dispatcher?_eq_some.mp hd).1.symm.trans hb)
    exact life_runs hd hp
  · intro hruns
    obtain ⟨d, hd, hp⟩ : ∃ d, bus.dispatchers[k]? = some d ∧ d.position.isEnded = false := by
      simpa [Life.Runs, Bus.life] using hruns
    have hfound := dispatcher?_eq_some.mpr ⟨hb, hd⟩
    have hsound := ((sound_empty fun _ _ => True).run acts fun _ _ _ _ => trivial).dispatchers
      i k bus d hfound
    exact ⟨bus, d, hfound, hp, hsound.session, hsound.queue⟩

theorem start_eq_alreadyStarted (hb : s.buses[i]? = some bus) :
    (start i s).1 = .error .alreadyStarted ↔ bus.state = .consuming := by
  have hstart : start i s = if bus.state.isTerminal then (.error .closed, s) else
      (if bus.state = .consuming then throw .alreadyStarted else do
        let stream ← ExceptT.adapt .transportError
          (consume i bus.config.topology.queue.name bus.config.effectiveTag)
        modify (·.onBus i (withDispatcher stream)) : Call BusError (Network H) Unit) s := by
    simp only [start, whileOpen, hb]
    rfl
  rw [hstart]
  cases hstate : bus.state with
  | draining | closed => simp [BusState.isTerminal]
  | consuming => exact iff_of_true rfl rfl
  | idle =>
    simp only [BusState.isTerminal, reduceCtorEq, if_false, iff_false, Bool.false_eq_true,
      Call.bind_apply, Call.adapt_apply]
    rcases consume i bus.config.topology.queue.name bus.config.effectiveTag s with ⟨e | st, t⟩
    · simp [Except.mapError]
    · nofun

/-- A bus that can be used is consuming if and only if its dispatcher runs, or has crashed. In
the second case it is not idle again before it closes, and no dispatcher runs. In both it
refuses to start because it has started already, and in no other. -/
theorem consuming_iff_live_or_crashed (acts : List (Act H))
    (hb : (Network.run {} acts).buses[i]? = some bus) (hd : bus.isDropped = false) :
    let s := Network.run {} acts
    (bus.state = .consuming ↔ bus.state.isTerminal = false ∧ ∃ k, s.Live i k ∨ s.Crashed i k) ∧
    (∀ k, s.Crashed i k → bus.state ≠ .idle ∧ ∀ l, ¬s.Live i l) ∧
    ((start i s).1 = .error .alreadyStarted ↔ bus.state = .consuming) := by
  intro s
  have hlife := (lively_empty.run acts).sound i bus.life (lives_getElem? hb)
  have hlive (k : Nat) : s.Live i k ↔ bus.life.Runs k := live_iff_runs hb
  refine ⟨⟨fun hs => ?_, ?_⟩, fun k hk => ⟨fun hs => ?_, fun l hl => ?_⟩,
    start_eq_alreadyStarted hb⟩
  · obtain ⟨k, -, hk⟩ := hlife.consuming hs hd
    exact ⟨by rw [hs]; rfl, k, hk.imp_left (hlive k).mpr⟩
  · rintro ⟨hopen, k, hk⟩
    cases hs : bus.state with
    | consuming => rfl
    | draining | closed => simp [hs, BusState.isTerminal] at hopen
    | idle =>
      obtain ⟨hstands, hwell⟩ := hlife.idle hs k
      exact (hk.elim (hstands <| (hlive k).mp ·) hwell).elim
  · exact (hlife.idle hs k).2 hk
  · exact (hlife.alone ((hlive l).mp hl) k).2 hk

/-- A service that was told of a booking while it consumes. -/
def booked : List (Act Unit) :=
  [.build { service := "tracking" } .receiver [], .subscribe 0 .newCargoBooked (), .start 0,
    .publish 0 (.newCargoBooked (Samples.newCargoBooked "ABC123" "SESTO" "CNHKG")), .pull 0 0]

theorem consuming_while_handling :
    let s := Network.run {} booked
    ∃ bus, s.buses[0]? = some bus ∧ bus.isDropped = false ∧ bus.state = .consuming ∧
      ∃ k, s.Live 0 k ∨ s.Crashed 0 k := by
  intro s
  obtain ⟨bus, hb, hd, hs⟩ : ∃ bus : Bus Unit, s.buses[0]? = some bus ∧
      bus.isDropped = false ∧ bus.state = .consuming := ⟨_, rfl, rfl, rfl⟩
  exact ⟨bus, hb, hd, hs, ((consuming_iff_live_or_crashed booked hb hd).1.mp hs).2⟩

/-- Once its handler has panicked, no dispatcher of the service runs. It is consuming all the
same, and refuses to start. -/
theorem consuming_without_dispatcher :
    let s := Network.run {} (booked ++ [.panic 0 0])
    (∃ bus, s.buses[0]? = some bus ∧ bus.isDropped = false ∧ bus.state = .consuming) ∧
    (∀ k, ¬s.Live 0 k) ∧ (start 0 s).1 = .error .alreadyStarted := by
  intro s
  obtain ⟨bus, hb, hd, hs, hended⟩ : ∃ bus : Bus Unit, s.buses[0]? = some bus ∧
      bus.isDropped = false ∧ bus.state = .consuming ∧ bus.life.ended = [true] :=
    ⟨_, rfl, rfl, rfl, rfl⟩
  refine ⟨⟨bus, hb, hd, hs⟩, fun k hk => ?_, (start_eq_alreadyStarted hb).mpr hs⟩
  have hruns : bus.life.Runs k := (live_iff_runs hb).mp hk
  rw [Life.Runs, hended] at hruns
  cases k <;> simp at hruns

end Network
end CargoEvents
