import CargoEvents.Proofs.Broker.Sound
import CargoEvents.Proofs.Bus.Acts
import CargoEvents.Proofs.Calls

/-! # What callers of a bus can do

Calls on a session may fail anywhere and keep what they did before. All they do to a
network is bounded by `Called`, and what their callers do with them by `Quiet`: but for a
handler that is subscribed and a dispatcher that starts, a caller changes neither.
-/
namespace CargoEvents

namespace Network
variable {H : Type}
open Broker (Action)

/-- What calls on sessions do, those that resolve a delivery apart: the broker is called,
and a bus may have met one of its faults. -/
structure Called (s s' : Network H) : Prop where
  broker : ∃ actions, s'.broker = s.broker.run actions ∧ ∀ a ∈ actions, a.isCall
  buses : ∀ i : Nat, ∃ faults, s'.buses[i]? = s.buses[i]?.map (fun b => { b with faults }) ∧
    ∀ b, s.buses[i]? = some b → faults.Sublist b.faults
  history : ∃ es, s'.history = es ++ s.history ∧
    ∀ e ∈ es, ∃ i c refusal, e = .called i c refusal ∧ c.resolves = false

theorem Called.refl (s : Network H) : s.Called s := by
  refine ⟨⟨[], rfl, by simp⟩, fun i => ?_, ⟨[], rfl, by simp⟩⟩
  cases hb : s.buses[i]? with
  | none => exact ⟨[], rfl, by simp⟩
  | some b => exact ⟨b.faults, rfl, fun _ h => Option.some.inj h ▸ .refl _⟩

theorem takeFault_sublist {name : String} {fs later : List (String × BrokerError)}
    {e : BrokerError} (h : takeFault name fs = some (e, later)) : later.Sublist fs := by
  induction fs generalizing later with
  | nil => cases h
  | cons f fs ih =>
    unfold takeFault at h
    split at h
    · cases h
      exact List.sublist_cons_self ..
    · obtain ⟨⟨e', later'⟩, hl, heq⟩ := Option.map_eq_some_iff.mp h
      cases heq
      exact (ih hl).cons_cons f

theorem called_faults {s : Network H} {i : Nat} {bus : Bus H} (hb : s.buses[i]? = some bus)
    {faults : List (String × BrokerError)} (hf : faults.Sublist bus.faults) :
    s.Called (s.onBus i fun b => { b with faults }) := by
  refine ⟨⟨[], rfl, by simp⟩, fun j => ?_, ⟨[], rfl, by simp⟩⟩
  obtain ⟨old, hold, hsub⟩ := (Called.refl s).buses j
  by_cases hij : i = j
  · subst hij
    exact ⟨faults, by simp [onBus], fun b h => Option.some.inj (hb.symm.trans h) ▸ hf⟩
  · exact ⟨old, by simpa [onBus, List.getElem?_modify, hij] using hold, hsub⟩

theorem Called.trans (s t u : Network H) (h : s.Called t) (h' : t.Called u) : s.Called u := by
  refine ⟨?_, fun i => ?_, ?_⟩
  · obtain ⟨xs, hx, hxs⟩ := h.broker
    obtain ⟨ys, hy, hys⟩ := h'.broker
    refine ⟨xs ++ ys, by rw [hy, hx, Broker.run_append], fun a ha => ?_⟩
    exact (List.mem_append.mp ha).elim (hxs a) (hys a)
  · obtain ⟨middle, hx, hxsub⟩ := h.buses i
    obtain ⟨faults, hy, hysub⟩ := h'.buses i
    rw [hx] at hy hysub
    cases hb : s.buses[i]? with
    | none => exact ⟨faults, by simp [hy, hb], by simp⟩
    | some b =>
      rw [hb] at hy hysub
      refine ⟨faults, hy, fun b' h' => ?_⟩
      obtain rfl := Option.some.inj h'
      exact (hysub _ rfl).trans (hxsub b hb)
  · obtain ⟨xs, hx, hxs⟩ := h.history
    obtain ⟨ys, hy, hys⟩ := h'.history
    refine ⟨ys ++ xs, by rw [hy, hx, List.append_assoc], fun e he => ?_⟩
    exact (List.mem_append.mp he).elim (hys e) (hxs e)

theorem Called.told {α : Type} {s s' : Network H} (h : s.Called s') {f : Entry H → Option α}
    (hf : ∀ i c refusal, c.resolves = false → f (.called i c refusal) = none) :
    s'.told f = s.told f := by
  obtain ⟨es, he, hes⟩ := h.history
  have hnone : es.reverse.filterMap f = [] := by
    refine List.filterMap_eq_nil_iff.mpr fun e hm => ?_
    obtain ⟨i, c, refusal, rfl, hc⟩ := hes e (List.mem_reverse.mp hm)
    exact hf i c refusal hc
  simp [Network.told, he, hnone]

theorem onSession_called {α : Type} {i : Nat} {c : SessionCall} (hc : c.resolves = false)
    {op : Nat → Broker → Except BrokerError (α × Broker)}
    (hop : ∀ session b a b', op session b = .ok (a, b') → ∃ action : Action,
      action.isCall ∧ b' = b.act action) :
    Call.Within Called (onSession (H := H) i c op) := by
  intro s
  have hcalled (t : Network H) (refusal : Option BrokerError) (ht : s.Called t) :
      s.Called (t.note (.called i c refusal)) := by
    obtain ⟨es, he, hes⟩ := ht.history
    refine ⟨ht.broker, ht.buses, .called i c refusal :: es, congrArg _ he, ?_⟩
    exact List.forall_mem_cons.mpr ⟨⟨i, c, refusal, rfl, hc⟩, hes⟩
  simp only [onSession]
  cases hb : s.buses[i]? with
  | none => exact .refl s
  | some bus =>
    dsimp only
    split
    · rename_i e faults hf
      exact hcalled _ _ (called_faults hb (takeFault_sublist hf))
    · cases ho : op bus.session s.broker with
      | error e => exact hcalled _ _ (.refl s)
      | ok p =>
        obtain ⟨action, hcall, hact⟩ := hop _ _ p.1 p.2 ho
        refine hcalled _ _ ⟨⟨[action], hact, by simpa using hcall⟩, (Called.refl s).buses,
          ⟨[], rfl, by simp⟩⟩

theorem onSession'_called {i : Nat} {c : SessionCall} (hc : c.resolves = false)
    {op : Nat → Broker → Except BrokerError Broker}
    (hop : ∀ session b b', op session b = .ok b' → ∃ action : Action,
      action.isCall ∧ b' = b.act action) :
    Call.Within Called (onSession' (H := H) i c op) := by
  refine onSession_called hc fun session b _ b' h => ?_
  cases ho : op session b with
  | error e =>
    rw [ho] at h
    cases h
  | ok b₁ =>
    rw [ho] at h
    cases h
    exact hop session b b' ho

theorem onSession'_broker (i : Nat) (c : SessionCall)
    (op : Nat → Broker → Except BrokerError Broker) (s : Network H) :
    (onSession' i c op s).2.broker = s.broker ∨
      ∃ session, op session s.broker = .ok (onSession' i c op s).2.broker := by
  simp only [onSession', onSession]
  cases s.buses[i]? with
  | none => exact .inl rfl
  | some bus =>
    dsimp only
    split
    · exact .inl rfl
    · cases ho : op bus.session s.broker with
      | error e => exact .inl rfl
      | ok b' => exact .inr ⟨bus.session, ho⟩

theorem act_of_ok {b b' : Broker} {result : Except BrokerError Broker} (h : result = .ok b') :
    b' = b.after result := by
  rw [h, Broker.after]

theorem declare_called (i : Nat) (t : Topology) :
    Call.Within Called ((calls (H := H) i).declare t) := by
  refine .adapt (.bind Called.trans ?_ fun _ => .bind Called.trans ?_ fun _ => ?_) _
  · exact onSession'_called rfl fun session _ _ h => ⟨.declareExchange session _, rfl, act_of_ok h⟩
  · exact onSession'_called rfl fun session _ _ h => ⟨.declareQueue session _, rfl, act_of_ok h⟩
  · exact onSession'_called rfl fun session _ _ h => ⟨.setQos session _, rfl, act_of_ok h⟩

theorem bind_called (i : Nat) (t : Topology) (key : String) :
    Call.Within Called ((calls (H := H) i).bind t key) :=
  .adapt (onSession'_called rfl fun session _ _ h => ⟨.bindQueue session _ _ _, rfl, act_of_ok h⟩) _

theorem publishEvent_called (i : Nat) (exchange : String) (e : Event) :
    Call.Within Called ((calls (H := H) i).publishEvent exchange e) :=
  .adapt (onSession'_called rfl fun session _ _ h => ⟨.publish session _ _, rfl, act_of_ok h⟩) _

theorem consume_called (i : Nat) (queue tag : String) :
    Call.Within Called (consume (H := H) i queue tag) := by
  refine onSession_called rfl fun session b stream b' h => ⟨.consume session queue, rfl, ?_⟩
  cases hc : b.consume session queue with
  | error e =>
    rw [hc] at h
    cases h
  | ok st =>
    rw [hc] at h
    cases h
    simp [Broker.act, hc]
    rfl

theorem closeSession_called (i : Nat) : Call.Within Called (closeSession (H := H) i) :=
  onSession'_called rfl fun session _ _ h => ⟨.closeSession session, rfl, by
    cases h
    rfl⟩

/-! ## Quiet acts -/

/-- What buses have handlers and dispatchers for. -/
structure Alike (b b' : Bus H) : Prop where
  config : b'.config = b.config
  session : b'.session = b.session
  registry : b'.registry = b.registry
  dispatchers : b'.dispatchers = b.dispatchers

/-- Each bus has a session of its own, which a later bus opened later. -/
structure Ordered (s : Network H) : Prop where
  increasing : (s.buses.map (·.session)).Pairwise (· < ·)
  known : ∀ b ∈ s.buses, b.session < s.broker.sessions.length

/-- Calls were made at most: handlers, dispatchers and what became of deliveries are as before. -/
structure Quiet (s s' : Network H) : Prop where
  broker : ∃ actions, s'.broker = s.broker.run actions ∧ ∀ a ∈ actions, a.isCall
  buses : ∀ (i : Nat) (b' : Bus H), s'.buses[i]? = some b' →
    (∃ b, s.buses[i]? = some b ∧ Alike b b') ∨
      s.buses.length ≤ i ∧ b'.registry.byKey = ∅ ∧ b'.dispatchers = []
  length : s.buses.length ≤ s'.buses.length
  ordered : s.Ordered → s'.Ordered
  told : ∀ {α : Type} {f : Entry H → Option α}, OfDeliveries f → s'.told f = s.told f

theorem Quiet.diary {s s' : Network H} (h : s.Quiet s') (i k : Nat) :
    s'.diary i k = s.diary i k := h.told (ofDeliveries_by i k)

theorem Quiet.trans {s t u : Network H} (h : s.Quiet t) (h' : t.Quiet u) : s.Quiet u := by
  refine ⟨?_, fun i b'' hb'' => ?_, Nat.le_trans h.length h'.length, fun ho => h'.ordered (h.ordered ho),
    fun hf => (h'.told hf).trans (h.told hf)⟩
  · obtain ⟨xs, hx, hxs⟩ := h.broker
    obtain ⟨ys, hy, hys⟩ := h'.broker
    refine ⟨xs ++ ys, by rw [hy, hx, Broker.run_append], fun a ha => ?_⟩
    exact (List.mem_append.mp ha).elim (hxs a) (hys a)
  · rcases h'.buses i b'' hb'' with ⟨b', hb', ha'⟩ | hnew
    · rcases h.buses i b' hb' with ⟨b, hb, ha⟩ | ⟨hi, hr, hd⟩
      · exact .inl ⟨b, hb, ha'.config.trans ha.config, ha'.session.trans ha.session,
          ha'.registry.trans ha.registry, ha'.dispatchers.trans ha.dispatchers⟩
      · exact .inr ⟨hi, ha'.registry ▸ hr, ha'.dispatchers.trans hd⟩
    · exact .inr ⟨Nat.le_trans h.length hnew.1, hnew.2⟩

theorem Ordered.run {s s' : Network H} (h : s.Ordered) (actions : List Action)
    (hb : s'.broker = s.broker.run actions)
    (hs : s'.buses.map (·.session) = s.buses.map (·.session)) : s'.Ordered := by
  refine ⟨hs ▸ h.increasing, fun b' hb' => ?_⟩
  obtain ⟨b, hm, he⟩ := List.mem_map.mp (hs ▸ List.mem_map_of_mem hb')
  have hlt := h.known b hm
  have hle := Broker.SessionsLater.length (s.broker.run_later actions)
  rw [hb, ← he]
  exact Nat.lt_of_lt_of_le hlt hle

theorem Called.sessions {s s' : Network H} (h : s.Called s') :
    s'.buses.map (·.session) = s.buses.map (·.session) := by
  apply List.ext_getElem?
  intro i
  obtain ⟨faults, hf, -⟩ := h.buses i
  simp only [List.getElem?_map, hf, Option.map_map]
  rfl

theorem Called.quiet {s s' : Network H} (h : s.Called s') : s.Quiet s' := by
  have hlength : s'.buses.length = s.buses.length := by
    simpa using congrArg List.length h.sessions
  obtain ⟨actions, hb, -⟩ := h.broker
  refine ⟨h.broker, fun i b' hb' => .inl ?_, Nat.le_of_eq hlength.symm,
    fun ho => ho.run actions hb h.sessions, fun hf => h.told hf.called⟩
  obtain ⟨faults, hf, -⟩ := h.buses i
  rw [hb'] at hf
  obtain ⟨b, hb, rfl⟩ := Option.map_eq_some_iff.mp hf.symm
  exact ⟨b, hb, rfl, rfl, rfl, rfl⟩

theorem Quiet.refl (s : Network H) : s.Quiet s := (Called.refl s).quiet

theorem onBus_sessions (s : Network H) (i : Nat) {f : Bus H → Bus H}
    (hf : ∀ b, (f b).session = b.session) :
    (s.onBus i f).buses.map (·.session) = s.buses.map (·.session) := by
  apply List.ext_getElem?
  intro j
  simp only [onBus, List.getElem?_map, List.getElem?_modify]
  split <;> simp [Function.comp_def, hf]

theorem quiet_onBus (s : Network H) (i : Nat) {f : Bus H → Bus H} (hf : ∀ b, Alike b (f b)) :
    s.Quiet (s.onBus i f) := by
  have hsessions := s.onBus_sessions i fun b => (hf b).session
  refine ⟨⟨[], rfl, by simp⟩, fun j b' hb' => .inl ?_, by simp [onBus],
    fun ho => ho.run [] rfl hsessions, fun _ => rfl⟩
  rw [onBus, List.getElem?_modify] at hb'
  obtain ⟨b, hb, rfl⟩ := Option.map_eq_some_iff.mp hb'
  refine ⟨b, hb, ?_⟩
  split
  · exact hf b
  · exact ⟨rfl, rfl, rfl, rfl⟩

theorem quiet_observe (s : Network H) (i : Nat) (os : List Observation) :
    s.Quiet (s.observe i os) :=
  ⟨⟨[], by simp, by simp⟩, fun j b' hb' => .inl ⟨b', by simpa using hb', rfl, rfl, rfl, rfl⟩,
    by simp, fun ho => ho.run [] (by simp) (by simp),
    fun hf => s.told_observe i os (hf.observed i)⟩

theorem born_quiet (s : Network H) {bus : Bus H} (hs : bus.session = s.broker.sessions.length)
    (hr : bus.registry.byKey = ∅) (hd : bus.dispatchers = []) :
    s.Quiet { s with broker := s.broker.openSession, buses := s.buses ++ [bus] } := by
  refine ⟨⟨[.openSession], rfl, by simp [Broker.Action.isCall]⟩, fun i b' hb' => ?_, by simp,
    fun ho => ⟨?_, fun b hb => ?_⟩, fun _ => rfl⟩
  · rcases Nat.lt_or_ge i s.buses.length with hi | hi
    · exact .inl ⟨b', (List.getElem?_append_left hi).symm.trans hb', rfl, rfl, rfl, rfl⟩
    · obtain rfl : b' = bus := by
        have hm := List.mem_of_getElem? ((List.getElem?_append_right hi).symm.trans hb')
        simpa using hm
      exact .inr ⟨hi, hr, hd⟩
  · simp only [List.map_append, List.map_cons, List.map_nil]
    refine List.pairwise_append.mpr ⟨ho.increasing, List.pairwise_singleton .., fun n hn m hm => ?_⟩
    obtain ⟨b, hb, rfl⟩ := List.mem_map.mp hn
    have hlt := ho.known b hb
    have hm : m = bus.session := List.mem_singleton.mp hm
    omega
  · have hlength : s.broker.openSession.sessions.length = s.broker.sessions.length + 1 := by
      simp [Broker.openSession]
    have hlt : b.session ≤ s.broker.sessions.length := by
      rcases List.mem_append.mp hb with hb | hb
      · exact Nat.le_of_lt (ho.known b hb)
      · exact List.mem_singleton.mp hb ▸ Nat.le_of_eq hs
    exact hlength ▸ Nat.lt_succ_of_le hlt

theorem build_quiet (s : Network H) (config : BusConfig) (sink : ErrorSink)
    (faults : List (String × BrokerError)) : s.Quiet (build config sink faults s).2 := by
  let bus : Bus H := { config, session := s.broker.sessions.length, sink, faults }
  let s₁ : Network H := { s with broker := s.broker.openSession, buses := s.buses ++ [bus] }
  have hs₁ : s.Quiet s₁ := s.born_quiet rfl rfl rfl
  have h := hs₁.trans (declare_called s.buses.length config.topology s₁).quiet
  simp only [build]
  split <;> rename_i t hd <;> rw [hd] at h
  · exact h
  · have hlength : (t.buses.take s.buses.length).length = s.buses.length := by
      rw [List.length_take, Nat.min_eq_left h.length]
    refine ⟨h.broker, fun i b' hb' => ?_, Nat.le_of_eq hlength.symm, fun ho => ?_, h.told⟩
    · refine h.buses i b' ?_
      rw [List.getElem?_take] at hb'
      split at hb'
      · exact hb'
      · cases hb'
    · have hbefore := List.take_sublist s.buses.length t.buses
      exact ⟨(h.ordered ho).increasing.sublist (hbefore.map _),
        fun b hb => (h.ordered ho).known b (hbefore.subset hb)⟩

theorem whileOpen_ind {α : Type} {i : Nat} {act : Bus H → Call BusError (Network H) α}
    {s : Network H} {P : Network H → Prop} (hs : P s)
    (h : ∀ bus, s.buses[i]? = some bus → bus.state.isTerminal = false → P (act bus s).2) :
    P (whileOpen i act s).2 := by
  unfold whileOpen
  split
  · exact hs
  · rename_i bus hb
    split
    · exact hs
    · rename_i hopen
      exact h bus hb (Bool.eq_false_iff.mpr hopen)

theorem publishOver_quiet (s : Network H) (i : Nat) (e : Event) :
    s.Quiet (publishOver i e s).2 := by
  unfold publishOver
  split
  · exact .refl s
  · rename_i bus hb
    have h := (publishEvent_called i bus.config.exchange e s).quiet
    split <;> rename_i hp <;> rw [hp] at h
    · exact h.trans (quiet_observe ..)
    · exact h.trans (quiet_observe ..)

theorem publish_quiet (s : Network H) (i : Nat) (e : Event) : s.Quiet (publish i e s).2 :=
  whileOpen_ind (.refl s) fun _ _ _ => s.publishOver_quiet i e

theorem restore_quiet (s : Network H) (i : Nat) : s.Quiet (restore i s).2 := by
  refine whileOpen_ind (.refl s) fun bus _ _ => Called.quiet ?_
  exact (declare_called (H := H) i bus.config.topology).bind Called.trans
    (fun _ => .forM Called.refl Called.trans (bind_called i bus.config.topology) _) s

theorem beginClose_quiet (s : Network H) (i : Nat) : s.Quiet (s.beginClose i) := by
  unfold beginClose
  split
  · exact .refl s
  · split
    · exact .refl s
    · refine ((quiet_onBus s i fun b => ?_).trans (closeSession_called i _).quiet).trans
        (quiet_onBus _ i fun b => ?_)
      · exact ⟨rfl, rfl, rfl, rfl⟩
      · exact ⟨rfl, rfl, rfl, rfl⟩

theorem finishClose_quiet (s : Network H) (i : Nat) : s.Quiet (finishClose i s).2 := by
  unfold finishClose
  split
  · exact .refl s
  · exact quiet_onBus s i fun b => ⟨rfl, rfl, rfl, rfl⟩

def withHandler (kind : EventKind) (handler : H) (b : Bus H) : Bus H :=
  { b with registry := b.registry.insert kind handler }

def withDispatcher (st : Broker.Stream) (b : Bus H) : Bus H :=
  { b.enter .consuming with dispatchers := b.dispatchers ++ [{ stream := st }] }

theorem subscribe_cases (s : Network H) (i : Nat) (kind : EventKind) (handler : H) :
    s.Quiet (subscribe i kind handler s).2 ∨ ∃ s', s.Quiet s' ∧
      (subscribe i kind handler s).2 = s'.onBus i (withHandler kind handler) := by
  refine whileOpen_ind (P := fun t => s.Quiet t ∨ ∃ s', s.Quiet s' ∧
    t = s'.onBus i (withHandler kind handler)) (.inl (.refl s)) fun bus _ _ => ?_
  have hq := (bind_called i bus.config.topology kind.name s).quiet
  rcases Call.bind_cases ((calls i).bind bus.config.topology kind.name) (fun _ =>
    modify (·.onBus i (withHandler kind handler))) s with h | ⟨_, -, h⟩
  · exact .inl (h ▸ hq)
  · exact .inr ⟨_, hq, h⟩

theorem consume_ok {s : Network H} {i : Nat} {queue tag : String} {st : Broker.Stream}
    (h : (consume i queue tag s).1 = .ok st) :
    ∃ bus, s.buses[i]? = some bus ∧ s.broker.consume bus.session queue = .ok st := by
  simp only [consume, onSession] at h
  split at h
  · cases h
  · rename_i bus hb
    refine ⟨bus, hb, ?_⟩
    cases hc : s.broker.consume bus.session queue with
    | error e =>
      rw [hc] at h
      split at h <;> cases h
    | ok stream =>
      rw [hc] at h
      split at h <;> cases h
      rfl

theorem start_cases (s : Network H) (i : Nat) :
    s.Quiet (start i s).2 ∨ ∃ s' bus st, s.Called s' ∧ s.buses[i]? = some bus ∧
      s.broker.consume bus.session bus.config.topology.queue.name = .ok st ∧
      (start i s).2 = s'.onBus i (withDispatcher st) := by
  refine whileOpen_ind (P := fun t => s.Quiet t ∨ ∃ s' bus st, s.Called s' ∧
    s.buses[i]? = some bus ∧ s.broker.consume bus.session bus.config.topology.queue.name = .ok st ∧
      t = s'.onBus i (withDispatcher st)) (.inl (.refl s)) fun bus hb _ => ?_
  split
  · exact .inl (.refl s)
  · let call : Call BusError (Network H) Broker.Stream := ExceptT.adapt .transportError
      (consume i bus.config.topology.queue.name bus.config.effectiveTag)
    have hc : s.Called (call s).2 := consume_called i _ _ s
    rcases call.bind_cases (fun st => modify (·.onBus i (withDispatcher st))) s with
      h | ⟨st, hst, h⟩
    · exact .inl (h ▸ hc.quiet)
    · obtain ⟨bus', hb', hst⟩ := consume_ok (Call.adapt_eq_ok hst)
      obtain rfl : bus = bus' := Option.some.inj (hb.symm.trans hb')
      exact .inr ⟨_, bus, st, hc, hb, hst, h⟩

end Network
end CargoEvents
