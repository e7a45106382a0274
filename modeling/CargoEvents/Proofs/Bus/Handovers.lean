import CargoEvents.Proofs.Broker.Holding
import CargoEvents.Proofs.Bus.Closing

/-! # Handing over

A copy changes hands when a dispatcher pulls it, when the delivery is resolved and when the
session that holds it closes. The history tells of each of these (`passages`), and of the calls
that the broker refused; `perform_handover` says once what an act does to the broker and what it
adds to what is told.
-/
namespace CargoEvents

def SessionCall.letsGo : SessionCall → Bool
  | ack _ | nack .. | close => true
  | _ => false

/-- Whether the entry tells of a delivery that was pulled, of its handler, of a call that lets go
of deliveries, or of one that counts as acknowledged. -/
def Entry.isPassage {H : Type} : Entry H → Bool
  | .pulled .. | .entered .. => true
  | .called _ c _ => c.letsGo
  | .observed _ (.delivery _ .ack) => true
  | _ => false

namespace Network
variable {H : Type} {s t u : Network H} {i k : Nat} {bus : Bus H} {queue : String}
open Broker (Action Polled Resolution Stream)

/-- What is told of copies that change hands, in the order of time. -/
def passages (s : Network H) : List (Entry H) := s.history.reverse.filter Entry.isPassage

@[simp] theorem passages_note (s : Network H) (e : Entry H) :
    (s.note e).passages = s.passages ++ [e].filter Entry.isPassage := by
  simp [passages, note]

theorem passages_observe (s : Network H) (i : Nat) (os : List Observation) :
    (s.observe i os).passages = s.passages ++ (os.map (.observed i)).filter Entry.isPassage := by
  induction os generalizing s with
  | nil => simp [observe]
  | cons o os ih =>
    refine (ih (s.note (.observed i o))).trans ?_
    rw [passages_note, List.append_assoc, ← List.filter_append]
    rfl

@[simp] theorem passages_report (s : Network H) (i : Nat) (es : List BusError) :
    (s.report i es).passages = s.passages := by
  have hlogged (s : Network H) (records : List LogRecord) :
      (records.foldl (fun s r => s.note (.logged r)) s).passages = s.passages := by
    induction records generalizing s with
    | nil => rfl
    | cons r records ih =>
      refine (ih _).trans ?_
      rw [passages_note]
      exact List.append_nil _
  induction es generalizing s with
  | nil => rfl
  | cons e es ih =>
    obtain ⟨records, h⟩ := s.report_cons i e es
    rw [h, ih, hlogged, passages_note]
    exact List.append_nil _

/-! ## What leaves copies where they are -/

/-- No copy of the queue changed hands. -/
structure Calm (queue : String) (s t : Network H) : Prop where
  broker : ∃ actions, t.broker = s.broker.run actions ∧ ∀ a ∈ actions, a.isCalm queue
  passages : t.passages = s.passages

theorem Calm.of_eq (hb : t.broker = s.broker) (hp : t.passages = s.passages) : Calm queue s t :=
  ⟨⟨[], hb, by simp⟩, hp⟩

theorem Calm.refl (s : Network H) : Calm queue s s := .of_eq rfl rfl

theorem Calm.trans (s t u : Network H) (h : Calm queue s t) (h' : Calm queue t u) :
    Calm queue s u := by
  obtain ⟨xs, hx, hxs⟩ := h.broker
  obtain ⟨ys, hy, hys⟩ := h'.broker
  refine ⟨⟨xs ++ ys, by rw [hy, hx, Broker.run_append], fun a ha => ?_⟩,
    h'.passages.trans h.passages⟩
  exact (List.mem_append.mp ha).elim (hxs a) (hys a)

theorem onSession_calm {α : Type} {c : SessionCall} (hc : c.letsGo = false)
    {op : Nat → Broker → Except BrokerError (α × Broker)}
    (hop : ∀ session b a b', op session b = .ok (a, b') →
      ∃ action : Action, action.isCalm queue ∧ b' = b.act action) :
    Call.Within (Calm queue) (onSession (H := H) i c op) := by
  intro s
  have hnoted (t : Network H) (refusal : Option BrokerError) (ht : Calm queue s t) :
      Calm queue s (t.note (.called i c refusal)) := by
    refine ⟨ht.broker, ?_⟩
    rw [passages_note, ht.passages]
    simp [Entry.isPassage, hc]
  simp only [onSession]
  cases s.buses[i]? with
  | none => exact .refl s
  | some bus =>
    dsimp only
    split
    · exact hnoted _ _ (.of_eq rfl rfl)
    · cases ho : op bus.session s.broker with
      | error e => exact hnoted _ _ (.refl s)
      | ok p =>
        obtain ⟨action, hcalm, hact⟩ := hop _ _ p.1 p.2 ho
        exact hnoted _ _ ⟨⟨[action], hact, by simpa using hcalm⟩, rfl⟩

theorem onSession'_calm {c : SessionCall} (hc : c.letsGo = false)
    {op : Nat → Broker → Except BrokerError Broker}
    (hop : ∀ session b b', op session b = .ok b' →
      ∃ action : Action, action.isCalm queue ∧ b' = b.act action) :
    Call.Within (Calm queue) (onSession' (H := H) i c op) := by
  refine onSession_calm hc fun session b _ b' h => ?_
  cases ho : op session b with
  | error e =>
    rw [ho] at h
    cases h
  | ok b₁ =>
    rw [ho] at h
    cases h
    exact hop session b b' ho

theorem declare_calm (i : Nat) (t : Topology) :
    Call.Within (Calm queue) ((calls (H := H) i).declare t) := by
  refine .adapt (.bind Calm.trans ?_ fun _ => .bind Calm.trans ?_ fun _ => ?_) _
  · exact onSession'_calm rfl fun session _ _ h => ⟨.declareExchange session _, rfl, act_of_ok h⟩
  · exact onSession'_calm rfl fun session _ _ h => ⟨.declareQueue session _, rfl, act_of_ok h⟩
  · exact onSession'_calm rfl fun session _ _ h => ⟨.setQos session _, rfl, act_of_ok h⟩

theorem bind_calm (i : Nat) (t : Topology) (key : String) :
    Call.Within (Calm queue) ((calls (H := H) i).bind t key) :=
  .adapt (onSession'_calm rfl fun session _ _ h => ⟨.bindQueue session _ _ _, rfl, act_of_ok h⟩) _

theorem publishEvent_calm (i : Nat) (exchange : String) (e : Event) :
    Call.Within (Calm queue) ((calls (H := H) i).publishEvent exchange e) :=
  .adapt (onSession'_calm rfl fun session _ _ h => ⟨.publish session _ _, rfl, act_of_ok h⟩) _

theorem consume_calm (i : Nat) (name tag : String) :
    Call.Within (Calm queue) (consume (H := H) i name tag) := by
  refine onSession_calm rfl fun session b stream b' h => ⟨.consume session name, rfl, ?_⟩
  cases hc : b.consume session name with
  | error e =>
    rw [hc] at h
    cases h
  | ok st =>
    rw [hc] at h
    cases h
    simp [Broker.act, hc]
    rfl

theorem build_calm (s : Network H) (config : BusConfig) (sink : ErrorSink)
    (faults : List (String × BrokerError)) : Calm queue s (build config sink faults s).2 := by
  let bus : Bus H := { config, session := s.broker.sessions.length, sink, faults }
  let s₁ : Network H := { s with broker := s.broker.openSession, buses := s.buses ++ [bus] }
  have hopened : Calm queue s s₁ := ⟨⟨[.openSession], rfl, by simp [Broker.Action.isCalm]⟩, rfl⟩
  have hdeclared : Calm queue s _ :=
    hopened.trans _ _ _ (declare_calm s.buses.length config.topology s₁)
  simp only [build]
  split <;> rename_i hd <;> rw [hd] at hdeclared
  · exact hdeclared
  · exact hdeclared.trans _ _ _ (.of_eq rfl rfl)

theorem publishOver_calm (s : Network H) (i : Nat) (e : Event) :
    Calm queue s (publishOver i e s).2 := by
  unfold publishOver
  split
  · exact .refl s
  · rename_i bus hb
    have hcalled : Calm queue s _ := publishEvent_calm i bus.config.exchange e s
    have hcounted {t : Network H} {o : Observation}
        (ho : Entry.isPassage (.observed (H := H) i o) = false) :
        Calm queue t (t.observe i [o]) := by
      refine .of_eq (observe_broker ..) ?_
      simp [passages_observe, ho]
    split <;> rename_i hp <;> rw [hp] at hcalled
    · exact hcalled.trans _ _ _ (hcounted rfl)
    · exact hcalled.trans _ _ _ (hcounted rfl)

theorem subscribe_calm (s : Network H) (i : Nat) (kind : EventKind) (handler : H) :
    Calm queue s (subscribe i kind handler s).2 := by
  refine whileOpen_ind (.refl s) fun bus _ _ => ?_
  exact (bind_calm (H := H) i bus.config.topology kind.name).bind Calm.trans
    (fun _ _ => .of_eq rfl rfl) s

theorem restore_calm (s : Network H) (i : Nat) : Calm queue s (restore i s).2 := by
  refine whileOpen_ind (.refl s) fun bus _ _ => ?_
  exact (declare_calm (H := H) i bus.config.topology).bind Calm.trans
    (fun _ => .forM Calm.refl Calm.trans (bind_calm i bus.config.topology) _) s

theorem start_calm (s : Network H) (i : Nat) : Calm queue s (start i s).2 := by
  refine whileOpen_ind (.refl s) fun bus _ _ => ?_
  split
  · exact .refl s
  · exact ((consume_calm (H := H) i bus.config.topology.queue.name bus.config.effectiveTag).adapt
      BusError.transportError).bind Calm.trans (fun _ _ => .of_eq rfl rfl) s

theorem finishClose_calm (s : Network H) (i : Nat) : Calm queue s (finishClose i s).2 := by
  unfold finishClose
  split
  · exact .refl s
  · exact .of_eq rfl rfl

/-! ## What hands copies over -/

/-- A call of the bus that lets go of deliveries reaches the broker, or is refused: by a fault that
is set for it, or by the broker. -/
def Answered (bus : Bus H) (c : SessionCall) (b : Broker) (op : Broker → Except BrokerError Broker)
    (refusal : Option BrokerError) (b' : Broker) : Prop :=
  refusal = none ∧ op b = .ok b' ∨
    refusal ≠ none ∧ b' = b ∧ (takeFault c.name bus.faults = none → ∀ b', op b ≠ .ok b')

theorem onSession'_answered {c : SessionCall} (hc : c.letsGo) (hb : s.buses[i]? = some bus)
    (op : Nat → Broker → Except BrokerError Broker) :
    ∃ refusal, Answered bus c s.broker (op bus.session) refusal (onSession' i c op s).2.broker ∧
      (onSession' i c op s).2.passages = s.passages ++ [.called i c refusal] := by
  have hnoted (t : Network H) (ht : t.history = s.history) (refusal : Option BrokerError) :
      (t.note (.called i c refusal)).passages = s.passages ++ [.called i c refusal] := by
    rw [passages_note, passages, passages, ht]
    simp [Entry.isPassage, hc]
  simp only [onSession', onSession, hb]
  split
  · rename_i e faults hf
    refine ⟨some e, .inr ⟨Option.some_ne_none e, rfl, fun hnone => ?_⟩, hnoted (s.onBus i _) rfl _⟩
    rw [hf] at hnone
    cases hnone
  · cases ho : op bus.session s.broker with
    | error e => exact ⟨some e, .inr ⟨Option.some_ne_none e, rfl, fun _ _ => by simp [ho]⟩, hnoted s rfl _⟩
    | ok b' => exact ⟨none, .inl ⟨rfl, ho⟩, hnoted { s with broker := b' } rfl _⟩

inductive Resolves (i k : Nat) :
    Act H → Position H → Broker.Delivery → Resolution → List Observation → Prop
  | acknowledges (d : Broker.Delivery) :
      Resolves i k (.acknowledge i k) (.acknowledging d) d .ack [.delivery d.kind .ack]
  | givesBack (d : Broker.Delivery) (v : Verdict) :
      Resolves i k (.resume i k) (.pausing d v) d (.nack true) []

inductive Handover (queue : String) (s : Network H) (a : Act H) (t : Network H) : Prop
  | calm (h : Calm queue s t)
  | looked {i k : Nat} {bus : Bus H} {st st' : Stream} {polled : Polled} (ha : a = .pull i k)
      (hd : s.dispatcher? i k = some (bus, { stream := st, position := .pulling }))
      (hy : s.broker.poll st = (polled, st', t.broker))
      (hp : t.passages = s.passages ++ (received bus.registry i k polled).2)
  | resolved {i k : Nat} {bus : Bus H} {st : Stream} {p : Position H} {d : Broker.Delivery}
      {how : Resolution} {os : List Observation} {refusal : Option BrokerError}
      (hd : s.dispatcher? i k = some (bus, { stream := st, position := p }))
      (hr : Resolves i k a p d how os)
      (hanswered : Answered bus (.ofResolution d.tag how) s.broker
        (·.resolve bus.session d.tag how) refusal t.broker)
      (hp : t.passages = s.passages ++
        .called i (.ofResolution d.tag how) refusal :: os.map (.observed i))
  | closed {i : Nat} {bus : Bus H} {refusal : Option BrokerError} (ha : a = .beginClose i)
      (hb : s.buses[i]? = some bus)
      (hr : Answered bus .close s.broker (fun b => .ok (b.closeSession bus.session)) refusal
        t.broker)
      (hp : t.passages = s.passages ++ [.called i .close refusal])

theorem settle_answered {d : Broker.Delivery} (hb : s.buses[i]? = some bus) (how : Resolution)
    (os : List Observation) :
    let t := s.settle i bus d how os
    ∃ refusal, Answered bus (.ofResolution d.tag how) s.broker
        (·.resolve bus.session d.tag how) refusal t.broker ∧
      t.passages = s.passages ++ .called i (.ofResolution d.tag how) refusal ::
        (os.map (.observed i)).filter Entry.isPassage := by
  have hc : (SessionCall.ofResolution d.tag how).letsGo := by cases how <;> rfl
  obtain ⟨refusal, hr, hp⟩ : ∃ refusal, Answered bus (.ofResolution d.tag how) s.broker
      (·.resolve bus.session d.tag how) refusal (resolve i d.tag how s).2.broker ∧
      (resolve i d.tag how s).2.passages = _ :=
    onSession'_answered hc hb fun n b => b.resolve n d.tag how
  unfold settle
  generalize resolve i d.tag how s = resolved at hr hp
  obtain ⟨result, t⟩ := resolved
  refine ⟨refusal, by simpa using hr, ?_⟩
  rw [passages_report, passages_observe, hp, List.append_assoc]
  rfl

theorem acknowledge_handover (s : Network H) (i k : Nat) :
    Handover queue s (.acknowledge i k) (s.acknowledge i k) := by
  cases hd : s.dispatcher? i k with
  | none => exact .calm (by simpa only [acknowledge, hd] using .refl s)
  | some found =>
    obtain ⟨bus, st, p⟩ := found
    cases p with
    | acknowledging d =>
      obtain ⟨refusal, hr, hp⟩ :=
        settle_answered (d := d) (dispatcher?_bus hd) .ack [.delivery d.kind .ack]
      simp only [acknowledge, hd]
      exact .resolved hd (.acknowledges d) hr hp
    | pulling | handling | pausing | ended =>
      exact .calm (by simpa only [acknowledge, hd] using .refl s)

theorem resume_handover (s : Network H) (i k : Nat) :
    Handover queue s (.resume i k) (s.resume i k) := by
  cases hd : s.dispatcher? i k with
  | none => exact .calm (by simpa only [resume, hd] using .refl s)
  | some found =>
    obtain ⟨bus, st, p⟩ := found
    cases p with
    | pausing d v =>
      obtain ⟨refusal, hr, hp⟩ :=
        settle_answered (d := d) (dispatcher?_bus hd) (.nack true) (v.observed d.kind)
      have hnone : ((v.observed d.kind).map (.observed (H := H) i)).filter Entry.isPassage = [] := by
        cases v <;> rfl
      rw [hnone] at hp
      simp only [resume, hd]
      refine .resolved hd (.givesBack d v) ?_ ((passages_report ..).trans hp)
      exact (report_broker ..).symm ▸ hr
    | pulling | handling | acknowledging | ended =>
      exact .calm (by simpa only [resume, hd] using .refl s)

theorem accept_observed (registry : Registry H) (d : Broker.Delivery) (i : Nat) :
    ((registry.accept d).2.map (.observed (H := H) i)).filter Entry.isPassage = [] := by
  unfold Registry.accept
  split
  · rfl
  · split <;> rfl

theorem take_passages (hb : s.buses[i]? = some bus) (k : Nat) (polled : Polled) :
    (s.take i k polled).broker = s.broker ∧
      (s.take i k polled).passages = s.passages ++ (received bus.registry i k polled).2 := by
  cases polled with
  | pending | ended => exact ⟨rfl, (List.append_nil _).symm⟩
  | fault e => exact ⟨by simp [take], by simp [take, passages_observe, Entry.isPassage, received]⟩
  | delivery d =>
    have hnone := accept_observed bus.registry d i
    simp only [take, note_buses, hb, received]
    generalize bus.registry.accept d = accepted at hnone
    obtain ⟨p, os⟩ := accepted
    have hcounted (u : Network H) (hu : u.broker = s.broker) {es : List (Entry H)}
        (hes : u.passages = s.passages ++ es) :
        ((u.observe i os).move i k p).broker = s.broker ∧
          ((u.observe i os).move i k p).passages = s.passages ++ es := by
      refine ⟨(u.observe_broker i os).trans hu, (u.passages_observe i os).trans ?_⟩
      rw [hnone, List.append_nil, hes]
    cases p with
    | handling d' r e =>
      refine hcounted ((s.note (.pulled i k d)).note (.entered i k d' r e)) rfl ?_
      rw [passages_note, passages_note, List.append_assoc]
      rfl
    | pulling | acknowledging | pausing | ended =>
      exact hcounted (s.note (.pulled i k d)) rfl (s.passages_note _)

theorem pull_handover (s : Network H) (i k : Nat) :
    Handover queue s (.pull i k) (s.pull i k) := by
  cases hd : s.dispatcher? i k with
  | none => exact .calm (by simpa only [pull, hd] using .refl s)
  | some found =>
    obtain ⟨bus, st, p⟩ := found
    cases p with
    | pulling =>
      simp only [pull, hd]
      split
      · exact .calm (.of_eq rfl rfl)
      · obtain ⟨polled, st', b', hy⟩ : ∃ polled st' b', s.broker.poll st = (polled, st', b') :=
          ⟨_, _, _, rfl⟩
        rw [hy]
        let u : Network H :=
          { s with broker := b' }.onDispatcher i k fun d => { d with stream := st' }
        have hb : u.buses[i]? = some { bus with
            dispatchers := bus.dispatchers.modify k fun d => { d with stream := st' } } := by
          simp [u, onDispatcher, onBus, dispatcher?_bus hd]
        obtain ⟨hbroker, hp⟩ := take_passages hb k polled
        exact .looked rfl hd (hy.trans (by rw [hbroker]; rfl)) hp
    | handling | acknowledging | pausing | ended =>
      exact .calm (by simpa only [pull, hd] using .refl s)

theorem complete_calm (s : Network H) (i k : Nat) (result : Except HandlerError Unit) :
    Calm queue s (s.complete i k result) := by
  unfold complete
  split
  · rename_i d _ _ _
    refine .of_eq (observe_broker ..) ((passages_observe _ i [.handlerRun d.kind]).trans ?_)
    exact (List.append_nil _).trans ((s.passages_note _).trans (List.append_nil _))
  · exact .refl s

theorem panic_calm (s : Network H) (i k : Nat) : Calm queue s (s.panic i k) := by
  unfold panic
  split
  · exact .of_eq rfl ((s.passages_note _).trans (List.append_nil _))
  · exact .refl s

theorem beginClose_handover (s : Network H) (i : Nat) :
    Handover queue s (.beginClose i) (s.beginClose i) := by
  unfold beginClose
  split
  · exact .calm (.refl s)
  · rename_i bus hb
    split
    · exact .calm (.refl s)
    · let u : Network H := s.onBus i fun b => { b.enter .draining with shutdown := true }
      have hb' : u.buses[i]? = some { bus.enter .draining with shutdown := true } := by
        simp [u, onBus, hb]
      obtain ⟨refusal, hr, hp⟩ := onSession'_answered (c := .close) rfl hb'
        fun n b => .ok (b.closeSession n)
      exact .closed rfl hb hr hp

/-- Whether the act takes no copy of the queue past the dispatchers. -/
def Act.isShared (queue : String) : Act H → Bool
  | .beside a => a.isCalm queue
  | _ => true

theorem perform_handover (s : Network H) {a : Act H} (ha : a.isShared queue) :
    Handover queue s a (s.perform a) := by
  cases a with
  | build config sink faults => exact .calm (s.build_calm config sink faults)
  | publish i e => exact .calm (whileOpen_ind (.refl s) fun _ _ _ => s.publishOver_calm i e)
  | publishOver i e => exact .calm (s.publishOver_calm i e)
  | subscribe i kind handler => exact .calm (s.subscribe_calm i kind handler)
  | start i => exact .calm (s.start_calm i)
  | restore i => exact .calm (s.restore_calm i)
  | beginClose i => exact s.beginClose_handover i
  | finishClose i => exact .calm (s.finishClose_calm i)
  | drop i => exact .calm (.of_eq rfl rfl)
  | fault i faults => exact .calm (.of_eq rfl rfl)
  | beside a => exact .calm ⟨⟨[a], rfl, List.forall_mem_singleton.mpr ha⟩, rfl⟩
  | pull i k => exact s.pull_handover i k
  | complete i k result => exact .calm (s.complete_calm i k result)
  | panic i k => exact .calm (s.panic_calm i k)
  | acknowledge i k => exact s.acknowledge_handover i k
  | resume i k => exact s.resume_handover i k

end Network
end CargoEvents
