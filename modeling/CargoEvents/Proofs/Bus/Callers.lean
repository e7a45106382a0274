import CargoEvents.Proofs.Bus.Closing

/-! # Callers that come in between

Callers share a bus, and what one of them asks is not done at once: between looking at the
state, calling the session and changing the bus, others go on. Each phase below ends where that
can happen. Callers that start or close a bus hold its lock from before they look at the state
until they return; all others go on without it. A request that nobody comes between is the call
of its name (`taken_alone`).
-/
namespace CargoEvents.Network
variable {H : Type}
open Broker (Polled Stream)

inductive Request (H : Type)
  | publish (e : Event)
  | subscribe (kind : EventKind) (handler : H)
  | restore
  | start
  | close
  deriving DecidableEq

/-- What is declared of a topology, one call for each. -/
inductive Declaration
  | exchange
  | queue
  | qos
  deriving DecidableEq

def Declaration.call (i : Nat) (t : Topology) : Declaration → Call BrokerError (Network H) Unit
  | exchange => (calls i).declareExchange t.exchange
  | queue => (calls i).declareQueue t.queue
  | qos => (calls i).setQos t.qos

/-- Where a caller is with its request. -/
inductive Phase : Request H → Type
  /-- It has not looked at the state. -/
  | asking {r : Request H} : Phase r
  /-- It found the bus open. -/
  | announcing {e : Event} : Phase (.publish e)
  | binding {kind : EventKind} {handler : H} (t : Topology) : Phase (.subscribe kind handler)
  | registering {kind : EventKind} {handler : H} : Phase (.subscribe kind handler)
  | declaring (t : Topology) (left : List Declaration) : Phase .restore
  | rebinding (t : Topology) (left : List String) : Phase .restore
  /-- It has the lock. -/
  | starting : Phase .start
  /-- It found the bus idle. -/
  | consuming (config : BusConfig) : Phase .start
  | launching (st : Stream) : Phase .start
  /-- It has the lock. -/
  | closing : Phase .close
  /-- It found the bus not closed. -/
  | draining : Phase .close
  | stopping : Phase .close
  | shutting : Phase .close
  /-- The session closed with this result. It waits for the dispatcher, for a while. -/
  | waiting (closed : Except BrokerError Unit) : Phase .close
  | returned {r : Request H} (result : Except BusError Unit) : Phase r
  /-- It does not wait for the answer any more. -/
  | gone {r : Request H} : Phase r
  deriving DecidableEq

namespace Phase
variable {r : Request H}

/-- Whether a caller at this phase has the lock. -/
def holds : {r : Request H} → Phase r → Bool
  | _, starting | _, consuming _ | _, launching _ => true
  | _, closing | _, draining | _, stopping | _, shutting | _, waiting _ => true
  | _, _ => false

/-- Whether a caller at this phase goes on only with the lock, which it does not have. -/
def needs : {r : Request H} → Phase r → Bool
  | .start, asking | .close, asking => true
  | _, _ => false

/-- What a caller of bus `i` does at a phase, and the phase it gets to. An error is returned. -/
def proceed (i : Nat) : {r : Request H} → Phase r → Call BusError (Network H) (Phase r)
  | .publish _, asking => whileOpen i fun _ => pure announcing
  | .publish e, announcing => do
    publishOver i e
    pure (returned (.ok ()))
  | .subscribe .., asking => whileOpen i fun bus => pure (binding bus.config.topology)
  | .subscribe kind _, binding t => do
    (calls i).bind t kind.name
    pure registering
  | .subscribe kind handler, registering => do
    modify (·.onBus i (withHandler kind handler))
    pure (returned (.ok ()))
  | .restore, asking =>
    whileOpen i fun bus => pure (declaring bus.config.topology [.exchange, .queue, .qos])
  | .restore, declaring t (d :: left) => do
    ExceptT.adapt .topologyFailed (d.call i t)
    pure (declaring t left)
  | .restore, declaring t [] => recalling fun keys => rebinding t keys
  | .restore, rebinding t (key :: left) => do
    (calls i).bind t key
    pure (rebinding t left)
  | .restore, rebinding _ [] => pure (returned (.ok ()))
  | .start, asking => pure starting
  | .start, starting => whileOpen i fun bus =>
    if bus.state = .consuming then throw .alreadyStarted else pure (consuming bus.config)
  | .start, consuming config => do
    let stream ← ExceptT.adapt .transportError
      (consume i config.topology.queue.name config.effectiveTag)
    pure (launching stream)
  | .start, launching stream => do
    modify (·.onBus i (withDispatcher stream))
    pure (returned (.ok ()))
  | .close, asking => pure closing
  | .close, closing => fun s =>
    (.ok (if s.buses[i]?.all (·.state = .closed) then returned (.ok ()) else draining), s)
  | .close, draining => do
    modify (·.onBus i (·.enter .draining))
    pure stopping
  | .close, stopping => do
    modify (·.onBus i fun b => { b with shutdown := true })
    pure shutting
  | .close, shutting => fun s => (.ok (waiting (closeSession i s).1), s.shut i)
  | .close, waiting closed => do
    modify (·.onBus i fun b => { b.enter .closed with closing := none })
    ExceptT.mk (pure (closed.mapError .connectionFailed))
    pure (returned (.ok ()))
  | _, returned result => pure (returned result)
  | _, gone => pure gone
where
  /-- Looks up the keys of the handlers that are registered now. -/
  recalling (next : List String → Phase (.restore : Request H)) :
      Call BusError (Network H) (Phase (.restore : Request H)) := fun s =>
    (.ok (next ((s.buses[i]?.map (·.registry.routingKeys)).getD [])), s)

def after : Except BusError (Phase r) → Phase r
  | .ok p => p
  | .error e => returned (.error e)

end Phase

structure Caller (H : Type) where
  bus : Nat
  request : Request H
  phase : Phase request := .asking
  deriving DecidableEq

end Network

/-- A network and those who call its buses. -/
structure Floor (H : Type) where
  network : Network H := {}
  callers : List (Network.Caller H) := []

namespace Network
variable {H : Type}
open Broker (Polled Stream)

/-- The act is taken in phases where callers come in between. -/
def Act.isCall : Act H → Bool
  | .publish .. | .subscribe .. | .start _ | .restore _ | .beginClose _ | .finishClose _ => true
  | _ => false

inductive Happening (H : Type)
  | call (i : Nat) (r : Request H)
  | proceed (c : Nat)
  | leave (c : Nat)
  /-- Dispatcher `k` of bus `i` looked at its stream before, and takes now what it found. -/
  | yielded (i k : Nat) (polled : Polled)
  /-- Anything but a call of a bus happens at once. -/
  | other (a : Act H)

/-- A dispatcher that pulls takes what its stream yielded, whatever came in between. -/
def receive (i k : Nat) (polled : Polled) (s : Network H) : Network H :=
  match s.dispatcher? i k with
  | some (_, { position := .pulling, .. }) => s.take i k polled
  | _ => s

end Network

namespace Floor
variable {H : Type}
open Network

def isLocked (f : Floor H) (i : Nat) : Bool := f.callers.any fun x => x.bus == i && x.phase.holds

def proceed (f : Floor H) (c : Nat) : Floor H :=
  match f.callers[c]? with
  | none => f
  | some caller =>
    if caller.phase.needs && f.isLocked caller.bus then f
    else
      let (next, network) := caller.phase.proceed caller.bus f.network
      { network, callers := f.callers.set c { caller with phase := .after next } }

def happen (f : Floor H) : Happening H → Floor H
  | .call i request =>
    if i < f.network.buses.length then { f with callers := f.callers ++ [{ bus := i, request }] }
    else f
  | .proceed c => f.proceed c
  | .leave c => { f with callers := f.callers.modify c fun x => { x with phase := .gone } }
  | .yielded i k polled => { f with network := f.network.receive i k polled }
  | .other a => if a.isCall then f else { f with network := f.network.perform a }

def run (f : Floor H) (hs : List (Happening H)) : Floor H := hs.foldl happen f

@[simp] theorem run_nil (f : Floor H) : f.run [] = f := rfl

@[simp] theorem run_cons (f : Floor H) (h : Happening H) (hs : List (Happening H)) :
    f.run (h :: hs) = (f.happen h).run hs := rfl

theorem run_append (f : Floor H) (xs ys : List (Happening H)) :
    f.run (xs ++ ys) = (f.run xs).run ys := List.foldl_append ..

end Floor

/-! ## Callers that nobody comes between -/

namespace Network
variable {H : Type} {r : Request H} {i : Nat} {s t : Network H}
open Broker (Polled Stream)

def Request.call (i : Nat) : Request H → Call BusError (Network H) Unit
  | .publish e => Network.publish i e
  | .subscribe kind handler => Network.subscribe i kind handler
  | .restore => Network.restore i
  | .start => Network.start i
  | .close => fun s => finishClose i (s.beginClose i)

/-- A caller gets from one phase to another without a break. -/
inductive Taken (i : Nat) {r : Request H} : Phase r → Network H → Phase r → Network H → Prop
  | here {p : Phase r} {s : Network H} : Taken i p s p s
  | step {p q : Phase r} {s t : Network H}
      (h : Taken i (.after (p.proceed i s).1) (p.proceed i s).2 q t) : Taken i p s q t

/-- From this phase the caller does what `act` does, and returns with its result. -/
def Phase.Takes (i : Nat) (p : Phase r) (act : Call BusError (Network H) Unit) (s : Network H) :
    Prop := Taken i p s (.returned (act s).1) (act s).2

theorem Phase.Takes.step {p : Phase r} {act : Call BusError (Network H) Unit}
    (h : Taken i (.after (p.proceed i s).1) (p.proceed i s).2 (.returned (act s).1) (act s).2) :
    p.Takes i act s := Taken.step h

theorem Phase.takes_bind {α : Type} {p : Phase r} {c : Call BusError (Network H) α}
    (next : α → Phase r) {rest : α → Call BusError (Network H) Unit}
    (hp : p.proceed i s = (c >>= fun a => pure (next a)) s)
    (h : ∀ a t, c s = (.ok a, t) → (next a).Takes i (rest a) t) : p.Takes i (c >>= rest) s := by
  refine .step ?_
  rw [hp, Call.bind_apply, Call.bind_apply]
  cases hc : c s with
  | mk result t =>
    cases result with
    | error e => exact .here
    | ok a => exact h a t hc

theorem Phase.takes_last {p : Phase r} {c : Call BusError (Network H) Unit}
    (hp : p.proceed i s = (c >>= fun _ => pure (returned (.ok ()))) s) : p.Takes i c s := by
  refine .step ?_
  rw [hp, Call.bind_apply]
  rcases c s with ⟨e | u, t⟩ <;> exact .here

theorem Phase.takes_whileOpen {p : Phase r} {look : Bus H → Call BusError (Network H) (Phase r)}
    {act : Bus H → Call BusError (Network H) Unit} (hp : p.proceed i s = whileOpen i look s)
    (h : ∀ bus, s.buses[i]? = some bus →
      Taken i (.after (look bus s).1) (look bus s).2 (.returned (act bus s).1) (act bus s).2) :
    p.Takes i (whileOpen i act) s := by
  refine .step ?_
  rw [hp, whileOpen, whileOpen]
  cases hb : s.buses[i]? with
  | none => exact .here
  | some bus =>
    by_cases hs : bus.state.isTerminal
    · simp only [hs, if_true]
      exact .here
    · simp only [hs]
      exact h bus hb

theorem publish_taken (e : Event) (s : Network H) :
    (Phase.asking : Phase (.publish e)).Takes i (publish i e) s := by
  refine Phase.takes_whileOpen rfl fun bus _ => ?_
  exact Phase.takes_last (p := .announcing) rfl

theorem subscribe_taken (kind : EventKind) (handler : H) (s : Network H) :
    (Phase.asking : Phase (.subscribe kind handler)).Takes i (subscribe i kind handler) s := by
  refine Phase.takes_whileOpen rfl fun bus _ => ?_
  refine Phase.takes_bind (p := .binding bus.config.topology) (fun _ => .registering) rfl
    fun _ t _ => ?_
  exact .step .here

theorem rebinding_taken (t : Topology) (keys : List String) (s : Network H) :
    (Phase.rebinding t keys).Takes i (keys.forM ((calls i).bind t)) s := by
  induction keys generalizing s with
  | nil => exact .step .here
  | cons key keys ih => exact Phase.takes_bind (fun _ => .rebinding t keys) rfl fun _ t' _ => ih t'

theorem adapt_bind {ε ε' σ α β : Type} (f : ε → ε') (c : Call ε σ α) (g : α → Call ε σ β) :
    ExceptT.adapt f (c >>= g) = ExceptT.adapt f c >>= fun a => ExceptT.adapt f (g a) := by
  funext s
  rw [Call.bind_apply, Call.adapt_apply, Call.adapt_apply, Call.bind_apply]
  rcases c s with ⟨e | a, t⟩ <;> rfl

theorem declare_eq (t : Topology) : (calls (H := H) i).declare t =
    [Declaration.exchange, .queue, .qos].forM fun d =>
      ExceptT.adapt .topologyFailed (d.call i t) := by
  have hlast (c : Call BusError (Network H) PUnit) : (c >>= fun _ => pure ⟨⟩) = c := bind_pure c
  simp only [SessionCalls.declare, adapt_bind, List.forM, hlast, Declaration.call]

theorem declaration_called (t : Topology) (d : Declaration) :
    Call.Within Called (d.call (H := H) i t) := by
  cases d with
  | exchange =>
    exact onSession'_called rfl fun session _ _ h => ⟨.declareExchange session _, rfl, act_of_ok h⟩
  | queue =>
    exact onSession'_called rfl fun session _ _ h => ⟨.declareQueue session _, rfl, act_of_ok h⟩
  | qos => exact onSession'_called rfl fun session _ _ h => ⟨.setQos session _, rfl, act_of_ok h⟩

theorem declaring_taken (t : Topology) (left : List Declaration)
    {rest : Call BusError (Network H) Unit} (s : Network H)
    (h : ∀ s', s.Called s' → (Phase.declaring t []).Takes i rest s') :
    (Phase.declaring t left).Takes i ((left.forM fun d =>
      ExceptT.adapt .topologyFailed (d.call i t)) >>= fun _ => rest) s := by
  induction left generalizing s with
  | nil => exact h s (.refl s)
  | cons d left ih =>
    have hassoc : (((d :: left).forM fun d => ExceptT.adapt .topologyFailed (d.call i t)) >>= fun _ =>
        rest) = ExceptT.adapt .topologyFailed (d.call i t) >>= fun _ =>
          ((left.forM fun d => ExceptT.adapt .topologyFailed (d.call i t)) >>= fun _ => rest) :=
      bind_assoc ..
    rw [hassoc]
    refine Phase.takes_bind (fun _ => .declaring t left) rfl fun _ s₁ hd => ih s₁ fun s' hs' => ?_
    have hcalled : s.Called s₁ := by
      have hcalled := (declaration_called (H := H) (i := i) t d).adapt BusError.topologyFailed s
      rwa [hd] at hcalled
    exact h s' (hcalled.trans _ _ _ hs')

theorem restore_taken (s : Network H) :
    (Phase.asking : Phase .restore).Takes i (restore i) s := by
  refine Phase.takes_whileOpen rfl fun bus hb => ?_
  rw [declare_eq]
  refine declaring_taken _ _ s fun s' hs' => ?_
  -- The keys are looked up only now, but declaring has left them as they were.
  obtain ⟨faults, hf, -⟩ := hs'.buses i
  rw [hb] at hf
  refine .step ?_
  have hkeys : (s'.buses[i]?.map (·.registry.routingKeys)).getD [] = bus.registry.routingKeys := by
    rw [hf]
    rfl
  rw [Phase.proceed, Phase.proceed.recalling, hkeys]
  exact rebinding_taken ..

theorem start_taken (s : Network H) : (Phase.asking : Phase .start).Takes i (start i) s := by
  refine .step (Phase.takes_whileOpen (p := .starting) rfl fun bus _ => ?_)
  by_cases hs : bus.state = .consuming
  · simp only [hs, if_true]
    exact .here
  · simp only [hs, if_false]
    refine Phase.takes_bind (p := .consuming bus.config) .launching rfl fun st t _ => ?_
    exact .step .here

theorem waiting_taken {closed : Except BrokerError Unit}
    (h : s.buses[i]?.bind (·.closing) = some closed) :
    (Phase.waiting closed).Takes i (finishClose i) s := by
  refine .step ?_
  simp only [finishClose, h]
  cases closed <;> exact .here

theorem shut_eq (s : Network H) (i : Nat) : s.shut i =
    (closeSession i s).2.onBus i fun b => { b with closing := some (closeSession i s).1 } := rfl

theorem shut_closing {bus : Bus H} (hb : s.buses[i]? = some bus) :
    (s.shut i).buses[i]?.bind (·.closing) = some (closeSession i s).1 := by
  obtain ⟨faults, hf, -⟩ := (closeSession_called i s).buses i
  rw [shut_eq, onBus, List.getElem?_modify_eq, hf, hb]
  rfl

theorem closing_taken (s : Network H)
    (hclosing : ∀ bus, s.buses[i]? = some bus → bus.closing = none) :
    Phase.closing.Takes i (Request.call i .close) s := by
  refine .step ?_
  have hlook : Phase.closing.proceed i s =
      (.ok (if s.buses[i]?.all (·.state = .closed) then .returned (.ok ()) else .draining), s) := rfl
  rw [hlook]
  -- What is left of the call when the bus is not there, or closed.
  have hstill (hs : s.beginClose i = s) (hnone : s.buses[i]?.bind (·.closing) = none) :
      Request.call i .close s = (.ok (), s) := by
    simp only [Request.call, hs, finishClose, hnone]
  cases hb : s.buses[i]? with
  | none =>
    rw [hstill (by simp [beginClose, hb]) (by simp [hb])]
    exact .here
  | some bus =>
    have hnone := hclosing bus hb
    by_cases hs : bus.state = .closed
    · rw [hstill (by simp [beginClose, hb, hs]) (by simp [hb, hnone])]
      simp only [Option.all_some, hs, decide_true, if_true]
      exact .here
    · have hcall : Request.call i .close s = finishClose i ((s.stop i).shut i) := by
        simp only [Request.call, beginClose_eq hb hs hnone]
      have hstop : (s.onBus i (·.enter .draining)).onBus i (fun b => { b with shutdown := true }) =
          s.stop i := by
        simp only [onBus, stop, List.modify_modify_eq]
        rfl
      have hstopped : (s.stop i).buses[i]? = some { bus.enter .draining with shutdown := true } := by
        simp [stop, onBus, hb]
      have hwaits := waiting_taken (shut_closing hstopped)
      simp only [Option.all_some, hs, decide_false]
      rw [hcall]
      refine .step (p := .draining) (.step (p := .stopping) (.step (p := .shutting) ?_))
      exact hstop ▸ hwaits

theorem Request.taken (r : Request H) (s : Network H)
    (hclosing : ∀ bus, s.buses[i]? = some bus → bus.closing = none) :
    (Phase.asking : Phase r).Takes i (r.call i) s := by
  cases r with
  | publish e => exact publish_taken e s
  | subscribe kind handler => exact subscribe_taken kind handler s
  | restore => exact restore_taken s
  | start => exact start_taken s
  | close => exact .step (closing_taken s hclosing)

end Network

namespace Floor
open Network
variable {H : Type} {f : Floor H} {c : Nat} {i : Nat} {r : Request H} {p q : Phase r}

theorem proceed_eq (hc : f.callers[c]? = some ⟨i, r, p⟩) (hfree : p.needs → f.isLocked i = false) :
    f.proceed c = ⟨(p.proceed i f.network).2,
      f.callers.set c ⟨i, r, .after (p.proceed i f.network).1⟩⟩ := by
  have hgoes : (p.needs && f.isLocked i) = false := by
    cases hp : p.needs with
    | false => rfl
    | true => exact hfree hp
  simp only [proceed, hc, hgoes]
  rfl

theorem isLocked_iff : f.isLocked i ↔ ∃ (d : Nat) (x : Caller H),
    f.callers[d]? = some x ∧ x.bus = i ∧ x.phase.holds := by
  simp only [isLocked, List.any_eq_true, Bool.and_eq_true, beq_iff_eq, List.mem_iff_getElem?]
  constructor
  · rintro ⟨x, ⟨d, hd⟩, hx⟩
    exact ⟨d, x, hd, hx⟩
  · rintro ⟨d, x, hd, hx⟩
    exact ⟨x, ⟨d, hd⟩, hx⟩

theorem holds_of_needs (h : p.needs) : p.holds = false := by
  cases r <;> cases p <;> first | rfl | cases h

/-- No caller of the bus but the one with number `c` has the lock. -/
def Spared (f : Floor H) (c i : Nat) : Prop :=
  ∀ (d : Nat) (x : Caller H), f.callers[d]? = some x → x.bus = i → d ≠ c → x.phase.holds = false

theorem Spared.isLocked (h : f.Spared c i) (hc : f.callers[c]? = some ⟨i, r, p⟩)
    (hp : p.holds = false) : f.isLocked i = false := by
  refine Bool.eq_false_iff.mpr fun hlocked => ?_
  obtain ⟨d, x, hd, hbus, hholds⟩ := isLocked_iff.mp hlocked
  by_cases hdc : d = c
  · subst hdc
    obtain rfl := Option.some.inj (hc.symm.trans hd)
    exact absurd hholds (by simp [hp])
  · exact absurd hholds (by simp [h d x hd hbus hdc])

theorem taken_run {s t : Network H} (h : Taken i p s q t) (hs : f.network = s)
    (hc : f.callers[c]? = some ⟨i, r, p⟩) (halone : f.Spared c i) :
    ∃ n, f.run (List.replicate n (.proceed c)) = ⟨t, f.callers.set c ⟨i, r, q⟩⟩ := by
  induction h generalizing f with
  | here =>
    subst hs
    obtain ⟨hlt, hget⟩ := List.getElem?_eq_some_iff.mp hc
    refine ⟨0, ?_⟩
    rw [← hget, List.set_getElem_self]
    rfl
  | @step p q s t _ ih =>
    subst hs
    have hfirst := proceed_eq hc fun hp => halone.isLocked hc (holds_of_needs hp)
    obtain ⟨hlt, -⟩ := List.getElem?_eq_some_iff.mp hc
    obtain ⟨n, hn⟩ := @ih (f.proceed c) (by rw [hfirst]) (by simp [hfirst, hlt])
      fun d x hd hbus hdc => by
      rw [hfirst, List.getElem?_set_ne (Ne.symm hdc)] at hd
      exact halone d x hd hbus hdc
    refine ⟨n + 1, ?_⟩
    rw [List.replicate_succ, run_cons]
    refine hn.trans ?_
    rw [hfirst, List.set_set]

/-- A caller that finds the lock of a bus free, and that nobody comes between, does to the
network what the call of its request does at once, and returns its result. -/
theorem taken_alone (r : Request H) (hi : i < f.network.buses.length) (hfree : f.isLocked i = false)
    (hclosing : ∀ bus, f.network.buses[i]? = some bus → bus.closing = none) :
    ∃ n, (f.happen (.call i r)).run (List.replicate n (.proceed f.callers.length)) =
      ⟨(r.call i f.network).2, f.callers ++ [⟨i, r, .returned (r.call i f.network).1⟩]⟩ := by
  have hcalled : f.happen (.call i r) = { f with callers := f.callers ++ [⟨i, r, .asking⟩] } := by
    simp only [happen, hi, if_true]
  rw [hcalled]
  obtain ⟨n, hn⟩ := taken_run (f := { f with callers := f.callers ++ [⟨i, r, .asking⟩] })
    (c := f.callers.length) (Request.taken r f.network hclosing) rfl (by simp)
    fun d x hd hbus hdc => by
      refine Bool.eq_false_iff.mpr fun hholds => ?_
      have hlt : d < f.callers.length := by
        have hlt := (List.getElem?_eq_some_iff.mp hd).1
        simp only [List.length_append, List.length_singleton] at hlt
        omega
      refine Bool.eq_false_iff.mp hfree (isLocked_iff.mpr ⟨d, x, ?_, hbus, hholds⟩)
      exact (List.getElem?_append_left hlt).symm.trans hd
  exact ⟨n, hn.trans (by simp)⟩

end Floor
end CargoEvents
