import CargoEvents.Proofs.Bus.Deeds

/-! # What is metered

A dispatcher counts errors of its stream, runs of handlers, and deliveries: those that it finds no
handler for at once, all others when they have been resolved. A message is counted with the call that
publishes it. `Sound.metered` says once, for anything that can happen, what is counted and what that
is about.
-/
namespace CargoEvents
variable {H : Type}
open Broker (Polled)

/-- Whether the call publishes a message. -/
def SessionCall.announces : SessionCall → Bool
  | publish .. => true
  | _ => false

namespace Entry

/-- Whether the entry is counted, or tells of a delivery, of a panic or of a message. -/
def isMetered : Entry H → Bool
  | pulled .. | panicked .. | observed .. => true
  | called _ c _ => c.announces
  | entered .. | left .. | reported .. | logged _ => false

def metered? (e : Entry H) : Option (Entry H) := if e.isMetered then some e else none

end Entry

namespace Network
variable {s t : Network H} {i j k l : Nat} {bus : Bus H} {r : Request H} {p : Phase r}

/-! ## What is metered -/

def meters (s : Network H) : List (Entry H) := s.told Entry.metered?

@[simp] theorem meters_note (s : Network H) (e : Entry H) :
    (s.note e).meters = s.meters ++ [e].filterMap Entry.metered? := told_note ..

@[simp] theorem meters_observe (s : Network H) (i : Nat) (os : List Observation) :
    (s.observe i os).meters = s.meters ++ os.map (.observed i) := by
  rw [meters, told_observe_append, ← List.filterMap_eq_map]
  rfl

@[simp] theorem meters_report (s : Network H) (i : Nat) (es : List BusError) :
    (s.report i es).meters = s.meters := by
  rw [meters, told_report s i es fun _ => rfl]
  simp [Entry.metered?, Entry.isMetered, meters]

@[simp] theorem meters_move (s : Network H) (i k : Nat) (p : Position H) :
    (s.move i k p).meters = s.meters := rfl

/-! ## Calls -/

def Unmetered (s t : Network H) : Prop := t.meters = s.meters

theorem Unmetered.refl (s : Network H) : s.Unmetered s := rfl

theorem Unmetered.trans (s t u : Network H) (h : s.Unmetered t) (h' : t.Unmetered u) :
    s.Unmetered u := Eq.trans h' h

theorem onSession_unmetered {α : Type} {c : SessionCall} (hc : c.announces = false)
    (op : Nat → Broker → Except BrokerError (α × Broker)) :
    Call.Within Unmetered (onSession (H := H) i c op) := by
  intro s
  have hnoted (t : Network H) (refusal : Option BrokerError) (ht : t.meters = s.meters) :
      s.Unmetered (t.note (.called i c refusal)) := by
    rw [Unmetered, meters_note, ht]
    simp [Entry.metered?, Entry.isMetered, hc]
  simp only [onSession]
  split
  · rfl
  · split
    · exact hnoted _ _ rfl
    · split <;> exact hnoted _ _ rfl

theorem onSession'_unmetered {c : SessionCall} (hc : c.announces = false)
    (op : Nat → Broker → Except BrokerError Broker) :
    Call.Within Unmetered (onSession' (H := H) i c op) := onSession_unmetered hc _

theorem declaration_unmetered (τ : Topology) (d : Declaration) :
    Call.Within Unmetered (d.call (H := H) i τ) := by
  cases d <;> exact onSession'_unmetered rfl _

theorem declare_unmetered (τ : Topology) :
    Call.Within Unmetered ((calls (H := H) i).declare τ) := by
  rw [declare_eq]
  exact .forM .refl .trans (fun d => .adapt (declaration_unmetered τ d) _) _

theorem bind_unmetered (τ : Topology) (key : String) :
    Call.Within Unmetered ((calls (H := H) i).bind τ key) := by
  have hcall : Call.Within Unmetered
      ((calls (H := H) i).bindQueue τ.queue.name τ.exchange.name key) :=
    onSession'_unmetered rfl _
  exact hcall.adapt _

theorem build_unmetered (s : Network H) (config : BusConfig) (sink : ErrorSink)
    (faults : List (String × BrokerError)) : s.Unmetered (build config sink faults s).2 := by
  let bus : Bus H := { config, session := s.broker.sessions.length, sink, faults }
  let s₁ : Network H := { s with broker := s.broker.openSession, buses := s.buses ++ [bus] }
  have hdeclared : s₁.Unmetered ((calls s.buses.length).declare config.topology s₁).2 :=
    declare_unmetered config.topology s₁
  simp only [build]
  split <;> rename_i hd <;> rw [hd] at hdeclared <;> exact hdeclared

/-- What is metered beside dispatchers: a call that publishes, if there is one. -/
inductive Publishing : List (Entry H) → Prop
  | nothing : Publishing []
  | message (i : Nat) (exchange kind : String) (refusal : Option BrokerError) :
      Publishing [.called i (.publish exchange kind) refusal,
        .observed i (if refusal.isNone then .published kind else .publishError kind)]

theorem Unmetered.publishing (h : s.Unmetered t) :
    ∃ es, Publishing es ∧ t.meters = s.meters ++ es :=
  ⟨[], .nothing, Eq.trans h (List.append_nil _).symm⟩

theorem onSession'_recorded (hb : s.buses[i]? = some bus) (c : SessionCall)
    (op : Nat → Broker → Except BrokerError Broker) : ∃ refusal : Option BrokerError,
      (onSession' i c op s).1 = refusal.elim (.ok ()) .error ∧
      (onSession' i c op s).2.history = .called i c refusal :: s.history := by
  simp only [onSession', onSession, hb]
  split
  · exact ⟨_, rfl, rfl⟩
  · cases op bus.session s.broker <;> exact ⟨_, rfl, rfl⟩

theorem publishOver_meters (s : Network H) (i : Nat) (e : Event) :
    ∃ es, Publishing es ∧ (publishOver i e s).2.meters = s.meters ++ es := by
  unfold publishOver
  split
  · exact (Unmetered.refl s).publishing
  · rename_i bus hb
    let c : SessionCall := .publish bus.config.exchange e.kind.name
    let op (session : Nat) (b : Broker) := b.publish session bus.config.exchange (.ofEvent e)
    obtain ⟨refusal, hresult, hhistory⟩ := onSession'_recorded hb c op
    have hcall : (calls i).publishEvent bus.config.exchange e s =
        ((onSession' i c op s).1.mapError (.publishFailed e.kind.name), (onSession' i c op s).2) := rfl
    generalize onSession' i c op s = answered at hresult hhistory hcall
    obtain ⟨result, t⟩ := answered
    have hm : t.meters = s.meters ++ [.called i c refusal] := by
      rw [meters, told, hhistory, List.reverse_cons, List.filterMap_append]
      rfl
    refine ⟨_, .message i bus.config.exchange e.kind.name refusal, ?_⟩
    rw [hcall]
    cases refusal <;> subst hresult <;> simp [hm, c, Except.mapError]

/-! ## Steps of dispatchers -/

def yields (registry : Registry H) (i k : Nat) : Polled → List (Entry H)
  | .fault _ => [.observed i .transportError]
  | .delivery d => .pulled i k d :: (registry.accept d).2.map (.observed i)
  | .pending | .ended => []

/-- What a dispatcher of `bus` meets at a position, where it gets, and what is metered of that. -/
inductive Counts (bus : Bus H) (i k : Nat) :
    Position H → Option (Deed H) → Position H → List (Entry H) → Prop
  | stopped : Counts bus i k .pulling none .ended []
  | looked (polled : Polled) :
      Counts bus i k .pulling (met? bus polled) (received bus.registry i k polled).1
        (yields bus.registry i k polled)
  | returned (d : Broker.Delivery) (r : Registration H) (e : Event)
      (result : Except HandlerError Unit) :
      Counts bus i k (.handling d r e) (some (.returned result)) (.afterRun d r result)
        [.observed i (.handlerRun d.kind)]
  | panicked (d : Broker.Delivery) (r : Registration H) (e : Event) :
      Counts bus i k (.handling d r e) none .ended [.panicked i k d]
  | accepted (d : Broker.Delivery) (refusal : Option BrokerError) :
      Counts bus i k (.acknowledging d) (some (.resolved refusal bus.shutdown)) .pulling
        [.observed i (.delivery d.kind .ack)]
  | gaveBack (d : Broker.Delivery) (v : Verdict) (refusal : Option BrokerError) :
      Counts bus i k (.pausing d v) (some (.resolved refusal bus.shutdown)) .pulling
        ((v.observed d.kind).map (.observed i))

/-- What a step meters, with what it does to positions. -/
inductive Metered (s : Network H) (x : Happening H) (t : Network H) : Prop
  | aside {es : List (Entry H)} (hdeed : s.deed? x = none)
      (hp : ∀ j l, t.position? j l = s.position? j l ∨
        s.position? j l = none ∧ t.position? j l = some .pulling)
      (hes : Publishing es) (hm : t.meters = s.meters ++ es)
  | moved {i k : Nat} {bus : Bus H} {p p' : Position H} {deed : Option (Deed H)}
      {es : List (Entry H)} (hcounts : Counts bus i k p deed p' es)
      (hdeed : s.deed? x = deed.map fun deed => (i, k, deed)) (hold : s.position? i k = some p)
      (hp : ∀ j l, t.position? j l = if j = i ∧ l = k then some p' else s.position? j l)
      (hm : t.meters = s.meters ++ es)

theorem Metered.refl {x : Happening H} (hdeed : s.deed? x = none) : Metered s x s :=
  .aside hdeed (fun _ _ => .inl rfl) .nothing (List.append_nil _).symm

theorem take_meters (hb : s.buses[i]? = some bus) (k : Nat) (polled : Polled) :
    (s.take i k polled).meters = s.meters ++ yields bus.registry i k polled := by
  cases polled with
  | pending | ended => exact (List.append_nil _).symm
  | fault e => simp [take, yields]
  | delivery d =>
    simp only [take, note_buses, hb, yields]
    split <;> simp [Entry.metered?, Entry.isMetered]

theorem pull_metered (s : Network H) (i k : Nat) :
    Metered s (.other (.pull i k)) (s.pull i k) := by
  have hlength : s.buses.length ≤ (s.pull i k).buses.length := s.perform_length (.pull i k)
  cases hd : s.dispatcher? i k with
  | none => simpa only [pull, hd] using .refl (by simp only [deed?, hd])
  | some found =>
    obtain ⟨bus, st, p⟩ := found
    cases p with
    | pulling =>
      have hold := position?_of_dispatcher hd
      obtain ⟨b', st', p', es, hm, hmoved⟩ := s.pulled_moved hd
      have hp := hmoved.buses.position? hd hlength
      cases hm with
      | stopped hs =>
        have hcounts : Counts bus i k _ _ _ _ := .stopped
        refine .moved hcounts (by simp [deed?, hd, hs]) hold hp ?_
        simp [pull, hd, hs]
      | @looked polled st' b' hs hy =>
        refine .moved (.looked polled) (by simp [deed?, hd, hs, hy]) hold hp ?_
        -- The stream has moved by the time the registry is asked, the registry has not.
        have hstreamed : ({ s with broker := b' }.onDispatcher i k fun d => { d with stream := st' }
            ).buses[i]? = some { bus with
              dispatchers := bus.dispatchers.modify k fun d => { d with stream := st' } } := by
          simp [onDispatcher, onBus, dispatcher?_bus hd]
        simp only [pull, hd, hs, hy]
        exact take_meters hstreamed k polled
    | handling | acknowledging | pausing | ended =>
      simpa only [pull, hd] using .refl (by simp only [deed?, hd])

theorem receive_metered (s : Network H) (i k : Nat) (polled : Polled) :
    Metered s (.yielded i k polled) (s.receive i k polled) := by
  cases hd : s.dispatcher? i k with
  | none => simpa only [receive, hd] using .refl (by simp only [deed?, hd])
  | some found =>
    obtain ⟨bus, st, p⟩ := found
    cases p with
    | pulling =>
      have hgoes : Goes [] s (s.take i k polled) := s.take_goes i k polled
      have hmoved := take_moved polled hd (reworked_same hd rfl) (by simp [dispatcher?_bus hd]) rfl
      have hmetered : Metered s (.yielded i k polled) (s.take i k polled) :=
        .moved (.looked polled) (by simp only [deed?, hd]) (position?_of_dispatcher hd)
          (hmoved.buses.position? hd hgoes.length) (take_meters (dispatcher?_bus hd) k polled)
      simpa only [receive, hd] using hmetered
    | handling | acknowledging | pausing | ended =>
      simpa only [receive, hd] using .refl (by simp only [deed?, hd])

theorem complete_metered (s : Network H) (i k : Nat) (result : Except HandlerError Unit) :
    Metered s (.other (.complete i k result)) (s.complete i k result) := by
  have hlength := s.perform_length (.complete i k result)
  cases hd : s.dispatcher? i k with
  | none => simpa only [complete, hd] using .refl (by simp only [deed?, hd])
  | some found =>
    obtain ⟨bus, st, p⟩ := found
    cases p with
    | handling d r e =>
      have hcounts : Counts bus i k _ _ _ _ := .returned d r e result
      refine .moved hcounts (by simp only [deed?, hd]; rfl) (position?_of_dispatcher hd)
        ((s.completed_moved hd result).buses.position? hd hlength) ?_
      simp [complete, hd, Entry.metered?, Entry.isMetered]
    | pulling | acknowledging | pausing | ended =>
      simpa only [complete, hd] using .refl (by simp only [deed?, hd])

theorem panic_metered (s : Network H) (i k : Nat) :
    Metered s (.other (.panic i k)) (s.panic i k) := by
  have hlength := s.perform_length (.panic i k)
  cases hd : s.dispatcher? i k with
  | none => simpa only [panic, hd] using .refl rfl
  | some found =>
    obtain ⟨bus, st, p⟩ := found
    cases p with
    | handling d r e =>
      have hcounts : Counts bus i k _ _ _ _ := .panicked d r e
      refine .moved hcounts rfl (position?_of_dispatcher hd)
        ((s.panicked_moved hd).buses.position? hd hlength) ?_
      simp [panic, hd, Entry.metered?, Entry.isMetered]
    | pulling | acknowledging | pausing | ended => simpa only [panic, hd] using .refl rfl

theorem settle_meters (s : Network H) (i : Nat) (bus : Bus H) (d : Broker.Delivery)
    (how : Broker.Resolution) (observed : List Observation) :
    (s.settle i bus d how observed).meters = s.meters ++ observed.map (.observed i) := by
  have hresolve : s.Unmetered (resolve i d.tag how s).2 :=
    onSession'_unmetered (by cases how <;> rfl) _ s
  have hsettle : s.settle i bus d how observed = ((resolve i d.tag how s).2.observe i observed).report i
      (refusalReport bus.shutdown (resolve i d.tag how s).1) := rfl
  rw [hsettle, meters_report, meters_observe, hresolve]

theorem acknowledge_metered (s : Network H) (i k : Nat) :
    Metered s (.other (.acknowledge i k)) (s.acknowledge i k) := by
  have hlength := s.perform_length (.acknowledge i k)
  cases hd : s.dispatcher? i k with
  | none => simpa only [acknowledge, hd] using .refl (by simp only [deed?, hd])
  | some found =>
    obtain ⟨bus, st, p⟩ := found
    cases p with
    | acknowledging d =>
      obtain ⟨b', -, hmoved⟩ := s.acknowledged_moved hd
      have hcounts : Counts bus i k _ _ _ _ := .accepted d (refusal? (resolve i d.tag .ack s).1)
      refine .moved hcounts (by simp only [deed?, hd]; rfl) (position?_of_dispatcher hd)
        (hmoved.buses.position? hd hlength) ?_
      simp only [acknowledge, hd]
      rw [meters_move, settle_meters]
      rfl
    | pulling | handling | pausing | ended =>
      simpa only [acknowledge, hd] using .refl (by simp only [deed?, hd])

theorem resume_metered (s : Network H) (i k : Nat) :
    Metered s (.other (.resume i k)) (s.resume i k) := by
  have hlength := s.perform_length (.resume i k)
  cases hd : s.dispatcher? i k with
  | none => simpa only [resume, hd] using .refl (by simp only [deed?, hd])
  | some found =>
    obtain ⟨bus, st, p⟩ := found
    cases p with
    | pausing d v =>
      obtain ⟨b', -, hmoved⟩ := s.resumed_moved hd
      have hcounts : Counts bus i k _ _ _ _ :=
        .gaveBack d v (refusal? (resolve i d.tag (.nack true) s).1)
      refine .moved hcounts (by simp only [deed?, hd]; rfl) (position?_of_dispatcher hd)
        (hmoved.buses.position? hd hlength) ?_
      simp only [resume, hd]
      rw [meters_move, meters_report, settle_meters]
    | pulling | handling | acknowledging | ended =>
      simpa only [resume, hd] using .refl (by simp only [deed?, hd])

/-! ## Steps of callers and all others -/

theorem Quiet.metered {x : Happening H} (h : s.Quiet t) (hdeed : s.deed? x = none)
    (hm : ∃ es, Publishing es ∧ t.meters = s.meters ++ es) : Metered s x t := by
  obtain ⟨es, hes, hm⟩ := hm
  exact .aside hdeed (fun j l => .inl (h.position? j l)) hes hm

theorem perform_metered (s : Network H) {a : Act H} (ha : a.isCall = false) :
    Metered s (.other a) (s.perform a) := by
  cases a with
  | build config sink faults =>
    exact (s.build_quiet config sink faults).metered rfl
      (s.build_unmetered config sink faults).publishing
  | publishOver i e => exact (s.publishOver_quiet i e).metered rfl (s.publishOver_meters i e)
  | drop i =>
    have hquiet : s.Quiet (s.drop i) := quiet_onBus s i fun b => ⟨rfl, rfl, rfl, rfl⟩
    exact hquiet.metered rfl (Unmetered.refl s).publishing
  | fault i faults =>
    have hquiet : s.Quiet (s.perform (.fault i faults)) :=
      quiet_onBus s i fun b => ⟨rfl, rfl, rfl, rfl⟩
    exact hquiet.metered rfl (Unmetered.refl s).publishing
  | pull i k => exact s.pull_metered i k
  | complete i k result => exact s.complete_metered i k result
  | panic i k => exact s.panic_metered i k
  | acknowledge i k => exact s.acknowledge_metered i k
  | resume i k => exact s.resume_metered i k
  | beside a =>
    exact .aside rfl (fun _ _ => .inl rfl) .nothing (List.append_nil _).symm
  | publish | subscribe | start | restore | beginClose | finishClose => cases ha

theorem proceed_meters (i : Nat) (p : Phase r) (s : Network H) :
    ∃ es, Publishing es ∧ (p.proceed i s).2.meters = s.meters ++ es := by
  have hnone {t : Network H} (h : s.Unmetered t) :
      ∃ es, Publishing es ∧ t.meters = s.meters ++ es := h.publishing
  cases p with
  | asking =>
    cases r with
    | publish | subscribe | restore =>
      rw [Phase.proceed, whileOpen_pure]
      exact hnone rfl
    | start | close => exact hnone rfl
  | @announcing e =>
    rw [Phase.proceed, bind_pure_snd]
    exact s.publishOver_meters i e
  | @binding kind handler τ =>
    rw [Phase.proceed, bind_pure_snd]
    exact hnone (bind_unmetered τ kind.name s)
  | declaring τ left =>
    cases left with
    | nil => exact hnone rfl
    | cons d left =>
      rw [Phase.proceed, bind_pure_snd]
      exact hnone ((declaration_unmetered τ d).adapt _ s)
  | rebinding τ left =>
    cases left with
    | nil => exact hnone rfl
    | cons key left =>
      rw [Phase.proceed, bind_pure_snd]
      exact hnone (bind_unmetered τ key s)
  | starting =>
    refine hnone (whileOpen_ind rfl fun bus _ _ => ?_)
    split <;> rfl
  | consuming config =>
    rw [Phase.proceed, bind_pure_snd]
    exact hnone ((onSession_unmetered rfl _).adapt BusError.transportError s)
  | shutting =>
    have hclosed : s.Unmetered (closeSession i s).2 := onSession'_unmetered rfl _ s
    exact hnone hclosed
  | registering | launching | closing | draining | stopping => exact hnone rfl
  | waiting closed => cases closed <;> exact hnone rfl
  | returned | gone => cases r <;> exact hnone rfl

end Network

namespace Floor
open Network
variable {f : Floor H}

/-- All that is metered of what can happen. -/
theorem Sound.metered (h : f.Sound) (x : Happening H) :
    Metered f.network x (f.happen x).network := by
  cases x with
  | call i r =>
    simp only [Floor.happen]
    split <;> exact .refl rfl
  | leave c => exact .refl rfl
  | yielded i k polled => exact f.network.receive_metered i k polled
  | other a =>
    simp only [Floor.happen]
    split
    · rename_i ha
      refine .refl ?_
      cases a <;> first | rfl | cases ha
    · rename_i ha
      exact f.network.perform_metered (Bool.eq_false_iff.mpr ha)
  | proceed c =>
    simp only [Floor.happen]
    rcases h.goes_on c with ⟨heq, -⟩ | ⟨i, r, p, bus, -, -, heq⟩
    · rw [heq]
      exact .refl rfl
    · rw [heq]
      obtain ⟨es, hes, hm⟩ := proceed_meters i p f.network
      exact .aside rfl (proceed_leaves i p f.network).position? hes hm

end Floor
end CargoEvents
