import CargoEvents.Proofs.Bus.Footprints

/-! # What dispatchers meet

A dispatcher meets errors of its stream, deliveries and the handlers that are found for them, results
of runs, and answers to the calls that resolve. `Sound.course` says once, for anything that can happen,
which of these is met, and what becomes of positions, of what was pulled and of what was reported.
-/
namespace CargoEvents
variable {H : Type}
open Broker (Polled)

/-- What a dispatcher meets. -/
inductive Deed (H : Type)
  | fault (e : BrokerError)
  /-- It takes a delivery and looks for a handler of its kind. -/
  | taken (d : Broker.Delivery) (found : Option (Registration H))
  | returned (result : Except HandlerError Unit)
  /-- The delivery was resolved, or that was refused, while the bus is told to stop or not. -/
  | resolved (refusal : Option BrokerError) (stopping : Bool)
  deriving DecidableEq

def Deed.delivery? : Deed H → Option Broker.Delivery
  | .taken d _ => some d
  | .fault _ | .returned _ | .resolved .. => none

namespace Network

def pulls (s : Network H) (i k : Nat) : List Broker.Delivery :=
  (s.diary i k).filterMap fun
    | .pulled _ _ d => some d
    | _ => none

def refusal? : Except BrokerError Unit → Option BrokerError
  | .ok _ => none
  | .error e => some e

def met? (bus : Bus H) : Polled → Option (Deed H)
  | .fault e => some (.fault e)
  | .delivery d => some (.taken d (bus.registry.get? d.kind))
  | .pending | .ended => none

def deed? (s : Network H) : Happening H → Option (Nat × Nat × Deed H)
  | .yielded i k polled => match s.dispatcher? i k with
    | some (bus, { position := .pulling, .. }) => (met? bus polled).map fun deed => (i, k, deed)
    | _ => none
  | .other (.pull i k) => match s.dispatcher? i k with
    | some (bus, { stream, position := .pulling }) =>
      if bus.shutdown then none
      else (met? bus (s.broker.poll stream).1).map fun deed => (i, k, deed)
    | _ => none
  | .other (.complete i k result) => match s.dispatcher? i k with
    | some (_, { position := .handling .., .. }) => some (i, k, .returned result)
    | _ => none
  | .other (.acknowledge i k) => match s.dispatcher? i k with
    | some (bus, { position := .acknowledging d, .. }) =>
      some (i, k, .resolved (refusal? (resolve i d.tag .ack s).1) bus.shutdown)
    | _ => none
  | .other (.resume i k) => match s.dispatcher? i k with
    | some (bus, { position := .pausing d _, .. }) =>
      some (i, k, .resolved (refusal? (resolve i d.tag (.nack true) s).1) bus.shutdown)
    | _ => none
  | _ => none

/-! ## What steps report -/

variable {s t : Network H} {i j k l : Nat} {bus : Bus H} {r : Request H} {p : Phase r}

theorem reports_note (s : Network H) {e : Entry H} (he : e.reported? i = none) :
    (s.note e).reports i = s.reports i := by
  rw [reports, told_note, List.filterMap_cons_none he]
  exact List.append_nil _

@[simp] theorem reports_observe (s : Network H) (j : Nat) (os : List Observation) (i : Nat) :
    (s.observe j os).reports i = s.reports i := told_observe s j os fun _ => rfl

@[simp] theorem reports_move (s : Network H) (j k : Nat) (p : Position H) (i : Nat) :
    (s.move j k p).reports i = s.reports i := rfl

theorem reports_report (s : Network H) (i : Nat) (es : List BusError) (j : Nat) :
    (s.report i es).reports j = s.reports j ++ if j = i then es else [] := by
  rw [reports, told_report s i es fun _ => rfl]
  by_cases hij : j = i
  · simp [Entry.reported?, hij, reports]
  · simp [Entry.reported?, hij, Ne.symm hij, reports]

def complaints : Polled → List BusError
  | .fault e => [.transportError e]
  | .delivery _ | .pending | .ended => []

theorem take_reports (s : Network H) (i k : Nat) (polled : Polled) (j : Nat) :
    (s.take i k polled).reports j = s.reports j ++ if j = i then complaints polled else [] := by
  have hsame {t : Network H} (ht : t.reports j = s.reports j) :
      t.reports j = s.reports j ++ if j = i then [] else [] := by
    rw [ht, ite_self, List.append_nil]
  cases polled with
  | pending | ended => exact hsame rfl
  | fault e => rw [take, reports_report, reports_observe, complaints]
  | delivery d =>
    refine hsame ?_
    have hpulled : (s.note (.pulled i k d)).reports j = s.reports j := s.reports_note rfl
    simp only [take]
    split
    · exact hpulled
    · rw [reports_move, reports_observe]
      split
      · exact (reports_note _ rfl).trans hpulled
      · exact hpulled

def refused (bus : Bus H) (refusal : Option BrokerError) : List BusError :=
  if bus.shutdown then [] else refusal.toList.map .acknowledgementFailed

theorem refusalReport_eq (bus : Bus H) (result : Except BrokerError Unit) :
    refusalReport bus.shutdown result = refused bus (refusal? result) := by
  cases result with
  | ok u => cases hs : bus.shutdown <;> simp [refusalReport, refused, refusal?, hs]
  | error e => cases hs : bus.shutdown <;> simp [refusalReport, refused, refusal?, hs]

theorem resolve_reports (s : Network H) (i tag : Nat) (how : Broker.Resolution) (j : Nat) :
    (resolve i tag how s).2.reports j = s.reports j := by
  unfold resolve onSession' onSession
  split
  · rfl
  · split
    · exact reports_note _ rfl
    · split
      · exact reports_note _ rfl
      · exact reports_note _ rfl

theorem settle_reports (s : Network H) (i : Nat) (bus : Bus H) (d : Broker.Delivery)
    (how : Broker.Resolution) (observed : List Observation) (j : Nat) :
    (s.settle i bus d how observed).reports j =
      s.reports j ++ if j = i then refused bus (refusal? (resolve i d.tag how s).1) else [] := by
  have hsettle : s.settle i bus d how observed = ((resolve i d.tag how s).2.observe i observed).report i
      (refusalReport bus.shutdown (resolve i d.tag how s).1) := rfl
  rw [hsettle, reports_report, reports_observe, resolve_reports, refusalReport_eq]

/-! ## One step -/

/-- How a dispatcher of `bus` gets on when it meets something, and what it reports. -/
inductive Does (bus : Bus H) : Position H → Deed H → Position H → List BusError → Prop
  | faulted (e : BrokerError) : Does bus .pulling (.fault e) .pulling [.transportError e]
  | took (d : Broker.Delivery) :
      Does bus .pulling (.taken d (bus.registry.get? d.kind)) (bus.registry.accept d).1 []
  | returned (d : Broker.Delivery) (r : Registration H) (e : Event)
      (result : Except HandlerError Unit) :
      Does bus (.handling d r e) (.returned result) (.afterRun d r result) []
  | accepted (d : Broker.Delivery) (refusal : Option BrokerError) :
      Does bus (.acknowledging d) (.resolved refusal bus.shutdown) .pulling (refused bus refusal)
  | gaveBack (d : Broker.Delivery) (v : Verdict) (refusal : Option BrokerError) :
      Does bus (.pausing d v) (.resolved refusal bus.shutdown) .pulling
        (refused bus refusal ++ v.report d.tag)

/-- A dispatcher that meets nothing stays where it is, or begins to pull, or ends. -/
def Lapses (p p' : Option (Position H)) : Prop :=
  p' = p ∨ p = none ∧ p' = some .pulling ∨ p' = some .ended

/-- All that a step does to positions, and to what is pulled and reported. -/
inductive Course (s : Network H) (x : Happening H) (t : Network H) : Prop
  | idle (hdeed : s.deed? x = none) (hp : ∀ j l, Lapses (s.position? j l) (t.position? j l))
      (hpulls : ∀ j l, t.pulls j l = s.pulls j l) (hr : ∀ j, t.reports j = s.reports j)
  | did {i k : Nat} {bus : Bus H} {p p' : Position H} {deed : Deed H} {es : List BusError}
      (hdeed : s.deed? x = some (i, k, deed)) (hdoes : Does bus p deed p' es)
      (hold : s.position? i k = some p)
      (hp : ∀ j l, t.position? j l = if j = i ∧ l = k then some p' else s.position? j l)
      (hpulls : ∀ j l, t.pulls j l =
        s.pulls j l ++ if j = i ∧ l = k then deed.delivery?.toList else [])
      (hr : ∀ j, t.reports j = s.reports j ++ if j = i then es else [])

theorem Course.refl {x : Happening H} (hdeed : s.deed? x = none) : Course s x s :=
  .idle hdeed (fun _ _ => .inl rfl) (fun _ _ => rfl) fun _ => rfl

theorem Moved.pulls {p p' : Position H} {b' : Broker} {st' : Broker.Stream} {es : List (Entry H)}
    (h : Moved bus i k p b' st' p' es s t) (j l : Nat) : t.pulls j l = s.pulls j l ++
      (es.filterMap (Entry.by? j l)).filterMap fun
        | .pulled _ _ d => some d
        | _ => none := by
  rw [Network.pulls, h.diary, List.filterMap_append]
  rfl

theorem taken_course {x : Happening H} {st st' : Broker.Stream} {b' : Broker} {polled : Polled}
    (hd : s.dispatcher? i k = some (bus, { stream := st, position := .pulling }))
    (hdeed : s.deed? x = (met? bus polled).map fun deed => (i, k, deed))
    (hmoved : Moved bus i k .pulling b' st' (received bus.registry i k polled).1
      (received bus.registry i k polled).2 s t)
    (hlength : s.buses.length ≤ t.buses.length)
    (hr : ∀ j, t.reports j = s.reports j ++ if j = i then complaints polled else []) :
    Course s x t := by
  have hold := position?_of_dispatcher hd
  have hp := hmoved.buses.position? hd hlength
  have hpulls := hmoved.pulls
  cases polled with
  | fault e =>
    have hdoes : Does bus .pulling (.fault e) .pulling [.transportError e] := .faulted e
    refine .did hdeed hdoes hold hp (fun j l => ?_) hr
    rw [hpulls, Deed.delivery?]
    simp [received]
  | delivery d =>
    refine .did hdeed (.took d) hold hp (fun j l => ?_) hr
    rw [hpulls, Deed.delivery?, received]
    generalize (bus.registry.accept d).1 = p'
    by_cases hjl : j = i ∧ l = k
    · obtain ⟨rfl, rfl⟩ := hjl
      cases p' <;> simp [entering, Entry.by?]
    · have hlj : ¬(i = j ∧ k = l) := fun h => hjl ⟨h.1.symm, h.2.symm⟩
      cases p' <;> simp [entering, Entry.by?, hjl, hlj]
  | pending | ended =>
    refine .idle hdeed (fun j l => ?_) (fun j l => ?_) fun j => ?_
    · rw [hp]
      split
      · rename_i hjl
        obtain ⟨rfl, rfl⟩ := hjl
        simp [received, Lapses, hold]
      · exact .inl rfl
    · simpa [received] using hpulls j l
    · simpa [complaints] using hr j

theorem pull_course (s : Network H) (i k : Nat) : Course s (.other (.pull i k)) (s.pull i k) := by
  have hlength : s.buses.length ≤ (s.pull i k).buses.length := s.perform_length (.pull i k)
  cases hd : s.dispatcher? i k with
  | none => simpa only [pull, hd] using .refl (by simp only [deed?, hd])
  | some found =>
    obtain ⟨bus, st, p⟩ := found
    cases p with
    | pulling =>
      obtain ⟨b', st', p', es, hm, hmoved⟩ := s.pulled_moved hd
      cases hm with
      | stopped hs =>
        refine .idle (by simp [deed?, hd, hs]) (fun j l => ?_) (fun j l => ?_) fun j => ?_
        · rw [hmoved.buses.position? hd hlength]
          split
          · exact .inr (.inr rfl)
          · exact .inl rfl
        · simpa using hmoved.pulls j l
        · simp [pull, hd, hs]
      | @looked polled st' b' hs hy =>
        refine taken_course hd (by simp [deed?, hd, hs, hy]) hmoved hlength fun j => ?_
        simp only [pull, hd, hs, hy]
        exact take_reports ..
    | handling | acknowledging | pausing | ended =>
      simpa only [pull, hd] using .refl (by simp only [deed?, hd])

theorem receive_course (s : Network H) (i k : Nat) (polled : Polled) :
    Course s (.yielded i k polled) (s.receive i k polled) := by
  cases hd : s.dispatcher? i k with
  | none => simpa only [receive, hd] using .refl (by simp only [deed?, hd])
  | some found =>
    obtain ⟨bus, st, p⟩ := found
    cases p with
    | pulling =>
      have hgoes : Goes [] s (s.take i k polled) := s.take_goes i k polled
      have hmoved := take_moved polled hd (reworked_same hd rfl) (by simp [dispatcher?_bus hd]) rfl
      simpa only [receive, hd] using
        taken_course hd (by simp only [deed?, hd]) hmoved hgoes.length (s.take_reports i k polled)
    | handling | acknowledging | pausing | ended =>
      simpa only [receive, hd] using .refl (by simp only [deed?, hd])

theorem complete_course (s : Network H) (i k : Nat) (result : Except HandlerError Unit) :
    Course s (.other (.complete i k result)) (s.complete i k result) := by
  have hlength := s.perform_length (.complete i k result)
  cases hd : s.dispatcher? i k with
  | none => simpa only [complete, hd] using .refl (by simp only [deed?, hd])
  | some found =>
    obtain ⟨bus, st, p⟩ := found
    cases p with
    | handling d r e =>
      have hmoved := s.completed_moved hd result
      have hdoes : Does bus _ _ _ _ := .returned d r e result
      refine .did (by simp only [deed?, hd]) hdoes (position?_of_dispatcher hd)
        (hmoved.buses.position? hd hlength) (fun j l => ?_) fun j => ?_
      · rw [hmoved.pulls, Deed.delivery?]
        by_cases hjl : i = j ∧ k = l <;> simp [Entry.by?, hjl]
      · simp only [complete, hd]
        rw [reports_move, reports_observe, reports_note _ rfl, ite_self, List.append_nil]
    | pulling | acknowledging | pausing | ended =>
      simpa only [complete, hd] using .refl (by simp only [deed?, hd])

theorem panic_course (s : Network H) (i k : Nat) : Course s (.other (.panic i k)) (s.panic i k) := by
  have hlength := s.perform_length (.panic i k)
  cases hd : s.dispatcher? i k with
  | none => simpa only [panic, hd] using .refl rfl
  | some found =>
    obtain ⟨bus, st, p⟩ := found
    cases p with
    | handling d r e =>
      have hmoved := s.panicked_moved hd
      refine .idle rfl (fun j l => ?_) (fun j l => ?_) fun j => ?_
      · rw [hmoved.buses.position? hd hlength]
        split
        · exact .inr (.inr rfl)
        · exact .inl rfl
      · rw [hmoved.pulls]
        by_cases hjl : i = j ∧ k = l <;> simp [Entry.by?, hjl]
      · simp only [panic, hd]
        exact reports_note _ rfl
    | pulling | acknowledging | pausing | ended => simpa only [panic, hd] using .refl rfl

theorem acknowledge_course (s : Network H) (i k : Nat) :
    Course s (.other (.acknowledge i k)) (s.acknowledge i k) := by
  have hlength := s.perform_length (.acknowledge i k)
  cases hd : s.dispatcher? i k with
  | none => simpa only [acknowledge, hd] using .refl (by simp only [deed?, hd])
  | some found =>
    obtain ⟨bus, st, p⟩ := found
    cases p with
    | acknowledging d =>
      obtain ⟨b', -, hmoved⟩ := s.acknowledged_moved hd
      have hdoes : Does bus _ _ _ _ := .accepted d (refusal? (resolve i d.tag .ack s).1)
      refine .did (by simp only [deed?, hd]) hdoes (position?_of_dispatcher hd)
        (hmoved.buses.position? hd hlength) (fun j l => ?_) fun j => ?_
      · simpa [Deed.delivery?] using hmoved.pulls j l
      · simp only [acknowledge, hd]
        rw [reports_move, settle_reports]
    | pulling | handling | pausing | ended =>
      simpa only [acknowledge, hd] using .refl (by simp only [deed?, hd])

theorem resume_course (s : Network H) (i k : Nat) :
    Course s (.other (.resume i k)) (s.resume i k) := by
  have hlength := s.perform_length (.resume i k)
  cases hd : s.dispatcher? i k with
  | none => simpa only [resume, hd] using .refl (by simp only [deed?, hd])
  | some found =>
    obtain ⟨bus, st, p⟩ := found
    cases p with
    | pausing d v =>
      obtain ⟨b', -, hmoved⟩ := s.resumed_moved hd
      have hdoes : Does bus _ _ _ _ := .gaveBack d v (refusal? (resolve i d.tag (.nack true) s).1)
      refine .did (by simp only [deed?, hd]) hdoes (position?_of_dispatcher hd)
        (hmoved.buses.position? hd hlength) (fun j l => ?_) fun j => ?_
      · simpa [Deed.delivery?] using hmoved.pulls j l
      · simp only [resume, hd]
        rw [reports_move, reports_report, settle_reports, List.append_assoc]
        by_cases hji : j = i <;> simp [hji]
    | pulling | handling | acknowledging | ended =>
      simpa only [resume, hd] using .refl (by simp only [deed?, hd])

theorem Quiet.course {x : Happening H} (h : s.Quiet t) (hdeed : s.deed? x = none)
    (hr : ∀ j, t.reports j = s.reports j) : Course s x t :=
  .idle hdeed (fun j l => .inl (h.position? j l)) (fun j l => by rw [pulls, pulls, h.diary]) hr

theorem Called.reports (h : s.Called t) (i : Nat) : t.reports i = s.reports i :=
  h.told fun _ _ _ _ => rfl

theorem build_reports (s : Network H) (config : BusConfig) (sink : ErrorSink)
    (faults : List (String × BrokerError)) (j : Nat) :
    (build config sink faults s).2.reports j = s.reports j := by
  let bus : Bus H := { config, session := s.broker.sessions.length, sink, faults }
  let s₁ : Network H := { s with broker := s.broker.openSession, buses := s.buses ++ [bus] }
  have hdeclared : (((calls s.buses.length).declare config.topology s₁).2).reports j = s₁.reports j :=
    (declare_called s.buses.length config.topology s₁).reports j
  simp only [build]
  split <;> rename_i hd <;> rw [hd] at hdeclared <;> exact hdeclared

theorem publishOver_reports (s : Network H) (i : Nat) (e : Event) (j : Nat) :
    (publishOver i e s).2.reports j = s.reports j := by
  unfold publishOver
  split
  · rfl
  · rename_i bus hb
    have hcalled := (publishEvent_called (H := H) i bus.config.exchange e s).reports j
    split <;> rename_i hp <;> rw [hp] at hcalled <;> rw [reports_observe] <;> exact hcalled

/-- All that an act can do that is no call. -/
theorem perform_course (s : Network H) {a : Act H} (ha : a.isCall = false) :
    Course s (.other a) (s.perform a) := by
  cases a with
  | build config sink faults =>
    exact (s.build_quiet config sink faults).course rfl (s.build_reports config sink faults)
  | publishOver i e => exact (s.publishOver_quiet i e).course rfl (s.publishOver_reports i e)
  | drop i =>
    have hquiet : s.Quiet (s.drop i) := quiet_onBus s i fun b => ⟨rfl, rfl, rfl, rfl⟩
    exact hquiet.course rfl fun _ => rfl
  | fault i faults =>
    have hquiet : s.Quiet (s.perform (.fault i faults)) :=
      quiet_onBus s i fun b => ⟨rfl, rfl, rfl, rfl⟩
    exact hquiet.course rfl fun _ => rfl
  | pull i k => exact s.pull_course i k
  | complete i k result => exact s.complete_course i k result
  | panic i k => exact s.panic_course i k
  | acknowledge i k => exact s.acknowledge_course i k
  | resume i k => exact s.resume_course i k
  | beside a => exact .idle rfl (fun _ _ => .inl rfl) (fun _ _ => rfl) fun _ => rfl
  | publish | subscribe | start | restore | beginClose | finishClose => cases ha

theorem Phase.Sets.position? {g : Bus H → Bus H} (h : p.Sets g) (s : Network H) (i j l : Nat) :
    (s.onBus i g).position? j l = s.position? j l ∨
      s.position? j l = none ∧ (s.onBus i g).position? j l = some .pulling := by
  cases h with
  | alike hp hg => exact .inl (s.position?_onBus i (fun b => (hg b).dispatchers) j l)
  | @registered kind handler =>
    exact .inl (s.position?_onBus i (f := withHandler kind handler) (fun _ => rfl) j l)
  | launched st =>
    cases hb : s.buses[i]? with
    | none =>
      refine .inl ?_
      rw [position?_eq, position?_eq, onBus, List.getElem?_modify]
      by_cases hij : i = j
      · simp [← hij, hb]
      · simp [hij]
    | some bus =>
      rw [position?_withDispatcher hb]
      split
      · rename_i hjl
        obtain ⟨rfl, rfl⟩ := hjl
        refine .inr ⟨?_, rfl⟩
        simp [position?_eq, hb]
      · exact .inl rfl

theorem Phase.Leaves.position? (h : p.Leaves i s t) (j l : Nat) :
    t.position? j l = s.position? j l ∨
      s.position? j l = none ∧ t.position? j l = some .pulling := by
  obtain ⟨u, os, g, hcalled, hg, rfl⟩ := h
  have hbefore : (u.observe i os).position? j l = s.position? j l :=
    ((quiet_observe u i os).position? j l).trans (hcalled.quiet.position? j l)
  exact hbefore ▸ hg.position? (u.observe i os) i j l

theorem Phase.Leaves.course (h : p.Leaves i s t) (c : Nat) : Course s (.proceed c) t := by
  refine .idle rfl (fun j l => (h.position? j l).imp_right .inl) (fun j l => ?_) fun j => ?_
  · have hdiary : t.diary j l = s.diary j l := h.told (fun _ _ _ _ => rfl) fun _ _ => rfl
    rw [pulls, pulls, hdiary]
  · exact h.told (fun _ _ _ _ => rfl) fun _ _ => rfl

end Network

namespace Floor
open Network
variable {f : Floor H}

theorem Sound.course (h : f.Sound) (x : Happening H) : Course f.network x (f.happen x).network := by
  cases x with
  | call i r =>
    simp only [Floor.happen]
    split <;> exact .refl rfl
  | leave c => exact .refl rfl
  | yielded i k polled => exact f.network.receive_course i k polled
  | other a =>
    simp only [Floor.happen]
    split
    · rename_i ha
      refine .refl ?_
      cases a <;> first | rfl | cases ha
    · rename_i ha
      exact f.network.perform_course (Bool.eq_false_iff.mpr ha)
  | proceed c =>
    simp only [Floor.happen]
    rcases h.goes_on c with ⟨heq, -⟩ | ⟨i, r, p, bus, -, -, heq⟩
    · rw [heq]
      exact .refl rfl
    · rw [heq]
      exact (proceed_leaves i p f.network).course c

end Floor
end CargoEvents
