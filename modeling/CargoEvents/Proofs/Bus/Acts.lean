import CargoEvents.Bus.Delivering
import CargoEvents.Proofs.Broker.Actions

/-! # Runs of networks

Whatever is asked of the buses, each step of a dispatcher, and whatever happens to the
broker beside them is an act, and a run is any sequence of acts. Handlers return and panic
as they like. What dispatchers did and what was reported is read off from the history.
-/
namespace CargoEvents

def SessionCall.resolves : SessionCall → Bool
  | ack _ | nack .. => true
  | _ => false

/-- The entry, if it tells what dispatcher `k` of bus `i` did with a delivery. -/
def Entry.by? {H : Type} (i k : Nat) (e : Entry H) : Option (Entry H) :=
  match e with
  | .pulled j l _ | .entered j l .. | .left j l .. | .panicked j l _ =>
    if j = i ∧ l = k then some e else none
  | _ => none

def Entry.reported? {H : Type} (i : Nat) : Entry H → Option BusError
  | .reported j e => if j = i then some e else none
  | _ => none

namespace Network
variable {H : Type}
open Broker (Action)

inductive Act (H : Type)
  | build (config : BusConfig) (sink : ErrorSink) (faults : List (String × BrokerError))
  | publish (i : Nat) (e : Event)
  | publishOver (i : Nat) (e : Event)
  | subscribe (i : Nat) (kind : EventKind) (handler : H)
  | start (i : Nat)
  | restore (i : Nat)
  | beginClose (i : Nat)
  | finishClose (i : Nat)
  | drop (i : Nat)
  | pull (i k : Nat)
  | complete (i k : Nat) (result : Except HandlerError Unit)
  | panic (i k : Nat)
  | acknowledge (i k : Nat)
  | resume (i k : Nat)
  /-- Calls of a bus that have the given names are to meet errors. -/
  | fault (i : Nat) (faults : List (String × BrokerError))
  | beside (a : Action)

def perform (s : Network H) : Act H → Network H
  | .build config sink faults => (build config sink faults s).2
  | .publish i e => (publish i e s).2
  | .publishOver i e => (publishOver i e s).2
  | .subscribe i kind handler => (subscribe i kind handler s).2
  | .start i => (start i s).2
  | .restore i => (restore i s).2
  | .beginClose i => s.beginClose i
  | .finishClose i => (finishClose i s).2
  | .drop i => s.drop i
  | .pull i k => s.pull i k
  | .complete i k result => s.complete i k result
  | .panic i k => s.panic i k
  | .acknowledge i k => s.acknowledge i k
  | .resume i k => s.resume i k
  | .fault i faults => s.onBus i fun b => { b with faults := b.faults ++ faults }
  | .beside a => { s with broker := s.broker.act a }

def run (s : Network H) (acts : List (Act H)) : Network H := acts.foldl perform s

@[simp] theorem run_nil (s : Network H) : s.run [] = s := rfl

@[simp] theorem run_cons (s : Network H) (a : Act H) (acts : List (Act H)) :
    s.run (a :: acts) = (s.perform a).run acts := rfl

theorem run_append (s : Network H) (xs ys : List (Act H)) : s.run (xs ++ ys) = (s.run xs).run ys :=
  List.foldl_append ..

/-- Each act of a run passes a check where it is performed. -/
def throughout (p : Network H → Act H → Bool) : Network H → List (Act H) → Bool
  | _, [] => true
  | s, a :: acts => p s a && throughout p (s.perform a) acts

theorem throughout_append (p : Network H → Act H → Bool) (s : Network H) (xs ys : List (Act H)) :
    throughout p s (xs ++ ys) = (throughout p s xs && throughout p (s.run xs) ys) := by
  induction xs generalizing s with
  | nil => rfl
  | cons a xs ih => simp only [List.cons_append, throughout, ih, Bool.and_assoc, run_cons]

/-! ## What is told of a run -/

/-- What `f` takes from the history, in the order of time. -/
def told {α : Type} (s : Network H) (f : Entry H → Option α) : List α :=
  s.history.reverse.filterMap f

theorem told_note {α : Type} (s : Network H) (e : Entry H) (f : Entry H → Option α) :
    (s.note e).told f = s.told f ++ [e].filterMap f := by
  simp [told, note]

def diary (s : Network H) (i k : Nat) : List (Entry H) := s.told (Entry.by? i k)

@[simp] theorem note_broker (s : Network H) (e : Entry H) : (s.note e).broker = s.broker := rfl
@[simp] theorem note_buses (s : Network H) (e : Entry H) : (s.note e).buses = s.buses := rfl

@[simp] theorem observe_broker (s : Network H) (i : Nat) (os : List Observation) :
    (s.observe i os).broker = s.broker := by
  induction os generalizing s with
  | nil => rfl
  | cons o os ih => exact ih _

@[simp] theorem observe_buses (s : Network H) (i : Nat) (os : List Observation) :
    (s.observe i os).buses = s.buses := by
  induction os generalizing s with
  | nil => rfl
  | cons o os ih => exact ih _

theorem told_observe_append {α : Type} (s : Network H) (i : Nat) (os : List Observation)
    (f : Entry H → Option α) :
    (s.observe i os).told f = s.told f ++ os.filterMap fun o => f (.observed i o) := by
  induction os generalizing s with
  | nil => exact (List.append_nil _).symm
  | cons o os ih =>
    refine (ih (s.note (.observed i o))).trans ?_
    rw [told_note, List.append_assoc]
    cases ho : f (.observed i o) <;> simp [ho]

theorem told_observe {α : Type} (s : Network H) (i : Nat) (os : List Observation)
    {f : Entry H → Option α} (hf : ∀ o, f (.observed i o) = none) :
    (s.observe i os).told f = s.told f := by
  rw [told_observe_append]
  simp [hf]

theorem report_cons (s : Network H) (i : Nat) (e : BusError) (es : List BusError) :
    ∃ records : List LogRecord, s.report i (e :: es) =
      (records.foldl (fun s r => s.note (.logged r)) (s.note (.reported i e))).report i es :=
  ⟨_, rfl⟩

theorem foldl_logged (s : Network H) (records : List LogRecord) :
    (records.foldl (fun s r => s.note (.logged r)) s).broker = s.broker ∧
    (records.foldl (fun s r => s.note (.logged r)) s).buses = s.buses ∧
    ∀ {α : Type} {f : Entry H → Option α}, (∀ r, f (.logged r) = none) →
      (records.foldl (fun s r => s.note (.logged r)) s).told f = s.told f := by
  induction records generalizing s with
  | nil => exact ⟨rfl, rfl, fun _ => rfl⟩
  | cons r records ih =>
    obtain ⟨hb, hs, ht⟩ := ih (s.note (.logged r))
    refine ⟨hb, hs, fun hf => (ht hf).trans ?_⟩
    simp [told_note, hf]

@[simp] theorem report_broker (s : Network H) (i : Nat) (es : List BusError) :
    (s.report i es).broker = s.broker := by
  induction es generalizing s with
  | nil => rfl
  | cons e es ih =>
    obtain ⟨records, h⟩ := s.report_cons i e es
    rw [h, ih, (foldl_logged _ _).1, note_broker]

@[simp] theorem report_buses (s : Network H) (i : Nat) (es : List BusError) :
    (s.report i es).buses = s.buses := by
  induction es generalizing s with
  | nil => rfl
  | cons e es ih =>
    obtain ⟨records, h⟩ := s.report_cons i e es
    rw [h, ih, (foldl_logged _ _).2.1, note_buses]

theorem told_report {α : Type} (s : Network H) (i : Nat) (es : List BusError)
    {f : Entry H → Option α} (hf : ∀ r, f (.logged r) = none) :
    (s.report i es).told f = s.told f ++ es.filterMap fun e => f (.reported i e) := by
  induction es generalizing s with
  | nil => simp [report]
  | cons e es ih =>
    obtain ⟨records, h⟩ := s.report_cons i e es
    rw [h, ih, (foldl_logged _ _).2.2 hf, told_note, List.append_assoc]
    cases he : f (.reported i e) <;> simp [he]

def reports (s : Network H) (i : Nat) : List BusError := s.told (Entry.reported? i)

/-- The function looks only at what became of deliveries: what dispatchers did with them, the
calls that resolve them, and refusals of these that are reported. -/
structure OfDeliveries {α : Type} (f : Entry H → Option α) : Prop where
  observed : ∀ i o, f (.observed i o) = none
  logged : ∀ r, f (.logged r) = none
  called : ∀ i c refusal, c.resolves = false → f (.called i c refusal) = none
  reported : ∀ i e, (∀ x, e ≠ .acknowledgementFailed x) → f (.reported i e) = none

theorem ofDeliveries_by (i k : Nat) : OfDeliveries (Entry.by? (H := H) i k) :=
  ⟨fun _ _ => rfl, fun _ => rfl, fun _ _ _ _ => rfl, fun _ _ _ => rfl⟩

end Network
end CargoEvents
