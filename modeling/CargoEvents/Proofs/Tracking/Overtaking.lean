import CargoEvents.Event.Samples
import CargoEvents.Proofs.Bus.Blocked
import CargoEvents.Proofs.Tracking.Handling

/-! # Updates that overtake their booking

An update fails until the cargo it is about has been booked, and while it fails nothing
behind it is attempted. The tracking queue is therefore worked off if and only if every
update stands behind the booking it needs, unless the cargo is known already.
-/
namespace CargoEvents.Tracking
open Calendar (Instant)
open Broker (Copy)
open Network

/-- Whether every update is about a cargo that is known or that was booked further ahead. -/
def InOrder (known : String → Prop) (events : List Event) : Prop :=
  ∀ before e after id, events = before ++ e :: after → updated? e = some id →
    known id ∨ ∃ booking ∈ before, booked? booking = some id

theorem inOrder_nil (known : String → Prop) : InOrder known [] := by
  intro before e after id h
  simp at h

theorem inOrder_cons {known : String → Prop} {e : Event} {events : List Event} :
    InOrder known (e :: events) ↔ (∀ id, updated? e = some id → known id) ∧
      InOrder (fun id => known id ∨ booked? e = some id) events := by
  constructor
  · intro h
    refine ⟨fun id hid => ?_, fun before e' after id heq hid => ?_⟩
    · simpa using h [] e events id rfl hid
    · rcases h (e :: before) e' after id (by rw [heq]; rfl) hid with hk | ⟨booking, hb, hid'⟩
      · exact .inl (.inl hk)
      · rcases List.mem_cons.mp hb with rfl | hb
        · exact .inl (.inr hid')
        · exact .inr ⟨booking, hb, hid'⟩
  · rintro ⟨hfirst, hrest⟩ before e' after id heq hid
    cases before with
    | nil =>
      obtain ⟨rfl, -⟩ := List.cons.inj heq
      exact .inl (hfirst id hid)
    | cons b before =>
      obtain ⟨rfl, htail⟩ := List.cons.inj heq
      rcases hrest before e' after id htail hid with (hk | hid') | ⟨booking, hb, hid'⟩
      · exact .inl hk
      · exact .inr ⟨e, List.mem_cons_self, hid'⟩
      · exact .inr ⟨booking, List.mem_cons_of_mem _ hb, hid'⟩

/-! ## A service at its queue -/

variable {H : Type} (clock : Nat → Instant) (handler : EventKind → H) {i k : Nat}

/-- Every handler works on one repository. The time is what the clock shows at the run. -/
def keepViews (_ : H) (e : Event) : Call HandlerError (Nat × Repository) Unit := fun (n, r) =>
  ((handle (clock n) e r).1, n + 1, (handle (clock n) e r).2)

structure Carries (copy : Copy) (e : Event) : Prop where
  tracked : e.kind ∈ trackedKinds
  kind : copy.kind = e.kind.name
  decodes : Event.decode e.kind copy.body = .ok e

/-- A handler that succeeds at once on a copy and its event. -/
def job (w : Copy × Event) : Job H where
  copy := w.1
  registration := { kind := w.2.kind, handler := handler w.2.kind }
  event := w.2
  failures := []

def succeeded? : Entry H → Option Broker.Delivery
  | .left _ _ d (.ok ()) => some d
  | _ => none

/-- The deliveries that a dispatcher's handlers returned from with success. -/
def handled (s : Network H) (i k : Nat) : List Broker.Delivery :=
  (s.log i k).filterMap succeeded?

theorem handled_plan (tag : Nat) (waiting : List (Copy × Event)) :
    ((plan tag (waiting.map (job handler))).flatMap (Attempt.log i k)).filterMap succeeded? =
      (waiting.zipIdx (tag + 1)).map fun (w, tag) => w.1.delivery tag := by
  induction waiting generalizing tag with
  | nil => rfl
  | cons w waiting ih =>
    have hrest : (job handler w).rest = [] := rfl
    rw [List.map_cons, plan_cons, hrest, List.nil_append, List.flatMap_cons,
      List.filterMap_append, ih]
    rfl

/-- What waits is in order and all handled, or some update fails once all ahead of it is
handled. -/
theorem work_or_overtaken (n : Nat) {r : Repository} (h : r.Sound) (waiting : List (Copy × Event)) :
    InOrder (fun id => r.cargos.contains id) (waiting.map (·.2)) ∧
      (∃ u, Work (keepViews clock) (n, r) (waiting.map (job handler)) u) ∨
    ¬InOrder (fun id => r.cargos.contains id) (waiting.map (·.2)) ∧
      ∃ before w after m r' id, waiting = before ++ w :: after ∧
        Work (keepViews clock) (n, r) (before.map (job handler)) (m, r') ∧ r'.Sound ∧
        updated? w.2 = some id ∧ ¬r'.cargos.contains id := by
  -- What is known further back is what the repository holds by then.
  induction waiting generalizing n r with
  | nil => exact .inl ⟨inOrder_nil _, _, .done _⟩
  | cons w waiting ih =>
    rw [List.map_cons, inOrder_cons]
    by_cases hk : ∀ id, updated? w.2 = some id → r.cargos.contains id
    · obtain ⟨r', heq, hr', hcontains⟩ := h.handle (clock n) hk
      have hran : keepViews clock (handler w.2.kind) w.2 (n, r) = (.ok (), n + 1, r') := by
        simp only [keepViews, heq]
      have hknown : (fun id => (r.cargos.contains id : Prop) ∨ booked? w.2 = some id) =
          fun id => (r'.cargos.contains id : Prop) :=
        funext fun id => propext (hcontains id).symm
      rw [hknown]
      rcases ih (n + 1) hr' with
        ⟨hin, u, hwork⟩ | ⟨hnot, before, x, after, m, r'', id, heq, hwork, h'⟩
      · exact .inl ⟨⟨hk, hin⟩, u, .attempt hran hwork⟩
      · refine .inr ⟨fun hin => hnot hin.2, w :: before, x, after, m, r'', id, ?_, ?_, h'⟩
        · rw [heq, List.cons_append]
        · exact .attempt hran hwork
    · refine .inr ⟨fun hin => hk hin.1, ?_⟩
      obtain ⟨id, hid⟩ := not_forall.mp hk
      obtain ⟨hid, hc⟩ := Classical.not_imp.mp hid
      exact ⟨[], w, waiting, n, r, id, rfl, .done _, h, hid, hc⟩

theorem keepViews_fails {e : Event} {id : String} (hid : updated? e = some id) (h : H)
    (state : Nat × Repository) (hs : state.2.Sound ∧ ¬state.2.cargos.contains id) :
    ∃ error state', keepViews clock h e state = (.error error, state') ∧
      state'.2.Sound ∧ ¬state'.2.cargos.contains id := by
  obtain ⟨n, r⟩ := state
  refine ⟨.notFound id, (n + 1, r), ?_, hs⟩
  simp only [keepViews, hs.1.handle_unknown (clock n) hid hs.2]

variable {registry : Registry H} {handler}

theorem Carries.fits {w : Copy × Event} (h : Carries w.1 w.2)
    (subscribed : ∀ kind ∈ trackedKinds,
      registry.get? kind.name = some { kind, handler := handler kind }) :
    (job handler w).Fits registry where
  found := (congrArg _ h.kind).trans (subscribed w.2.kind h.tracked)
  decodes := h.decodes

/-- Updates and bookings. Let a dispatcher that nothing disturbs stand between deliveries
while its session holds none, let the handlers of the kinds on which views depend share the
repository in which `views` are stored, and let events of these kinds wait in the queue.
After some number of turns they are all gone and handled, each with success, if and only if
every update is about a cargo that has a view or whose booking waits further ahead.
Otherwise some of them is pending after any number of turns. -/
theorem drained_iff_in_order (acts : List (Act H)) {bus : Bus H} {st : Broker.Stream}
    {x : Broker.Session}
    (undisturbed : Undisturbed (Network.run {} acts) i k bus { stream := st } x)
    (free : x.unacked = [])
    (subscribed : ∀ kind ∈ trackedKinds,
      bus.registry.get? kind.name = some { kind, handler := handler kind })
    (views : List CargoView) (waiting : List (Copy × Event))
    (ready : (Network.run {} acts).broker.ready bus.config.topology.queue.name =
      waiting.map (·.1))
    (carries : ∀ w ∈ waiting, Carries w.1 w.2) :
    let s := Network.run {} acts
    let later (n : Nat) :=
      (play (keepViews clock) i k (s, 0, Repository.holding views) (.replicate n .turn)).1
    let inOrder := InOrder (fun id => ∃ view ∈ views, view.trackingId = id) (waiting.map (·.2))
    ((∃ n, (later n).Drained i k bus.config.topology.queue.name ∧
      handled (later n) i k = handled s i k ++
        (waiting.zipIdx (x.lastTag + 1)).map fun (w, tag) => w.1.delivery tag) ↔ inOrder) ∧
    (¬inOrder → ∀ n, (later n).Busy i k bus.config.topology.queue.name) := by
  intro s later inOrder
  have hserving := undisturbed.serving
  rw [free, ready] at hserving
  have hcopies (ws : List (Copy × Event)) :
      (ws.map (job handler)).map (·.copy) = ws.map (·.1) := by
    rw [List.map_map]
    rfl
  have hfits {ws : List (Copy × Event)} (hws : ∀ w ∈ ws, w ∈ waiting) :
      ∀ j ∈ ws.map (job handler), j.Fits bus.registry :=
    List.forall_mem_map.mpr fun w hw => (carries w (hws w hw)).fits subscribed
  obtain ⟨hsound, hknown⟩ := Repository.sound_holding views
  have hin : inOrder = InOrder (fun id => (Repository.holding views).cargos.contains id)
      (waiting.map (·.2)) :=
    congrArg (InOrder · _) (funext fun id => propext (hknown id).symm)
  rw [hin]
  rcases work_or_overtaken clock handler 0 hsound waiting with
    ⟨hin, u, hwork⟩ | ⟨hnot, before, w, after, m, r, id, rfl, hwork, hr, hid, hc⟩
  · refine ⟨iff_of_true ⟨3 * (plan x.lastTag (waiting.map (job handler))).length, ?_⟩ hin,
      fun hnot => absurd hin hnot⟩
    rw [← hcopies, ← List.append_nil (List.map _ (waiting.map _))] at hserving
    obtain ⟨⟨tag, hlater⟩, hlog, -⟩ := hserving.work_off (hfits fun _ hw => hw) hwork
    refine ⟨hlater.drained, ?_⟩
    rw [handled, hlog, List.filterMap_append, handled_plan]
    rfl
  · have hw : w ∈ before ++ w :: after := List.mem_append_right _ List.mem_cons_self
    have hjob := (carries w hw).fits subscribed
    rw [List.map_append, List.map_cons, ← hcopies] at hserving
    have hbusy := hserving.blocked (hfits fun _ hb => List.mem_append_left _ hb) hwork hjob.found
      hjob.decodes (keepViews_fails clock hid _) ⟨hr, hc⟩
    refine ⟨iff_of_false ?_ hnot, fun _ => hbusy⟩
    rintro ⟨n, hdrained, -⟩
    exact (hbusy n).not_drained hdrained

/-! ## A booking and an update of its cargo -/

/-- A service that starts after events were published for it. -/
def published (events : List Event) : List (Act Unit) :=
  .build { service := "tracking" } .receiver [] :: trackedKinds.map (Act.subscribe 0 · ()) ++
    events.map (Act.publish 0 ·) ++ [.start 0]

def serviceStream : Broker.Stream := { session := 0, queue := "tracking.queue", epoch := 0 }

def service : Bus Unit where
  config := { service := "tracking" }
  session := 0
  registry := trackedKinds.foldl (·.insert · ()) {}
  state := .consuming
  changes := 1
  dispatchers := [{ stream := serviceStream }]

def copyOf (e : Event) (arrival : Nat) : Copy where
  arrival
  routingKey := e.kind.name
  typeTag := some e.kind.name
  body := e.encode

def booking : Event := .newCargoBooked (Samples.newCargoBooked "XYZ789" "SESTO" "CNHKG")
def update : Event := .cargoDestinationChanged (Samples.cargoDestinationChanged "XYZ789" "USNYC")

/-- An update behind its booking is handled. -/
theorem drained_with_booking_ahead :
    let s := Network.run {} (published [booking, update])
    let later (n : Nat) :=
      (play (keepViews fun _ => Samples.clock) 0 0 (s, 0, Repository.holding [])
        (.replicate n .turn)).1
    ∃ n, (later n).Drained 0 0 "tracking.queue" ∧ handled (later n) 0 0 =
      [(copyOf booking 0).delivery 1, (copyOf update 1).delivery 2] := by
  have undisturbed : Undisturbed (Network.run {} (published [booking, update])) 0 0 service
      { stream := serviceStream } { prefetch := 1 } :=
    ⟨rfl, rfl, rfl, rfl, rfl, rfl, rfl, rfl⟩
  have subscribed : ∀ kind ∈ trackedKinds,
      service.registry.get? kind.name = some { kind, handler := () } := by decide +kernel
  have carries : ∀ w ∈ [(copyOf booking 0, booking), (copyOf update 1, update)],
      Carries w.1 w.2 := by
    refine List.forall_mem_cons.mpr ⟨?_, List.forall_mem_singleton.mpr ?_⟩
    · exact ⟨by decide, rfl, by decide +kernel⟩
    · exact ⟨by decide, rfl, by decide +kernel⟩
  refine (drained_iff_in_order (fun _ => Samples.clock) _ undisturbed rfl subscribed [] _
    (by decide +kernel) carries).1.mpr ?_
  simp [inOrder_cons, inOrder_nil, booking, update, updated?, booked?, Samples.newCargoBooked,
    Samples.cargoDestinationChanged]

/-- An update ahead of its booking is never handled, and neither is the booking. -/
theorem overtaken_booking_waits :
    let s := Network.run {} (published [update, booking])
    let later (n : Nat) :=
      (play (keepViews fun _ => Samples.clock) 0 0 (s, 0, {}) (.replicate n .turn)).1
    s.Undisturbed 0 0 service { stream := serviceStream } { prefetch := 1 } ∧
    s.broker.ready "tracking.queue" = [copyOf update 0, copyOf booking 1] ∧
    (∀ kind ∈ trackedKinds, service.registry.get? kind.name = some { kind, handler := () }) ∧
    ∀ n, ¬(later n).Drained 0 0 "tracking.queue" := by
  intro s later
  have undisturbed : s.Undisturbed 0 0 service { stream := serviceStream } { prefetch := 1 } :=
    ⟨rfl, rfl, rfl, rfl, rfl, rfl, rfl, rfl⟩
  have ready : s.broker.ready "tracking.queue" = [copyOf update 0, copyOf booking 1] := by
    decide +kernel
  have subscribed : ∀ kind ∈ trackedKinds,
      service.registry.get? kind.name = some { kind, handler := () } := by decide +kernel
  refine ⟨undisturbed, ready, subscribed, fun n => ?_⟩
  have hserving := undisturbed.serving
  change Serving service.registry "tracking.queue" 0 0 s .pulling 0 []
    (s.broker.ready "tracking.queue") at hserving
  rw [ready] at hserving
  have hid : updated? update = some "XYZ789" := rfl
  have hnone : Work (keepViews fun _ => Samples.clock) (0, {}) ([] : List (Job Unit)) (0, {}) :=
    .done _
  have hupdate : Carries (copyOf update 0) update := ⟨by decide, rfl, by decide +kernel⟩
  have hjob := Carries.fits (w := (copyOf update 0, update)) hupdate subscribed
  have hbusy := hserving.blocked (List.forall_mem_nil _) hnone hjob.found hjob.decodes
    (keepViews_fails (fun _ => Samples.clock) hid ()) ⟨Repository.sound_empty, by decide⟩ n
  exact hbusy.not_drained

end CargoEvents.Tracking
