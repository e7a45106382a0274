import CargoEvents.Log
import CargoEvents.Proofs.Bus.Feeding
import CargoEvents.Proofs.Event.RoundTrip
import CargoEvents.Proofs.Tracking.Overtaking

/-! # A service follows what is published

As long as every update is published behind the booking it needs, a service that consumes
gets to where its handlers would get if they were called on the events themselves, with one
delivery for each event, however publishing and dispatching interleave.
-/
namespace CargoEvents
variable {H : Type}

theorem EventKind.name_ne_empty (kind : EventKind) : kind.name ≠ "" := by
  cases kind <;> decide

namespace Network

theorem reports_eq_log (s : Network H) (i k : Nat) :
    s.reports i = (s.log i k).filterMap (Entry.reported? i) := by
  rw [reports, log, told, told, List.filterMap_filterMap]
  congr 1
  funext e
  cases e with
  | reported j error =>
    by_cases hj : j = i <;> simp [Entry.reported?, Entry.log?, hj]
  | called j c refusal =>
    cases refusal with
    | some e => rfl
    | none => by_cases hj : j = i ∧ c.resolves <;> simp [Entry.reported?, Entry.log?, hj]
  | pulled j l | entered j l | left j l | panicked j l =>
    by_cases hj : j = i ∧ l = k <;> simp [Entry.reported?, Entry.log?, Entry.by?, hj]
  | observed | logged => rfl

def acted (ticks : List (Tick H)) : List (Act H) :=
  ticks.filterMap fun
    | .act a => some a
    | .turn => none

end Network

namespace Tracking
open Calendar (Instant)
open Broker (Copy)
open Network

/-- The handlers of a service share one repository, and each of their runs is logged. -/
def logging (now : Instant) (_ : H) (e : Event) :
    Call HandlerError (Repository × List LogRecord) Unit := fun (r, records) =>
  ((handle now e r).1, (handle now e r).2, records ++ [.ofRun e (handle now e r).1])

def handleAll (now : Instant) (events : List Event) : Call HandlerError Repository Unit :=
  events.forM (handle now)

/-- What a dispatcher does about a copy whose event is handled at once. -/
def served (handler : EventKind → H) (i k : Nat) (w : Copy × Event) (tag : Nat) : List (Entry H) :=
  let d := w.1.delivery tag
  [.pulled i k d, .entered i k d { kind := w.2.kind, handler := handler w.2.kind } w.2,
    .left i k d (.ok ()), .called i (.ack tag) none]

variable {handler : EventKind → H} {now : Instant} {i j k tag : Nat} {e : Event}

theorem handleAll_cons {r r' : Repository} (h : handle now e r = (.ok (), r'))
    (events : List Event) : handleAll now (e :: events) r = handleAll now events r' := by
  have hcons : handleAll now (e :: events) = handle now e >>= fun _ => handleAll now events :=
    List.forM_cons
  rw [hcons, Call.bind_apply, h]

theorem carries_copyFor (b : Broker) (tracked : e.kind ∈ trackedKinds)
    (sized : e.encodedSize < 2 ^ 64) : Carries (b.copyFor e) e := by
  refine ⟨tracked, ?_, Event.decode_encode sized⟩
  simp [Broker.copyFor, Broker.newCopy, Copy.kind, Broker.tagOf, Message.ofEvent, eventKind,
    e.kind.name_ne_empty]

variable {registry : Registry H} {exchange queue : String} {told : List (Entry H)} {last n : Nat}
  {r : Repository} {records : List LogRecord} {state : Network H × Repository × List LogRecord}

theorem publish_due {s : Network H} {t : Repository × List LogRecord}
    (h : Due (logging now) i k registry queue told last (r, records) n (s, t))
    (subscribed : ∀ kind ∈ trackedKinds,
      registry.get? kind.name = some { kind, handler := handler kind })
    (routed : Routed trackedKinds exchange queue s.broker) (publisher : Publisher exchange s j)
    (tracked : e.kind ∈ trackedKinds) (sized : e.encodedSize < 2 ^ 64) {r' : Repository}
    (handles : handle now e r = (.ok (), r')) :
    ∃ n', Due (logging now) i k registry queue
      (told ++ served handler i k (s.broker.copyFor e, e) (last + 1)) (last + 1)
      (r', records ++ [.handled e]) n' (s.perform (.publish j e), t) := by
  have hcarries := carries_copyFor s.broker tracked sized
  have hfits : (job handler (s.broker.copyFor e, e)).Fits registry :=
    Carries.fits (w := (s.broker.copyFor e, e)) hcarries subscribed
  have hran : logging now (handler e.kind) e (r, records) =
      (.ok (), r', records ++ [.handled e]) := by
    simp only [logging, handles]
    rfl
  have hwork : Work (logging now) (r, records) [job handler (s.broker.copyFor e, e)]
      (r', records ++ [.handled e]) := .attempt hran (.done _)
  exact h.publish publisher routed tracked rfl hfits hwork

/-- However publishing and dispatching interleave, what is due is what the events come to. -/
theorem due_follows (h : Due (logging now) i k registry queue told last (r, records) n state)
    (subscribed : ∀ kind ∈ trackedKinds,
      registry.get? kind.name = some { kind, handler := handler kind })
    (routed : Routed trackedKinds exchange queue state.1.broker) (sound : r.Sound)
    {posts : List (Nat × Event)} (publishers : ∀ post ∈ posts, Publisher exchange state.1 post.1)
    (tracked : ∀ post ∈ posts, post.2.kind ∈ trackedKinds)
    (sized : ∀ post ∈ posts, post.2.encodedSize < 2 ^ 64)
    (inOrder : InOrder (fun id => r.cargos.contains id) (posts.map (·.2)))
    (ticks : List (Tick H))
    (published : acted ticks = posts.map fun post => .publish post.1 post.2) :
    ∃ (r' : Repository) (waiting : List (Copy × Event)) (n' : Nat),
      handleAll now (posts.map (·.2)) r = (.ok (), r') ∧
      waiting.map (·.2) = posts.map (·.2) ∧ (∀ w ∈ waiting, Carries w.1 w.2) ∧
      Due (logging now) i k registry queue
        (told ++ (waiting.zipIdx (last + 1)).flatMap fun (w, tag) => served handler i k w tag)
        (last + waiting.length) (r', records ++ (posts.map (·.2)).map .handled) n'
        (play (logging now) i k state ticks) := by
  induction ticks generalizing told last r records n state posts with
  | nil =>
    obtain rfl : posts = [] := List.map_eq_nil_iff.mp published.symm
    refine ⟨r, [], n, rfl, rfl, List.forall_mem_nil _, ?_⟩
    simpa [play] using h
  | cons tick ticks ih =>
    obtain ⟨s, t⟩ := state
    cases tick with
    | turn =>
      have hupheld := turn_upheld (logging now) i k (s, t)
      have hrouted := routed.wired hupheld.broker
      have hpublishers : ∀ post ∈ posts,
          Publisher exchange (Network.turn (logging now) i k (s, t)).1 post.1 :=
        fun post hp => (publishers post hp).upheld hupheld
      have hacted : acted ticks = posts.map fun post => .publish post.1 post.2 := published
      exact ih h.turn hrouted sound hpublishers tracked sized inOrder hacted
    | act a =>
      cases posts with
      | nil => cases published
      | cons post posts =>
        obtain ⟨j, e⟩ := post
        obtain ⟨rfl, hrest⟩ := List.cons.inj published
        rw [List.forall_mem_cons] at publishers tracked sized
        rw [List.map_cons, inOrder_cons] at inOrder
        obtain ⟨r₁, hhandle, hsound₁, hknown⟩ := sound.handle now inOrder.1
        obtain ⟨n₁, hdue⟩ := publish_due h subscribed routed publishers.1 tracked.1 sized.1 hhandle
        obtain ⟨-, hupheld, -⟩ := publishers.1.publish h.stage.sound routed tracked.1
        have hknown : (fun id => (r.cargos.contains id : Prop) ∨ booked? e = some id) =
            fun id => (r₁.cargos.contains id : Prop) :=
          funext fun id => propext (hknown id).symm
        obtain ⟨r', waiting, n', hfold, hwaiting, hcarries, hend⟩ := ih hdue
          (routed.wired hupheld.broker) hsound₁
          (fun post hp => (publishers.2 post hp).upheld hupheld) tracked.2 sized.2
          (hknown ▸ inOrder.2) hrest
        refine ⟨r', (s.broker.copyFor e, e) :: waiting, n', ?_, ?_, ?_, ?_⟩
        · rw [List.map_cons, handleAll_cons hhandle, hfold]
        · rw [List.map_cons, hwaiting, List.map_cons]
        · exact List.forall_mem_cons.mpr ⟨carries_copyFor s.broker tracked.1 sized.1, hcarries⟩
        · have hlast : last + ((s.broker.copyFor e, e) :: waiting).length =
              last + 1 + waiting.length := by
            rw [List.length_cons, Nat.add_right_comm, Nat.add_assoc]
          rw [List.append_assoc, List.append_assoc] at hend
          rw [hlast]
          exact hend

theorem reported_served (waiting : List (Copy × Event)) (tag : Nat) :
    ((waiting.zipIdx tag).flatMap fun (w, tag) => served handler i k w tag).filterMap
      (Entry.reported? i) = [] := by
  rw [List.filterMap_eq_nil_iff]
  intro entry hentry
  obtain ⟨⟨w, tag⟩, -, hmem⟩ := List.mem_flatMap.mp hentry
  simp only [served, List.mem_cons, List.not_mem_nil, or_false] at hmem
  rcases hmem with rfl | rfl | rfl | rfl <;> rfl

/-- Following. Let a dispatcher that nothing disturbs stand at the empty queue of a service
whose handlers share one repository, let the queue be bound for the kinds of events on which
views depend, and let buses on its exchange publish such events, each update behind a booking
of its cargo unless the repository has a view of it. However publishing and turns of the
dispatcher interleave, some more turns empty the queue. Once it is empty and nothing is
unresolved, each event has been delivered exactly once, handled with success and logged, no
error was reported, and the repository is what the handlers make of the events themselves. -/
theorem follows_published (acts : List (Act H)) {bus : Bus H} {st : Broker.Stream}
    {x : Broker.Session}
    (undisturbed : Undisturbed (Network.run {} acts) i k bus { stream := st } x)
    (free : x.unacked = [])
    (empty : (Network.run {} acts).broker.ready bus.config.topology.queue.name = [])
    (subscribed : ∀ kind ∈ trackedKinds,
      bus.registry.get? kind.name = some { kind, handler := handler kind })
    (routed : Routed trackedKinds bus.config.exchange bus.config.topology.queue.name
      (Network.run {} acts).broker)
    (sound : r.Sound) {posts : List (Nat × Event)}
    (publishers : ∀ post ∈ posts, Publisher bus.config.exchange (Network.run {} acts) post.1)
    (tracked : ∀ post ∈ posts, post.2.kind ∈ trackedKinds)
    (sized : ∀ post ∈ posts, post.2.encodedSize < 2 ^ 64)
    (inOrder : InOrder (fun id => r.cargos.contains id) (posts.map (·.2)))
    (ticks : List (Tick H))
    (published : acted ticks = posts.map fun post => .publish post.1 post.2) :
    let s := Network.run {} acts
    let queue := bus.config.topology.queue.name
    let events := posts.map (·.2)
    let later (n : Nat) :=
      play (logging now) i k (s, r, records) (ticks ++ .replicate n .turn)
    ∃ (r' : Repository) (waiting : List (Copy × Event)),
      handleAll now events r = (.ok (), r') ∧
      waiting.map (·.2) = events ∧ (∀ w ∈ waiting, Carries w.1 w.2) ∧
      (∃ n, (later n).1.Drained i k queue) ∧
      ∀ n, (later n).1.Drained i k queue →
        (later n).2 = (r', records ++ events.map .handled) ∧
        (later n).1.log i k = s.log i k ++
          ((waiting.zipIdx (x.lastTag + 1)).flatMap fun (w, tag) => served handler i k w tag) ∧
        (later n).1.reports i = s.reports i := by
  intro s queue events later
  have hserving := undisturbed.serving
  rw [free, empty] at hserving
  obtain ⟨r', waiting, m, hfold, hwaiting, hcarries, hdue⟩ := due_follows
    (hserving.due (r, records)) subscribed routed sound publishers tracked sized inOrder ticks
    published
  have hlater (n : Nat) : later n = play (logging now) i k
      (play (logging now) i k (s, r, records) ticks) (.replicate n .turn) := play_append ..
  refine ⟨r', waiting, hfold, hwaiting, hcarries, ⟨m, ?_⟩, fun n hn => ?_⟩
  · rw [hlater]
    exact ((hdue.finish m).2 (Nat.le_refl m)).1
  · rw [hlater] at hn ⊢
    obtain ⟨hbusy, hthrough⟩ := hdue.finish n
    have hm : m ≤ n := Nat.le_of_not_lt fun hlt => (hbusy hlt).not_drained hn
    obtain ⟨-, hlog, hstate⟩ := hthrough hm
    refine ⟨hstate, hlog, ?_⟩
    rw [reports_eq_log _ i k, hlog, List.filterMap_append, reported_served, List.append_nil,
      ← reports_eq_log]

/-! ## A cargo from its booking on -/

/-- A service that consumes, and a bus through which others publish. -/
def consuming : List (Act Unit) :=
  .build { service := "tracking" } .receiver [] :: trackedKinds.map (Act.subscribe 0 · ()) ++
    [.start 0, .build { service := "booking" } .receiver []]

/-- An update that is published while the booking of its cargo is being handled. -/
theorem follows_booking_and_update :
    let s := Network.run {} consuming
    let ticks : List (Tick Unit) := [.act (.publish 1 booking), .turn, .act (.publish 1 update)]
    let later (n : Nat) :=
      play (logging Samples.clock) 0 0 (s, {}, []) (ticks ++ .replicate n .turn)
    (∃ n, (later n).1.Drained 0 0 "tracking.queue") ∧
    ∀ n, (later n).1.Drained 0 0 "tracking.queue" →
      (later n).2 = ((handleAll Samples.clock [booking, update] {}).2,
        [.handled booking, .handled update]) := by
  intro s ticks later
  have undisturbed : s.Undisturbed 0 0 service { stream := serviceStream } { prefetch := 1 } :=
    ⟨rfl, rfl, rfl, rfl, rfl, rfl, rfl, rfl⟩
  have subscribed : ∀ kind ∈ trackedKinds,
      service.registry.get? kind.name = some { kind, handler := () } := by decide +kernel
  have routed : Routed trackedKinds service.config.exchange service.config.topology.queue.name
      s.broker := ⟨rfl, rfl, by decide +kernel⟩
  have hpublisher : Publisher service.config.exchange s 1 := ⟨_, rfl, rfl, rfl, rfl, rfl⟩
  have publishers : ∀ post ∈ [(1, booking), (1, update)],
      Publisher service.config.exchange s post.1 :=
    List.forall_mem_cons.mpr ⟨hpublisher, List.forall_mem_singleton.mpr hpublisher⟩
  have inOrder : InOrder (fun id => ({} : Repository).cargos.contains id) [booking, update] := by
    simp [inOrder_cons, inOrder_nil, booking, update, updated?, booked?, Samples.newCargoBooked,
      Samples.cargoDestinationChanged]
  obtain ⟨r', waiting, hfold, -, -, hdrains, hdrained⟩ :=
    follows_published consuming undisturbed rfl rfl subscribed routed Repository.sound_empty
      publishers (by decide) (by decide +kernel) inOrder ticks rfl
  refine ⟨hdrains, fun n hn => ?_⟩
  rw [(hdrained n hn).1]
  exact congrArg (fun result => (result.2, _)) hfold.symm

end Tracking
end CargoEvents
