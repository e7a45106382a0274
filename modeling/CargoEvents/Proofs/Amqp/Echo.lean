import CargoEvents.Proofs.Amqp.Resolving
import CargoEvents.Proofs.Broker.Contents

/-! # One message on two sides

The in-memory broker takes an empty type tag for none, a session over AMQP sends it as it is
and reads back what came. Who looks at the type tag can tell them apart; who looks at the
kind cannot, since an empty tag and a missing one both fall back to the routing key.
-/
namespace CargoEvents

/-- The deliveries show a dispatcher the same message. -/
structure Broker.Delivery.SameMessage (d e : Broker.Delivery) : Prop where
  routingKey : d.routingKey = e.routingKey
  body : d.body = e.body
  kind : d.kind = e.kind

namespace Broker
variable {m : Message} {d : Delivery}

/-- In some run the broker accepts the message, which gets the number of those that arrived
before, and whatever happens then, a stream yields a copy under that number: one that stood in
a queue bound under the message's key, whether it was given back since or not. -/
def HandsOut (m : Message) (d : Delivery) : Prop :=
  ∃ (before later : List Action) (s : Nat) (exchange : String) (b : Broker) (st : Stream),
    (run {} before).publish s exchange m = .ok b ∧ d.arrival = (run {} before).arrivals ∧
      ((b.run later).poll st).1 = .delivery d

/-- An accepted message stands at the tail of each queue bound under its key, by its number. -/
theorem ready_publish {before : List Action} {s : Nat} {exchange queue : String} {b : Broker}
    (hp : (run {} before).publish s exchange m = .ok b)
    (hq : { exchange, key := m.routingKey, queue } ∈ (run {} before).bindings) :
    ∃ copy, b.ready queue = (run {} before).ready queue ++ [copy] ∧
      copy.arrival = (run {} before).arrivals := by
  obtain ⟨-, -, -, rfl⟩ := publish_eq_ok hp
  refine ⟨(run {} before).newCopy m.routingKey (tagOf m) m.body, ?_, rfl⟩
  have hroute := (sound_empty.run before).ready_route exchange m.routingKey (tagOf m) m.body queue
  rwa [brought, if_pos hq] at hroute

theorem exists_handsOut (m : Message) : ∃ d, HandsOut m d := by
  let before : List Action := [.openSession, .declareExchange 0 { name := "x" },
    .declareQueue 0 { name := "q" }, .bindQueue 0 "q" "x" m.routingKey]
  obtain ⟨b, hp⟩ : ∃ b, (run {} before).publish 0 "x" m = .ok b := ⟨_, rfl⟩
  have hbound : { exchange := "x", key := m.routingKey, queue := "q" } ∈
      (run {} before).bindings := List.mem_singleton.mpr rfl
  obtain ⟨copy, htail, hn⟩ := ready_publish hp hbound
  have hready : b.ready "q" = [copy] := htail
  obtain ⟨hsessions, hfaults, hepoch⟩ :
      b.sessions = [{}] ∧ b.deliveryFaults = [] ∧ b.epoch = 0 := by
    obtain ⟨-, -, -, rfl⟩ := publish_eq_ok hp
    exact ⟨rfl, rfl, rfl⟩
  refine ⟨copy.delivery 1, before, [], 0, "x", b, { session := 0, queue := "q", epoch := 0 }, hp,
    hn, ?_⟩
  simp [poll, look, hready, hsessions, hfaults, hepoch, Session.isFull]

theorem HandsOut.content (h : HandsOut m d) :
    d.routingKey = m.routingKey ∧ d.typeTag = tagOf m ∧ d.body = m.body := by
  obtain ⟨before, later, s, exchange, b, st, hp, hn, hd⟩ := h
  have hcarries := ((numbered_empty.run before).carries_publish hp).run later
  obtain ⟨c, tag, hc, rfl⟩ := present_of_poll hd
  have hcontent := hcarries.carried c hc hn
  exact ⟨congrArg Content.routingKey hcontent, congrArg Content.typeTag hcontent,
    congrArg Content.body hcontent⟩

/-- An empty type tag and a missing one fall back to the same kind. -/
theorem eventKind_tagOf (m : Message) (key : String) :
    eventKind (tagOf m) key = eventKind (some m.typeTag) key := by
  unfold tagOf
  split
  · rename_i htag
    simp [eventKind, htag]
  · rfl

end Broker

namespace Amqp

/-! ## What fits on the wire -/

/-- A text whose length is told by one octet. -/
def IsShort (text : String) : Prop := text.utf8ByteSize < 256

instance (text : String) : Decidable (IsShort text) := inferInstanceAs (Decidable (_ < _))

structure Content.Fits (c : Content) : Prop where
  routingKey : IsShort c.routingKey
  contentType : ∀ text ∈ c.properties.contentType, IsShort text
  kind : ∀ text ∈ c.properties.kind, IsShort text

end Amqp

structure Message.Fits (m : Message) : Prop where
  routingKey : Amqp.IsShort m.routingKey
  typeTag : Amqp.IsShort m.typeTag
  contentType : Amqp.IsShort m.contentType

namespace Amqp

theorem Content.fits_ofMessage {m : Message} (h : m.Fits) : (Content.ofMessage m).Fits where
  routingKey := h.routingKey
  contentType := by
    rintro _ ⟨⟩
    exact h.contentType
  kind := by
    rintro _ ⟨⟩
    exact h.typeTag

/-- What each side reads of what the other wrote: the peer a content that was published, and
the session a message that is delivered. -/
structure Transport where
  there : Content → Content
  back : Incoming → Incoming

/-- What fits comes as it went: routing key, properties and body, and on the way back the tag. -/
structure Transport.Faithful (w : Transport) : Prop where
  there : ∀ c, c.Fits → w.there c = c
  back : ∀ x, x.content.Fits → w.back x = x

def Transport.echo (w : Transport) (c : Content) (tag : Nat) (redelivered : Bool) : Incoming :=
  w.back { content := w.there c, tag, redelivered }

theorem Transport.Faithful.echo {w : Transport} (h : w.Faithful) {c : Content} (hc : c.Fits)
    (tag : Nat) (redelivered : Bool) :
    w.echo c tag redelivered = { content := c, tag, redelivered } := by
  rw [Transport.echo, h.there c hc]
  exact h.back _ hc

namespace Session
variable {s : Session}

theorem publish_up (h : s.channel = .up) (exchange : String) (m : Message) :
    calls.publish exchange m s = (.ok (), (s.send (.publish exchange (.ofMessage m))).2) := by
  simp only [calls, Call.adapt_apply, tell, h, Line.isUp, if_true, Except.mapError]

end Session

variable {m : Message} {d : Broker.Delivery} {tag : Nat} {redelivered : Bool}

theorem sameMessage_ofMessage (h : Broker.HandsOut m d) :
    (Incoming.delivery { content := .ofMessage m, tag, redelivered }).SameMessage d := by
  obtain ⟨hkey, htag, hbody⟩ := h.content
  refine ⟨hkey.symm, hbody.symm, ?_⟩
  calc eventKind (some m.typeTag) m.routingKey
      = eventKind (Broker.tagOf m) m.routingKey := (Broker.eventKind_tagOf m _).symm
    _ = d.kind := by rw [Broker.Delivery.kind, hkey, htag]

/-- The type tags themselves differ when the message has an empty one. -/
theorem typeTag_ofMessage_iff (h : Broker.HandsOut m d) :
    (Incoming.delivery { content := .ofMessage m, tag, redelivered }).typeTag = d.typeTag ↔
      m.typeTag ≠ "" := by
  obtain ⟨-, htag, -⟩ := h.content
  change some m.typeTag = d.typeTag ↔ m.typeTag ≠ ""
  rw [htag, Broker.tagOf]
  split <;> simp_all

/-- A message that fits is sent once over a channel that is up, and shows the same whether the
peer delivers it back or the in-memory broker hands it out. There it stands at the tail of each
queue bound under its key; here what comes for a consumer is yielded after what waits already.

Deliveries that are held, in any number, are resolved in any order while other calls go on. A
call over a channel that is up sends one method, for its own delivery alone; over one that is
closed it fails. The peer gets no other method of the kind. Each delivery that is handed out
is one that came, and is held until it is resolved, once. -/
theorem one_message_on_two_sides (w : Transport) (hw : w.Faithful) (m : Message) (hm : m.Fits) :
    (∀ (s : Session) (exchange : String), s.channel = .up →
      ∃ (t : Session) (c : Content),
        Session.calls.publish exchange m s = (.ok (), t) ∧
        t.peer.received = .publish exchange c :: s.peer.received ∧
        ∀ tag redelivered, (w.echo c tag redelivered).delivery.tag = tag ∧
          ∀ d, Broker.HandsOut m d → (w.echo c tag redelivered).delivery.SameMessage d) ∧
    (∃ d, Broker.HandsOut m d) ∧
    (∀ (before : List Broker.Action) (n : Nat) (exchange queue : String) (b : Broker),
      (Broker.run {} before).publish n exchange m = .ok b →
      { exchange, key := m.routingKey, queue } ∈ (Broker.run {} before).bindings →
      ∃ copy, b.ready queue = (Broker.run {} before).ready queue ++ [copy] ∧
        copy.arrival = (Broker.run {} before).arrivals) ∧
    (∀ (s : Session) (others : List Consumer) (c : Consumer) (x : Incoming),
      s.consumers = others ++ [c] → c.isOver = false →
      (s.receive c.tag x).yields (c.waiting.length + 1) =
        c.waiting.map Session.itemPolled ++ [.delivery x.delivery]) ∧
    (∀ (s : Session) (d : Broker.Delivery) (how : Broker.Resolution),
      (s.channel = .up → ∃ t, s.resolve d.tag how = (.ok (), t) ∧
        t.peer.received = resolving d how :: s.peer.received) ∧
      ∀ reason, s.channel = .down reason →
        s.resolve d.tag how = (.error (.acknowledgementFailed d.tag reason), s)) ∧
    ∀ (c : Client) (steps : List Step),
      (c.run steps).session.resolved =
        ((c.settlements steps).filterMap Settlement.sent?).reverse ++ c.session.resolved ∧
      ((c.settlements steps).map (·.delivery) ++ (c.run steps).held).Perm
        (c.held ++ c.yielded steps) ∧
      ∀ d ∈ c.yielded steps, c.session.Waits d ∨
        ∃ consumer x, .receive consumer x ∈ steps ∧ d = x.delivery := by
  refine ⟨fun s exchange hs => ?_, Broker.exists_handsOut m, ?_, ?_,
    fun s d how => ⟨fun hs => ?_, ?_⟩, ?_⟩
  · refine ⟨_, .ofMessage m, Session.publish_up hs exchange m, Session.send_received _ s, ?_⟩
    intro tag redelivered
    -- what fits is read back as it was sent, so the wire can be left out
    rw [hw.echo (Content.fits_ofMessage hm)]
    exact ⟨rfl, fun d hd => sameMessage_ofMessage hd⟩
  · exact fun before n exchange queue b hp hq => Broker.ready_publish hp hq
  · exact fun s others c x hs ho => Session.yields_receive x hs ho
  · exact ⟨_, Session.resolve_up d how hs, Session.send_received _ s⟩
  · exact fun reason hs => Session.resolve_down hs
  · exact fun c steps => ⟨c.resolved_run steps, c.held_run steps, fun d hd => c.mem_yielded hd⟩

/-- A message with an empty type tag, which one side takes for none. It comes back twice, and
what came last is resolved first. -/
theorem one_message_on_two_sides_untagged :
    let w : Transport := { there := id, back := id }
    let m : Message := { routingKey := "NewCargoBooked", typeTag := "", body := [1, 2] }
    let before : List Broker.Action := [.openSession, .declareExchange 0 { name := "x" },
      .declareQueue 0 { name := "q" }, .bindQueue 0 "q" "x" "NewCargoBooked"]
    let s : Session := { peer := {}, uri := "amqp://localhost", consumers := [{ tag := "c" }] }
    let x : Incoming := w.echo (.ofMessage m) 7 false
    let y : Incoming := w.echo (.ofMessage m) 8 true
    let steps : List Step := [.receive "c" x, .receive "c" y, .next, .next,
      .resolve 1 (.nack true), .resolve 0 .ack]
    w.Faithful ∧ m.Fits ∧
    (∃ t c, Session.calls.publish "x" m s = (.ok (), t) ∧ t.peer.received = [.publish "x" c] ∧
      ∃ d, Broker.HandsOut m d ∧ d.typeTag = none ∧
        (w.echo c 7 false).delivery.SameMessage d ∧ (w.echo c 7 false).delivery.tag = 7) ∧
    (∃ copy, ((Broker.run {} before).act (.publish 0 "x" m)).ready "q" = [copy] ∧
      copy.arrival = 0) ∧
    (s.receive "c" x).yields 1 = [.delivery x.delivery] ∧
    (∃ t, s.resolve x.tag .ack = (.ok (), t) ∧ t.peer.received = [.ack 7 false]) ∧
    ({ s with channel := .down "gone" }).resolve x.tag .ack =
      (.error (.acknowledgementFailed 7 "gone"), { s with channel := .down "gone" }) ∧
    (Client.run { session := s } steps).session.resolved = [.ack 7 false, .nack 8 false true] ∧
    (Client.settlements { session := s } steps).map (·.delivery) =
      [y.delivery, x.delivery] ∧
    (Client.run { session := s } steps).held = [] := by
  intro w m before s x y steps
  have hw : w.Faithful := ⟨fun _ _ => rfl, fun _ _ => rfl⟩
  have hm : m.Fits := by constructor <;> decide +kernel
  obtain ⟨hsame, -, htail, hyields, hresolve, hruns⟩ := one_message_on_two_sides w hw m hm
  obtain ⟨b, hb⟩ : ∃ b, (Broker.run {} before).publish 0 "x" m = .ok b := ⟨_, rfl⟩
  have hbound : { exchange := "x", key := m.routingKey, queue := "q" } ∈
      (Broker.run {} before).bindings := by decide +kernel
  have hact : (Broker.run {} before).act (.publish 0 "x" m) = b := by
    rw [Broker.act, hb]
    rfl
  obtain ⟨t, c, hsent, hreceived, hecho⟩ := hsame s "x" rfl
  refine ⟨hw, hm, ⟨t, c, hsent, hreceived, ?_⟩, ?_, hyields s [] { tag := "c" } x rfl rfl,
    (hresolve s x.delivery .ack).1 rfl, (hresolve _ x.delivery .ack).2 "gone" rfl,
    (hruns { session := s } steps).1.trans (by decide +kernel), by decide +kernel,
    by decide +kernel⟩
  · let d : Broker.Delivery :=
      { routingKey := "NewCargoBooked", typeTag := none, body := [1, 2], tag := 1,
        redelivered := false }
    have hpoll : (((Broker.run {} before).act (.publish 0 "x" m)).poll
        { session := 0, queue := "q", epoch := 0 }).1 = .delivery d := by decide +kernel
    have hd : Broker.HandsOut m d := ⟨before, [], 0, "x", b, _, hb, rfl, hact ▸ hpoll⟩
    exact ⟨d, hd, rfl, (hecho 7 false).2 d hd, (hecho 7 false).1⟩
  · rw [hact]
    exact htail before 0 "x" "q" b hb hbound

end Amqp
end CargoEvents
