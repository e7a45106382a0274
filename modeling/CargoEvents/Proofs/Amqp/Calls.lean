import CargoEvents.Amqp.Session
import CargoEvents.Proofs.Bus.Calls

/-! # Calls over AMQP

What one call sends, and what it does to the deliveries that wait for consumers. A delivery
is resolved by a method of its own: over a channel that is up, the method names the tag of
this delivery and no other, and is sent once; over a channel that is closed nothing is sent,
since the peer has taken back what was not resolved. No other call sends such a method.
-/
namespace CargoEvents.Amqp
open Broker (Resolution)

def resolving (d : Broker.Delivery) : Resolution → Method
  | .ack => .ack d.tag false
  | .nack requeue => .nack d.tag false requeue

def Method.resolves : Method → Bool
  | .ack .. | .nack .. => true
  | _ => false

theorem resolves_resolving (d : Broker.Delivery) (how : Resolution) : (resolving d how).resolves := by
  cases how <;> rfl

theorem resolution_eq_resolving (d : Broker.Delivery) (how : Resolution) :
    Session.resolution d.tag how = resolving d how := by cases how <;> rfl

theorem Peer.receive_received (p : Peer) (m : Method) :
    (p.receive m).2.received = m :: p.received := by
  unfold receive
  dsimp only
  split
  · rfl
  · split <;> rfl

namespace Session
variable {s t u : Session} {m : Method} {d : Broker.Delivery}

/-- The methods that resolve deliveries, newest first. -/
def resolved (s : Session) : List Method := s.peer.received.filter Method.resolves

def Waits (s : Session) (d : Broker.Delivery) : Prop := ∃ c ∈ s.consumers, .ok d ∈ c.waiting

def Drains (s t : Session) : Prop := ∀ d, t.Waits d → s.Waits d

theorem Drains.refl (s : Session) : s.Drains s := fun _ h => h

theorem Drains.trans (h : s.Drains t) (h' : t.Drains u) : s.Drains u := fun d hd => h d (h' d hd)

theorem Drains.of_map {f : Consumer → Consumer} (ht : t.consumers = s.consumers.map f)
    (hf : ∀ c d, .ok d ∈ (f c).waiting → .ok d ∈ c.waiting) : s.Drains t := by
  rintro d ⟨c', hc', hd⟩
  rw [ht] at hc'
  obtain ⟨c, hc, rfl⟩ := List.mem_map.mp hc'
  exact ⟨c, hc, hf c d hd⟩

theorem Drains.of_eq (ht : t.consumers = s.consumers) : s.Drains t :=
  .of_map (f := id) (by simpa using ht) fun _ _ h => h

structure Spares (s t : Session) : Prop where
  resolved : t.resolved = s.resolved
  drains : s.Drains t

theorem Spares.refl (s : Session) : s.Spares s := ⟨rfl, .refl s⟩

theorem Spares.trans (h : s.Spares t) (h' : t.Spares u) : s.Spares u :=
  ⟨h'.resolved.trans h.resolved, h.drains.trans h'.drains⟩

theorem Spares.of_peer (hp : t.peer.received = s.peer.received) (hb : s.Drains t) : s.Spares t :=
  ⟨congrArg (List.filter Method.resolves) hp, hb⟩

theorem Spares.of_sent (hm : m.resolves = false)
    (hp : t.peer.received = m :: s.peer.received) (hb : s.Drains t) : s.Spares t := by
  refine ⟨?_, hb⟩
  rw [Session.resolved, hp, List.filter_cons_of_neg (by simp [hm]), ← Session.resolved]

/-! ## One call -/

@[simp] theorem channelClosed_peer (reason : String) (s : Session) :
    (s.channelClosed reason).peer = s.peer := by
  unfold channelClosed
  split <;> rfl

theorem drains_channelClosed (reason : String) (s : Session) :
    s.Drains (s.channelClosed reason) := by
  unfold channelClosed
  split
  · refine .of_map rfl fun c d hd => ?_
    simp only [Consumer.stop, Consumer.push] at hd
    split at hd <;> simpa using hd
  · exact .refl s

theorem drains_stop (hs : t.consumers = s.consumers.map Consumer.stop) : s.Drains t :=
  .of_map hs fun _ _ hd => hd

theorem send_received (m : Method) (s : Session) :
    (s.send m).2.peer.received = m :: s.peer.received := by
  have hpeer := s.peer.receive_received m
  unfold send
  dsimp only
  split
  · exact hpeer
  · rw [channelClosed_peer]
    exact hpeer

theorem drains_send (m : Method) (s : Session) : s.Drains (s.send m).2 := by
  unfold send
  dsimp only
  split
  · exact .of_eq rfl
  · exact Drains.trans (.of_eq rfl) (drains_channelClosed _ _)

theorem spares_send (hm : m.resolves = false) (s : Session) : s.Spares (s.send m).2 :=
  .of_sent hm (send_received m s) (drains_send m s)

theorem spares_ask (hm : m.resolves = false) : Call.Within Spares (ask m) := by
  intro s
  have hsend := spares_send hm s
  unfold ask
  split
  · generalize s.send m = sent at hsend
    rcases sent with ⟨_ | r, s'⟩ <;> exact hsend
  · exact .refl s

theorem spares_tell (hm : m.resolves = false) : Call.Within Spares (tell m) := by
  intro s
  unfold tell
  split
  · exact spares_send hm s
  · exact .refl s

theorem spares_consume (queue tag : String) : Call.Within Spares (consume queue tag) := by
  refine Call.Within.bind (fun _ _ _ => .trans) ((spares_ask rfl).adapt _) fun _ s => ?_
  refine .of_peer rfl ?_
  rintro d ⟨c, hc, hd⟩
  rcases List.mem_append.mp hc with hc | hc
  · exact ⟨c, hc, hd⟩
  · obtain rfl := List.mem_singleton.mp hc
    cases hd

theorem spares_closeChannel (s : Session) : s.Spares s.closeChannel := by
  unfold closeChannel
  split
  · exact (spares_send rfl s).trans (.of_peer rfl (drains_stop rfl))
  · exact .refl s

theorem spares_closeConnection : Call.Within Spares closeConnection := by
  intro s
  have hsent := s.peer.receive_received (.closeConnection replySuccess farewell)
  unfold closeConnection
  split
  · generalize s.peer.receive (.closeConnection replySuccess farewell) = answer at hsent
    rcases answer with ⟨_ | r, peer⟩ <;> exact .of_sent rfl hsent (.of_eq rfl)
  · exact .refl s

theorem spares_close : Call.Within Spares close := fun s =>
  (spares_closeChannel s).trans (spares_closeConnection s.closeChannel)

/-! ## What is resolved, and what is handed out -/

theorem resolve_down {tag : Nat} {how : Resolution} {reason : String}
    (h : s.channel = .down reason) :
    s.resolve tag how = (.error (.acknowledgementFailed tag reason), s) := by
  simp only [resolve, h]

theorem resolve_up (d : Broker.Delivery) (how : Resolution) (h : s.channel = .up) :
    s.resolve d.tag how = (.ok (), (s.send (resolving d how)).2) := by
  simp only [resolve, h, Call.adapt_apply, tell, Line.isUp, if_true, resolution_eq_resolving,
    Except.mapError]

theorem drains_resolve (d : Broker.Delivery) (how : Resolution) (s : Session) :
    s.Drains (s.resolve d.tag how).2 := by
  cases h : s.channel with
  | up =>
    rw [resolve_up d how h]
    exact drains_send _ s
  | down reason =>
    rw [resolve_down h]
    exact .refl s

def itemPolled : Except BrokerError Broker.Delivery → Broker.Polled
  | .ok d => .delivery d
  | .error e => .fault e

theorem next_cons {others : List Consumer} {c : Consumer}
    {item : Except BrokerError Broker.Delivery} {waiting : List (Except BrokerError Broker.Delivery)}
    (hs : s.consumers = others ++ [c]) (hc : c.waiting = item :: waiting) :
    s.next = (itemPolled item, { s with consumers := others ++ [{ c with waiting }] }) := by
  have hlast : s.consumers.length - 1 = others.length := by simp [hs]
  have hget : s.consumers[others.length]? = some c := by simp [hs]
  have hset : s.consumers.set others.length { c with waiting } = others ++ [{ c with waiting }] := by
    simp [hs]
  simp only [next, hlast, hget, hc, hset]
  cases item <;> rfl

theorem next_nil {others : List Consumer} {c : Consumer} (hs : s.consumers = others ++ [c])
    (hc : c.waiting = []) : s.next = (if c.isOver then .ended else .pending, s) := by
  have hget : s.consumers[s.consumers.length - 1]? = some c := by simp [hs]
  simp only [next, hget, hc]

theorem next_spares (s : Session) :
    s.Spares s.next.2 ∧ ∀ d, s.next.1 = .delivery d → s.Waits d := by
  rcases List.eq_nil_or_concat s.consumers with hs | ⟨others, c, hs⟩
  · have hnext : s.next = (.ended, s) := by simp [next, hs]
    rw [hnext]
    exact ⟨.refl s, nofun⟩
  · rw [List.concat_eq_append] at hs
    cases hc : c.waiting with
    | nil =>
      rw [next_nil hs hc]
      refine ⟨.refl s, fun d hd => ?_⟩
      dsimp only at hd
      split at hd <;> cases hd
    | cons item waiting =>
      rw [next_cons hs hc]
      have hwaits : ∀ d, .ok d ∈ c.waiting → s.Waits d := fun d hd => ⟨c, by simp [hs], hd⟩
      refine ⟨.of_peer rfl ?_, fun d hd => hwaits d ?_⟩
      · rintro d ⟨c', hc', hd⟩
        rcases List.mem_append.mp hc' with hc' | hc'
        · exact ⟨c', by simp [hs, hc'], hd⟩
        · obtain rfl := List.mem_singleton.mp hc'
          exact hwaits d (hc ▸ List.mem_cons_of_mem _ hd)
      · cases item with
        | error e => cases hd
        | ok d' =>
          cases hd
          exact hc ▸ List.mem_cons_self

theorem waits_receive {consumer : String} {x : Incoming} {d : Broker.Delivery}
    (h : (s.receive consumer x).Waits d) : s.Waits d ∨ d = x.delivery := by
  obtain ⟨c', hc', hd⟩ := h
  obtain ⟨c, hc, rfl⟩ := List.mem_map.mp hc'
  unfold Consumer.push at hd
  split at hd
  · split at hd
    · exact .inl ⟨c, hc, hd⟩
    · rcases List.mem_append.mp hd with hd | hd
      · exact .inl ⟨c, hc, hd⟩
      · exact .inr (by simpa using hd)
  · exact .inl ⟨c, hc, hd⟩

/-! ## Polls in a row -/

def yields : Nat → Session → List Broker.Polled
  | 0, _ => []
  | n + 1, s => s.next.1 :: yields n s.next.2

theorem yields_waiting {others : List Consumer} {c : Consumer}
    (hs : s.consumers = others ++ [c]) :
    s.yields c.waiting.length = c.waiting.map itemPolled := by
  generalize hw : c.waiting = items
  induction items generalizing s c with
  | nil => rfl
  | cons item waiting ih =>
    rw [List.length_cons, List.map_cons, yields, next_cons hs hw]
    exact congrArg (itemPolled item :: ·) (ih rfl rfl)

theorem yields_receive {others : List Consumer} {c : Consumer} (x : Incoming)
    (hs : s.consumers = others ++ [c]) (ho : c.isOver = false) :
    (s.receive c.tag x).yields (c.waiting.length + 1) =
      c.waiting.map itemPolled ++ [.delivery x.delivery] := by
  have hpush : (s.receive c.tag x).consumers =
      others.map (fun o => if o.tag = c.tag then o.push (.ok x.delivery) else o) ++
        [{ c with waiting := c.waiting ++ [.ok x.delivery] }] := by
    simp [receive, deliver, hs, Consumer.push, ho]
  simpa [itemPolled] using yields_waiting hpush

/-! ## What goes on beside -/

/-- What goes on beside the deliveries: other calls, and what the peer does by itself. -/
inductive Incident
  | declareExchange (x : ExchangeDeclaration)
  | declareQueue (q : QueueDeclaration)
  | setQos (qos : Qos)
  | bindQueue (queue exchange key : String)
  | publish (exchange : String) (m : Message)
  | consume (queue tag : String)
  | close
  | cancel (consumer : String)
  | channelClosed (reason : String)
  | connectionClosed (reason : String)
  | refuse (r : Refusal)

def incur (s : Session) : Incident → Session
  | .declareExchange x => (calls.declareExchange x s).2
  | .declareQueue q => (calls.declareQueue q s).2
  | .setQos qos => (calls.setQos qos s).2
  | .bindQueue queue exchange key => (calls.bindQueue queue exchange key s).2
  | .publish exchange m => (calls.publish exchange m s).2
  | .consume queue tag => (Session.consume queue tag s).2
  | .close => (Session.close s).2
  | .cancel consumer => s.cancel consumer
  | .channelClosed reason => s.channelClosed reason
  | .connectionClosed reason => s.connectionClosed reason
  | .refuse r => { s with peer := { s.peer with refusals := s.peer.refusals ++ [r] } }

theorem spares_incur (s : Session) (e : Incident) : s.Spares (s.incur e) := by
  cases e with
  | declareExchange | declareQueue | setQos | bindQueue => exact (spares_ask rfl).adapt _ s
  | publish => exact (spares_tell rfl).adapt _ s
  | consume queue tag => exact spares_consume queue tag s
  | close => exact spares_close s
  | cancel consumer =>
    refine .of_peer rfl (.of_map rfl fun c d hd => ?_)
    split at hd <;> exact hd
  | channelClosed reason =>
    exact .of_peer (by simp [incur]) (drains_channelClosed reason s)
  | connectionClosed reason =>
    refine .of_peer ?_ (Drains.trans (drains_channelClosed reason s) (.of_eq rfl))
    exact congrArg Peer.received (channelClosed_peer reason s)
  | refuse => exact .of_peer rfl (.of_eq rfl)

end Session
end CargoEvents.Amqp
