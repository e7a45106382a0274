import CargoEvents.Proofs.Bus.Moments
import Mathlib.Data.List.Induction

/-! # One resolution for each delivery

A session numbers its deliveries, so bus and tag name a delivery for good, and what is told
of both is the story of one delivery. It begins with the pull, goes on as the position of the
dispatcher that has the delivery in hand, and ends with the call that resolves it. Only then
does the dispatcher pull again.
-/
namespace CargoEvents

def SessionCall.resolved? : SessionCall → Option Nat
  | ack tag | nack tag _ => some tag
  | _ => none

def Entry.about? {H : Type} (i tag : Nat) (e : Entry H) : Option (Entry H) :=
  match e with
  | .pulled j _ d | .entered j _ d .. | .left j _ d _ | .panicked j _ d =>
    if i = j ∧ tag = d.tag then some e else none
  | .called j c _ => if i = j ∧ some tag = c.resolved? then some e else none
  | _ => none

namespace Network
variable {H : Type} {s t : Network H} {i k : Nat} {bus : Bus H}
open Broker (Action Polled Stream)

theorem ofDeliveries_about (i tag : Nat) : OfDeliveries (Entry.about? (H := H) i tag) := by
  constructor
  · intro j o
    rfl
  · intro r
    rfl
  · intro j c refusal hc
    cases c with
    | ack | nack => simp [SessionCall.resolves] at hc
    | _ => simp [Entry.about?, SessionCall.resolved?]
  · intro j e he
    rfl

/-- What became of the delivery that bus `i` got under `tag`, in the order of time. -/
def story (s : Network H) (i tag : Nat) : List (Entry H) := s.told (Entry.about? i tag)

/-- The story of a delivery that a dispatcher has in hand, at each position. -/
inductive Begun (registry : Registry H) (i k : Nat) (d : Broker.Delivery) :
    Position H → List (Entry H) → Prop
  | handling {r : Registration H} {e : Event} (hget : registry.get? d.kind = some r)
      (he : r.decode d.body = .ok e) :
      Begun registry i k d (.handling d r e) [.pulled i k d, .entered i k d r e]
  | acknowledging {r : Registration H} {e : Event} (hget : registry.get? d.kind = some r)
      (he : r.decode d.body = .ok e) :
      Begun registry i k d (.acknowledging d)
        [.pulled i k d, .entered i k d r e, .left i k d (.ok ())]
  | unroutable (hget : registry.get? d.kind = none) :
      Begun registry i k d (.pausing d .unroutable) [.pulled i k d]
  | undecodable {r : Registration H} {error : CodecError}
      (hget : registry.get? d.kind = some r) (he : r.decode d.body = .error error) :
      Begun registry i k d (.pausing d (.undecodable error)) [.pulled i k d]
  | failed {r : Registration H} {e : Event} {error : HandlerError}
      (hget : registry.get? d.kind = some r) (he : r.decode d.body = .ok e) :
      Begun registry i k d (.pausing d (.failed r.routingKey error))
        [.pulled i k d, .entered i k d r e, .left i k d (.error error)]

inductive Settled (registry : Registry H) (i k : Nat) (d : Broker.Delivery) : List (Entry H) → Prop
  | accepted {begun : List (Entry H)} (h : Begun registry i k d (.acknowledging d) begun)
      (refusal : Option BrokerError) :
      Settled registry i k d (begun ++ [.called i (.ack d.tag) refusal])
  | returned {v : Verdict} {begun : List (Entry H)}
      (h : Begun registry i k d (.pausing d v) begun) (refusal : Option BrokerError) :
      Settled registry i k d (begun ++ [.called i (.nack d.tag true) refusal])

/-- What a dispatcher that got `d` has made of it: it has `d` in hand, or has resolved it and
pulls, or has ended. -/
inductive Stands (registry : Registry H) (i k : Nat) (d : Broker.Delivery)
    (told : List (Entry H)) : Position H → Prop
  | inHand {p : Position H} (hd : p.delivery? = some d) (h : Begun registry i k d p told) :
      Stands registry i k d told p
  | settled (h : Settled registry i k d told) : Stands registry i k d told .pulling
  | ended : Stands registry i k d told .ended

variable {registry : Registry H} {d d' : Broker.Delivery} {p p' : Position H}
  {told : List (Entry H)}

theorem Begun.head (h : Begun registry i k d p told) : told.head? = some (.pulled i k d) := by
  cases h <;> rfl

theorem Begun.pulled_mem (h : Begun registry i k d p told) {j l : Nat}
    (hmem : .pulled j l d' ∈ told) : l = k ∧ d' = d := by
  cases h <;> simp at hmem <;> exact hmem.2

theorem accept_begun (registry : Registry H) (i k : Nat) (d : Broker.Delivery) :
    Begun registry i k d (registry.accept d).1
      (.pulled i k d :: entering i k (registry.accept d).1) := by
  unfold Registry.accept
  cases hget : registry.get? d.kind with
  | none => exact .unroutable hget
  | some r =>
    cases he : r.decode d.body with
    | error error =>
      simp only [he]
      exact .undecodable hget he
    | ok e =>
      simp only [he]
      exact .handling hget he

/-! ## What a move tells -/

/-- Entries that are all about one delivery are in its story and in no other. -/
theorem filterMap_about {i tag : Nat} {es : List (Entry H)}
    (hes : ∀ e ∈ es, ∀ j n, e.about? j n = if j = i ∧ n = tag then some e else none) (j n : Nat) :
    es.filterMap (Entry.about? j n) = if j = i ∧ n = tag then es else [] := by
  have hown : es.filterMap (Entry.about? j n) =
      es.filterMap fun e => if j = i ∧ n = tag then some e else none :=
    List.filterMap_congr fun e he => hes e he j n
  rw [hown]
  split <;> simp

theorem refused_about (bus : Bus H) (i : Nat) (refusal : Option BrokerError) (j n : Nat) :
    (resolving.refused bus i refusal).filterMap (Entry.about? j n) = [] := by
  unfold resolving.refused
  split
  · rfl
  · simp [Entry.about?]

/-- What a move of a dispatcher with `d` in hand tells of `d`, and where `d` is then. -/
theorem Move.tells {b b' : Broker} {st st' : Stream} {a : Act H} {es : List (Entry H)}
    (h : Move b bus i k st p a b' st' p' es) (hp : p.delivery? = some d)
    (refusal : Option BrokerError) : ∃ news : List (Entry H),
      (∀ j n, (es ++ resolving bus i refusal p).filterMap (Entry.about? j n) =
        if j = i ∧ n = d.tag then news else []) ∧
      (∀ l d₀, .pulled i l d₀ ∉ news) ∧
      ∀ registry told, Begun registry i k d p told →
        Stands registry i k d (told ++ news) p' := by
  have hcalled (c : SessionCall) (hc : c.resolved? = some d.tag) (j n : Nat) :
      (.called i c refusal :: resolving.refused bus i refusal).filterMap (Entry.about? j n) =
        if j = i ∧ n = d.tag then [.called i c refusal] else [] := by
    rw [List.filterMap_cons, refused_about, Entry.about?, hc]
    split <;> simp_all
  cases h with
  | stopped | looked => cases hp
  | completed d r e result =>
    obtain rfl := Option.some.inj hp
    refine ⟨[.left i k d result], ?_, by simp, fun registry told hbegun => ?_⟩
    · exact filterMap_about fun e he j n => List.mem_singleton.mp he ▸ rfl
    · refine .inHand (afterRun_delivery? ..) ?_
      cases hbegun with
      | handling hget he =>
        cases result with
        | ok u => exact .acknowledging hget he
        | error error => exact .failed hget he
  | panicked d r e =>
    obtain rfl := Option.some.inj hp
    refine ⟨[.panicked i k d], ?_, by simp, fun _ _ _ => .ended⟩
    exact filterMap_about fun e he j n => List.mem_singleton.mp he ▸ rfl
  | acknowledged | unacknowledged =>
    obtain rfl := Option.some.inj hp
    refine ⟨[.called i (.ack _) refusal], hcalled (.ack _) rfl, by simp, ?_⟩
    intro registry told hbegun
    exact .settled (.accepted hbegun refusal)
  | resumed | unresumed =>
    obtain rfl := Option.some.inj hp
    refine ⟨[.called i (.nack _ true) refusal], hcalled (.nack _ true) rfl, by simp, ?_⟩
    intro registry told hbegun
    exact .settled (.returned hbegun refusal)

/-- A dispatcher without a delivery in hand has none after its move, or has pulled one under
the next tag. -/
theorem Move.pulls {b b' : Broker} {st st' : Stream} {a : Act H} {es : List (Entry H)}
    (h : Move b bus i k st .pulling a b' st' p' es) :
    p'.delivery? = none ∧ es = [] ∨ ∃ (d : Broker.Delivery) (x y : Broker.Session),
      a = .pull i k ∧ bus.shutdown = false ∧ (b.poll st).1 = .delivery d ∧
      b.sessions[st.session]? = some x ∧ b'.sessions[st.session]? = some y ∧
      d.tag = x.lastTag + 1 ∧ y.lastTag = d.tag ∧ p'.delivery? = some d ∧
      Begun bus.registry i k d p' es ∧
      ∀ e ∈ es, ∀ j n, e.about? j n = if j = i ∧ n = d.tag then some e else none := by
  cases h with
  | stopped => exact .inl ⟨rfl, rfl⟩
  | @looked polled _ _ hs hy =>
    have hyield := hy ▸ b.poll_yield st
    cases hyield with
    | waiting | nothing | ended | fault => exact .inl ⟨rfl, rfl⟩
    | @delivery x copy rest hsession ho hx hr =>
      refine .inr ⟨_, x, { x with
        lastTag := x.lastTag + 1
        unacked := x.unacked ++ [{ tag := x.lastTag + 1, queue := st.queue, copy }] }, rfl, hs,
        congrArg (·.1) hy, hsession, ?_, rfl, rfl, accept_delivery? .., accept_begun .., ?_⟩
      · simp [Broker.handOut, hsession]
      · simp only [received]
        refine List.forall_mem_cons.mpr ⟨fun _ _ => rfl, fun e he => ?_⟩
        cases hp : (bus.registry.accept (copy.delivery (x.lastTag + 1))).1 with
        | handling d r event =>
          obtain ⟨rfl, -⟩ := accept_eq_handling hp
          rw [hp] at he
          obtain rfl := List.mem_singleton.mp he
          exact fun _ _ => rfl
        | pulling | acknowledging | pausing | ended => simp [hp, entering] at he

/-! ## Stories along a run -/

/-- Bus `i` has not yet got a delivery under `tag`. -/
def Unused (s : Network H) (i tag : Nat) : Prop :=
  ∀ bus x, s.buses[i]? = some bus → s.broker.sessions[bus.session]? = some x → x.lastTag < tag

theorem Unused.of_perform {a : Act H} {tag : Nat} (h : (s.perform a).Unused i tag) :
    s.Unused i tag := by
  intro bus x hb hx
  obtain ⟨bus', hb', helder⟩ := s.elder_perform a hb
  obtain ⟨actions, hbroker⟩ := s.perform_broker a
  obtain ⟨y, hy, hlater⟩ := s.broker.run_later actions bus.session x hx
  have hlt : y.lastTag < tag := h bus' y hb' (by rw [helder.session, hbroker]; exact hy)
  exact Nat.lt_of_le_of_lt hlater.lastTag_le hlt

/-- The stories of all deliveries after a run. -/
structure Traced (acts : List (Act H)) (s : Network H) : Prop where
  fresh : ∀ i tag, s.Unused i tag → s.story i tag = []
  hand : ∀ i k p d, s.position? i k = some p → p.delivery? = some d →
    ∃ registry, Took acts i k d registry ∧ Begun registry i k d p (s.story i d.tag)
  past : ∀ i k d, .pulled i k d ∈ s.story i d.tag → ∃ registry, Took acts i k d registry ∧
    (Settled registry i k d (s.story i d.tag) ∨
      ∃ p, s.position? i k = some p ∧ (p.delivery? = some d ∨ p = .ended))

theorem traced_empty : Traced [] ({} : Network H) := by
  constructor
  · intro i tag _
    rfl
  · intro i k p d hp
    simp [position?, dispatcher?] at hp
  · intro i k d hmem
    simp [story, Network.told] at hmem

variable {acts : List (Act H)} {a : Act H}

theorem Traced.untold (h : Traced acts s)
    (hstory : ∀ j n, (s.perform a).story j n = s.story j n)
    (hnew : ∀ j l p, (s.perform a).position? j l = some p →
      s.position? j l = some p ∨ p.delivery? = none)
    (hold : ∀ j l p, s.position? j l = some p → p ≠ .pulling →
      (s.perform a).position? j l = some p) : Traced (acts ++ [a]) (s.perform a) := by
  constructor
  · intro j n hunused
    rw [hstory]
    exact h.fresh j n hunused.of_perform
  · intro j l p d hp hd
    rcases hnew j l p hp with hp | hnone
    · obtain ⟨registry, htook, hbegun⟩ := h.hand j l p d hp hd
      exact ⟨registry, htook.later [a], hstory j d.tag ▸ hbegun⟩
    · rw [hd] at hnone
      cases hnone
  · intro j l d hmem
    rw [hstory] at hmem ⊢
    obtain ⟨registry, htook, hend⟩ := h.past j l d hmem
    refine ⟨registry, htook.later [a], hend.imp_right ?_⟩
    rintro ⟨p, hp, hat⟩
    refine ⟨p, hold j l p hp ?_, hat⟩
    rintro rfl
    rcases hat with hd | hp
    · cases hd
    · cases hp

/-- From `s` to `t` dispatcher `k` of bus `i` came to `p'`, and `news` was told of what the bus
got under `tag`. -/
structure Advanced (s t : Network H) (i k tag : Nat) (news : List (Entry H)) (p' : Position H) :
    Prop where
  story : ∀ j n, t.story j n = s.story j n ++ if j = i ∧ n = tag then news else []
  position : ∀ j l, t.position? j l = if j = i ∧ l = k then some p' else s.position? j l

section
variable {news : List (Entry H)} {j l tag : Nat}

theorem Advanced.own_story (h : Advanced s t i k tag news p') :
    t.story i tag = s.story i tag ++ news := by
  rw [h.story, if_pos ⟨rfl, rfl⟩]

theorem Advanced.other_story (h : Advanced s t i k tag news p') {n : Nat}
    (hne : ¬(j = i ∧ n = tag)) : t.story j n = s.story j n := by
  rw [h.story, if_neg hne, List.append_nil]

theorem Advanced.own_position (h : Advanced s t i k tag news p') : t.position? i k = some p' := by
  rw [h.position, if_pos ⟨rfl, rfl⟩]

theorem Advanced.other_position (h : Advanced s t i k tag news p') (hne : ¬(j = i ∧ l = k)) :
    t.position? j l = s.position? j l := by
  rw [h.position, if_neg hne]

theorem Traced.advanced (h : Traced acts s) (ha : Advanced s (s.perform a) i k d.tag news p')
    (hp : s.position? i k = some p) (hbefore : p = .pulling ∨ p.delivery? = some d)
    (hused : ¬(s.perform a).Unused i d.tag)
    (halone : ∀ l q d₀, s.position? i l = some q → q.delivery? = some d₀ → d₀.tag = d.tag → l = k)
    (hpulls : ∀ l d₀, .pulled i l d₀ ∈ (s.perform a).story i d.tag → l = k ∧ d₀ = d)
    (htook : Took (acts ++ [a]) i k d registry)
    (hstands : Stands registry i k d ((s.perform a).story i d.tag) p') :
    Traced (acts ++ [a]) (s.perform a) := by
  constructor
  · intro j n hunused
    rw [ha.other_story]
    · exact h.fresh j n hunused.of_perform
    · rintro ⟨rfl, rfl⟩
      exact hused hunused
  · intro j l q d₀ hq hd₀
    by_cases hjl : j = i ∧ l = k
    · obtain ⟨rfl, rfl⟩ := hjl
      obtain rfl : p' = q := Option.some.inj (ha.own_position.symm.trans hq)
      cases hstands with
      | settled | ended => cases hd₀
      | inHand hd hbegun =>
        obtain rfl : d = d₀ := Option.some.inj (hd.symm.trans hd₀)
        exact ⟨registry, htook, hbegun⟩
    · rw [ha.other_position hjl] at hq
      obtain ⟨registry₀, htook₀, hbegun₀⟩ := h.hand j l q d₀ hq hd₀
      refine ⟨registry₀, htook₀.later [a], ?_⟩
      rw [ha.other_story]
      · exact hbegun₀
      · rintro ⟨rfl, htag⟩
        exact hjl ⟨rfl, halone l q d₀ hq hd₀ htag⟩
  · intro j l d₀ hmem
    by_cases hji : j = i ∧ d₀.tag = d.tag
    · obtain ⟨rfl, htag⟩ := hji
      rw [htag] at hmem
      obtain ⟨rfl, rfl⟩ := hpulls l d₀ hmem
      refine ⟨registry, htook, ?_⟩
      cases hstands with
      | inHand hd _ => exact .inr ⟨p', ha.own_position, .inl hd⟩
      | settled hsettled => exact .inl hsettled
      | ended => exact .inr ⟨.ended, ha.own_position, .inr rfl⟩
    · rw [ha.other_story hji] at hmem ⊢
      obtain ⟨registry₀, htook₀, hend⟩ := h.past j l d₀ hmem
      refine ⟨registry₀, htook₀.later [a], hend.imp_right ?_⟩
      rintro ⟨q, hq, hat⟩
      refine ⟨q, ?_, hat⟩
      rw [ha.other_position, hq]
      -- What this dispatcher had before it moved was `d`, if anything.
      rintro ⟨rfl, rfl⟩
      obtain rfl : q = p := Option.some.inj (hq.symm.trans hp)
      rcases hat with hd₀ | rfl
      · rcases hbefore with rfl | hd
        · cases hd₀
        · obtain rfl : d = d₀ := Option.some.inj (hd.symm.trans hd₀)
          exact hji ⟨rfl, rfl⟩
      · rcases hbefore with hp | hd
        · cases hp
        · cases hd

theorem Traced.worked (h : Traced acts s) (ha : Advanced s (s.perform a) i k d.tag news p')
    (hp : s.position? i k = some p) (hd : p.delivery? = some d)
    (hpulled : ∀ l d₀, .pulled i l d₀ ∉ news)
    (hstands : ∀ registry told, Begun registry i k d p told →
      Stands registry i k d (told ++ news) p') : Traced (acts ++ [a]) (s.perform a) := by
  obtain ⟨registry, htook, hbegun⟩ := h.hand i k p d hp hd
  refine h.advanced ha hp (.inr hd) (fun hunused => ?_) (fun l q d₀ hq hd₀ htag => ?_)
    (fun l d₀ hmem => ?_) (htook.later [a]) (ha.own_story ▸ hstands registry _ hbegun)
  · have hhead := hbegun.head
    rw [h.fresh i d.tag hunused.of_perform] at hhead
    cases hhead
  · -- Two dispatchers never have one delivery in hand: its story begins with one pull.
    obtain ⟨_, -, hbegun₀⟩ := h.hand i l q d₀ hq hd₀
    have hhead := hbegun₀.head
    rw [htag, hbegun.head] at hhead
    cases hhead
    rfl
  · rw [ha.own_story] at hmem
    exact hbegun.pulled_mem ((List.mem_append.mp hmem).resolve_right (hpulled l d₀))

theorem Traced.pulled (h : Traced acts s) (ha : Advanced s (s.perform a) i k d.tag news p')
    (hp : s.position? i k = some .pulling) (hfresh : s.Unused i d.tag)
    (hused : ¬(s.perform a).Unused i d.tag) (htook : Took (acts ++ [a]) i k d registry)
    (hd : p'.delivery? = some d) (hbegun : Begun registry i k d p' news) :
    Traced (acts ++ [a]) (s.perform a) := by
  have hnil := h.fresh i d.tag hfresh
  have hown : (s.perform a).story i d.tag = news := by rw [ha.own_story, hnil, List.nil_append]
  refine h.advanced ha hp (.inl rfl) hused (fun l q d₀ hq hd₀ htag => ?_) (fun l d₀ hmem => ?_)
    htook (hown.symm ▸ .inHand hd hbegun)
  · obtain ⟨_, -, hbegun₀⟩ := h.hand i l q d₀ hq hd₀
    have hhead := hbegun₀.head
    rw [htag, hnil] at hhead
    cases hhead
  · rw [hown] at hmem
    exact hbegun.pulled_mem hmem

end

theorem Traced.looked (h : Traced acts (run {} acts)) {st st' : Stream} {b' : Broker}
    {es : List (Entry H)}
    (hd : (run {} acts).dispatcher? i k = some (bus, { stream := st, position := .pulling }))
    (hm : Move (run {} acts).broker bus i k st .pulling a b' st' p' es)
    (hbroker : ((run {} acts).perform a).broker = b')
    (hstory : ∀ j n, ((run {} acts).perform a).story j n =
      (run {} acts).story j n ++ es.filterMap (Entry.about? j n))
    (hposition : ∀ j l, ((run {} acts).perform a).position? j l =
      if j = i ∧ l = k then some p' else (run {} acts).position? j l) :
    Traced (acts ++ [a]) ((run {} acts).perform a) := by
  have hp := position?_of_dispatcher hd
  rcases hm.pulls with ⟨hnone, rfl⟩ |
    ⟨d, x, y, rfl, hruns, hpoll, hx, hy, htag, htag', hd', hbegun, habout⟩
  · refine h.untold (fun j n => ?_) (fun j l q hq => ?_) fun j l q hq hne => ?_
    · rw [hstory]
      exact List.append_nil _
    · rw [hposition] at hq
      split at hq
      · cases hq
        exact .inr hnone
      · exact .inl hq
    · rw [hposition, if_neg, hq]
      rintro ⟨rfl, rfl⟩
      rw [hp] at hq
      exact hne (Option.some.inj hq).symm
  · have hb := dispatcher?_bus hd
    have hreached : Reached (run {} acts) := reached_empty.run acts
    have hsession : st.session = bus.session := (hreached.sound.dispatchers i k bus _ hd).session
    have ha : Advanced (run {} acts) ((run {} acts).perform (.pull i k)) i k d.tag es p' :=
      ⟨fun j n => by rw [hstory, filterMap_about habout], hposition⟩
    refine h.pulled ha hp ?_ ?_ ⟨acts, [], rfl, bus, st, hd, hruns, hpoll, rfl⟩ hd' hbegun
    · intro bus₀ x₀ hb₀ hx₀
      obtain rfl : bus₀ = bus := Option.some.inj (hb₀.symm.trans hb)
      obtain rfl : x₀ = x := Option.some.inj (hx₀.symm.trans (hsession ▸ hx))
      omega
    · intro hunused
      obtain ⟨bus', hb', helder⟩ := (run {} acts).elder_perform (.pull i k) hb
      have hlt : y.lastTag < d.tag := by
        refine hunused bus' y hb' ?_
        rw [helder.session, hbroker, ← hsession]
        exact hy
      omega

theorem Traced.perform (h : Traced acts (run {} acts)) (a : Act H) :
    Traced (acts ++ [a]) ((run {} acts).perform a) := by
  cases (run {} acts).perform_shift a with
  | still _ hposition htold =>
    refine h.untold (fun j n => htold (ofDeliveries_about j n)) (fun j l p hp => .inl ?_)
      fun j l p hp _ => ?_
    · rw [← hposition, hp]
    · rw [hposition, hp]
  | @started i k _ hnone hposition htold =>
    refine h.untold (fun j n => htold (ofDeliveries_about j n)) (fun j l p hp => ?_)
      fun j l p hp _ => ?_
    · rw [hposition] at hp
      split at hp
      · cases hp
        exact .inr rfl
      · exact .inl hp
    · rw [hposition, if_neg, hp]
      rintro ⟨rfl, rfl⟩
      rw [hnone] at hp
      cases hp
  | @moved i k bus st st' p p' b' es hd hm hbroker hposition htold =>
    obtain ⟨refusal, htold⟩ := htold
    have hstory (j n : Nat) : ((run {} acts).perform a).story j n = (run {} acts).story j n ++
        (es ++ resolving bus i refusal p).filterMap (Entry.about? j n) :=
      htold (ofDeliveries_about j n)
    cases hdelivery : p.delivery? with
    | some d =>
      obtain ⟨news, hnews, hpulled, hstands⟩ := hm.tells hdelivery refusal
      exact h.worked ⟨fun j n => (hstory j n).trans (by rw [hnews]), hposition⟩
        (position?_of_dispatcher hd) hdelivery hpulled hstands
    | none =>
      cases p with
      | pulling =>
        refine h.looked hd hm hbroker (fun j n => ?_) hposition
        rw [hstory, resolving, List.append_nil]
      | ended => cases hm
      | handling | acknowledging | pausing => cases hdelivery

theorem traced_run (acts : List (Act H)) : Traced acts (run {} acts) := by
  induction acts using List.reverseRecOn with
  | nil => exact traced_empty
  | append_singleton acts a ih =>
    have hlast : run {} (acts ++ [a]) = (run {} acts).perform a := run_append ..
    rw [hlast]
    exact ih.perform a

/-! ## Resolutions -/

end Network

def Entry.resolution? {H : Type} (i tag : Nat) : Entry H → Option SessionCall
  | .called j c _ => if i = j ∧ some tag = c.resolved? then some c else none
  | _ => none

namespace Network
variable {H : Type} {s : Network H} {i k : Nat} {registry : Registry H} {d : Broker.Delivery}
  {p : Position H} {told : List (Entry H)}

/-- The calls that resolved what bus `i` got under `tag`, whether refused or not. -/
def resolutions (s : Network H) (i tag : Nat) : List SessionCall :=
  s.told (Entry.resolution? i tag)

theorem resolutions_eq (s : Network H) (i tag : Nat) :
    s.resolutions i tag = (s.story i tag).filterMap (Entry.resolution? i tag) := by
  unfold resolutions story Network.told
  rw [List.filterMap_filterMap]
  refine List.filterMap_congr fun e _ => ?_
  cases e with
  | called j c refusal =>
    by_cases hc : i = j ∧ some tag = c.resolved?
    · simp [Entry.about?, Entry.resolution?, hc]
    · simp [Entry.about?, Entry.resolution?, hc]
  | pulled | entered | left | panicked =>
    simp only [Entry.about?]
    split <;> rfl
  | observed | reported | logged => rfl

theorem Begun.unresolved (h : Begun registry i k d p told) (tag : Nat) :
    told.filterMap (Entry.resolution? i tag) = [] := by
  cases h <;> rfl

theorem Begun.resolved (h : Begun registry i k d p told) {c : SessionCall}
    (hc : c.resolved? = some d.tag) (refusal : Option BrokerError) :
    (told ++ [Entry.called i c refusal]).filterMap (Entry.resolution? i d.tag) = [c] := by
  rw [List.filterMap_append, h.unresolved]
  simp [Entry.resolution?, hc]

theorem mem_story {e : Entry H} {tag : Nat} (he : e.about? i tag = some e) :
    e ∈ s.story i tag ↔ e ∈ s.history := by
  constructor
  · intro hmem
    obtain ⟨x, hx, hxe⟩ := mem_told.mp hmem
    have hx' : x = e := by
      cases x with
      | pulled | entered | left | panicked | called =>
        simp only [Entry.about?] at hxe
        split at hxe
        · exact Option.some.inj hxe
        · cases hxe
      | observed | reported | logged => cases hxe
    exact hx' ▸ hx
  · intro hmem
    exact mem_told.mpr ⟨e, hmem, he⟩

/-- A handler was found, the body decoded, and the handler has returned without an error. -/
def Accepted (s : Network H) (registry : Registry H) (i k : Nat) (d : Broker.Delivery) : Prop :=
  ∃ r e, registry.get? d.kind = some r ∧ r.decode d.body = .ok e ∧
    .left i k d (.ok ()) ∈ s.history

/-- A story that is over has one resolution, and says which. -/
theorem Settled.resolutions (h : Settled registry i k d (s.story i d.tag)) :
    s.resolutions i d.tag = [.ack d.tag] ∧ s.Accepted registry i k d ∨
      s.resolutions i d.tag = [.nack d.tag true] ∧ ¬s.Accepted registry i k d := by
  have hleft : .left i k d (.ok ()) ∈ s.story i d.tag ↔ .left i k d (.ok ()) ∈ s.history :=
    mem_story (by simp [Entry.about?])
  rw [resolutions_eq, Accepted]
  generalize s.story i d.tag = told at h hleft
  simp only [← hleft]
  cases h with
  | accepted hbegun refusal =>
    refine .inl ⟨hbegun.resolved rfl refusal, ?_⟩
    cases hbegun with
    | acknowledging hget he => exact ⟨_, _, hget, he, by simp⟩
  | returned hbegun refusal =>
    refine .inr ⟨hbegun.resolved rfl refusal, ?_⟩
    rintro ⟨r, e, -, -, hmem⟩
    cases hbegun <;> simp at hmem

/-- One resolution, before the next pull. In any run, whatever handlers are registered and do,
whatever fails and whenever buses close: a dispatcher that pulls has resolved each delivery it
pulled before, with one call. It accepted those that had a handler when they were pulled, that
decoded, and whose handler returned without an error, and gave back all others to their queue.
No delivery is ever refused for good. -/
theorem resolved_once_before_next_pull (acts : List (Act H)) :
    let s := run {} acts
    (∀ i k d, s.position? i k = some .pulling → .pulled i k d ∈ s.history →
      ∃ registry, Took acts i k d registry ∧
        (s.resolutions i d.tag = [.ack d.tag] ∧ s.Accepted registry i k d ∨
          s.resolutions i d.tag = [.nack d.tag true] ∧ ¬s.Accepted registry i k d)) ∧
    ∀ i tag requeue refusal, .called i (.nack tag requeue) refusal ∈ s.history →
      requeue = true := by
  intro s
  constructor
  · intro i k d hpulling hpulled
    have hmem : .pulled i k d ∈ s.story i d.tag := (mem_story (by simp [Entry.about?])).mpr hpulled
    obtain ⟨registry, htook, hend⟩ := (traced_run acts).past i k d hmem
    refine ⟨registry, htook, Settled.resolutions (hend.resolve_right ?_)⟩
    -- A dispatcher that pulls has nothing in hand, and has not ended.
    rintro ⟨p, hp, hat⟩
    rw [hpulling] at hp
    cases hp
    rcases hat with hd | hended
    · cases hd
    · cases hended
  · intro i tag requeue refusal hmem
    exact nack_requeues hmem

/-- A handler fails once and then returns, which is acknowledged though the bus is told to
stop before. -/
theorem resolved_once_while_stopping :
    let acts : List (Act Unit) := [.build { service := "s" } .receiver [],
      .subscribe 0 .newCargoBooked (),
      .beside (.operate (.inject defaultExchange "NewCargoBooked" none [])), .start 0,
      .pull 0 0, .complete 0 0 (.error (.other "busy")), .resume 0 0, .pull 0 0,
      .complete 0 0 (.ok ()), .drop 0, .acknowledge 0 0]
    let s := run {} acts
    let d : Broker.Delivery :=
      { routingKey := "NewCargoBooked", typeTag := none, body := [], tag := 1, redelivered := false }
    let d' : Broker.Delivery := { d with tag := 2, redelivered := true }
    s.position? 0 0 = some .pulling ∧ .pulled 0 0 d ∈ s.history ∧ .pulled 0 0 d' ∈ s.history ∧
    (∃ registry, Took acts 0 0 d registry ∧ s.resolutions 0 1 = [.nack 1 true] ∧
      ¬s.Accepted registry 0 0 d) ∧
    ∃ registry, Took acts 0 0 d' registry ∧ s.resolutions 0 2 = [.ack 2] ∧
      s.Accepted registry 0 0 d' := by
  intro acts s d d'
  have hpulling : s.position? 0 0 = some .pulling := by decide +kernel
  have hfirst : (s.story 0 1)[0]? = some (.pulled 0 0 d) := by rfl
  have hsecond : (s.story 0 2)[0]? = some (.pulled 0 0 d') := by rfl
  have hd := (mem_story (by simp [Entry.about?, d])).mp (List.mem_of_getElem? hfirst)
  have hd' := (mem_story (by simp [Entry.about?, d'])).mp (List.mem_of_getElem? hsecond)
  have hnack : s.resolutions 0 1 = [.nack 1 true] := by decide +kernel
  have hack : s.resolutions 0 2 = [.ack 2] := by decide +kernel
  have hresolved := (resolved_once_before_next_pull acts).1 0 0
  refine ⟨hpulling, hd, hd', ?_, ?_⟩
  · obtain ⟨registry, htook, h⟩ := hresolved d hpulling hd
    refine ⟨registry, htook, h.resolve_left ?_⟩
    rintro ⟨h, -⟩
    cases hnack.symm.trans h
  · obtain ⟨registry, htook, h⟩ := hresolved d' hpulling hd'
    refine ⟨registry, htook, h.resolve_right ?_⟩
    rintro ⟨h, -⟩
    cases hack.symm.trans h

end Network
end CargoEvents
