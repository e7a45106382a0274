import CargoEvents.Proofs.Broker.Contents
import CargoEvents.Proofs.Bus.Moments
import CargoEvents.Proofs.Event.RoundTrip
import Mathlib.Data.List.Induction

/-! # No event reaches a handler of another kind

The handler that is entered is the one registered last for the delivery's kind when the
delivery was pulled, and it gets what the body decodes to as that kind. For an event that a bus
published this is the event itself: its copies carry its kind and what was written of it, up to
the handler that reads it.
-/
namespace CargoEvents

namespace Network
variable {H : Type} {s t : Network H} {i k : Nat} {bus : Bus H}
open Broker (Action Polled Stream)

/-! ## Registrations -/

/-- The registration that the act makes with bus `i`. -/
def Act.registers? (s : Network H) (i : Nat) : Act H → Option (Registration H)
  | .subscribe j kind handler =>
    if i = j ∧ (Network.subscribe j kind handler s).1.isOk then some { kind, handler } else none
  | _ => none

def registrations (s : Network H) (i : Nat) : List (Act H) → List (Registration H)
  | [] => []
  | a :: acts => (a.registers? s i).toList ++ registrations (s.perform a) i acts

def lastRegistered (acts : List (Act H)) (i : Nat) (key : String) : Option (Registration H) :=
  ((registrations {} i acts).filter (·.routingKey == key)).getLast?

theorem registrations_append (s : Network H) (i : Nat) (xs ys : List (Act H)) :
    registrations s i (xs ++ ys) = registrations s i xs ++ registrations (s.run xs) i ys := by
  induction xs generalizing s with
  | nil => rfl
  | cons a xs ih =>
    simp only [List.cons_append, registrations, ih, run_cons, List.append_assoc]

theorem subscribe_outcome (s : Network H) (i : Nat) (kind : EventKind) (handler : H) :
    ∃ t, s.Called t ∧ (subscribe i kind handler s = (.ok (), t.onBus i (withHandler kind handler)) ∨
      ∃ e, subscribe i kind handler s = (.error e, t)) := by
  unfold subscribe whileOpen
  split
  · exact ⟨s, .refl s, .inr ⟨_, rfl⟩⟩
  · rename_i bus hb
    split
    · exact ⟨s, .refl s, .inr ⟨_, rfl⟩⟩
    · have hcalled := bind_called i bus.config.topology kind.name s
      dsimp only
      rw [Call.bind_apply]
      generalize (calls i).bind bus.config.topology kind.name s = bound at hcalled ⊢
      obtain ⟨result, t⟩ := bound
      refine ⟨t, hcalled, ?_⟩
      cases result with
      | error e => exact .inr ⟨e, rfl⟩
      | ok u => exact .inl rfl

theorem Called.registry (h : s.Called t) {b' : Bus H} (hb' : t.buses[i]? = some b') :
    ∃ b, s.buses[i]? = some b ∧ b'.registry = b.registry := by
  obtain ⟨faults, hf, -⟩ := h.buses i
  rw [hb'] at hf
  obtain ⟨b, hb, rfl⟩ := Option.map_eq_some_iff.mp hf.symm
  exact ⟨b, hb, rfl⟩

theorem registers?_none (hb : s.buses[i]? = none) (a : Act H) : a.registers? s i = none := by
  cases a with
  | subscribe j kind handler =>
    refine if_neg ?_
    rintro ⟨rfl, hok⟩
    simp [Network.subscribe, whileOpen, hb, Except.isOk, Except.toBool] at hok
  | _ => rfl

/-- A registration replaces the one for its key, and nothing else registers a handler. -/
theorem registry_subscribe (s : Network H) (j : Nat) (kind : EventKind) (handler : H) {b' : Bus H}
    (hb' : (s.perform (.subscribe j kind handler)).buses[i]? = some b') :
    ∃ b, s.buses[i]? = some b ∧ ∀ key, b'.registry.get? key =
      (((Act.subscribe j kind handler).registers? s i).filter (·.routingKey == key)).or
        (b.registry.get? key) := by
  obtain ⟨t, hcalled, houtcome⟩ := s.subscribe_outcome j kind handler
  rw [Network.perform] at hb'
  rcases houtcome with houtcome | ⟨e, houtcome⟩
  · rw [houtcome, onBus, List.getElem?_modify] at hb'
    obtain ⟨b₁, hb₁, rfl⟩ := Option.map_eq_some_iff.mp hb'
    obtain ⟨b, hb, hr⟩ := hcalled.registry hb₁
    refine ⟨b, hb, fun key => ?_⟩
    by_cases hij : i = j
    · subst hij
      have hreg : (Act.subscribe i kind handler).registers? s i = some { kind, handler } :=
        if_pos ⟨rfl, by rw [houtcome]; rfl⟩
      rw [if_pos rfl, hreg, withHandler, Registry.get?_insert, hr]
      by_cases hkey : key = kind.name
      · simp [hkey, Registration.routingKey, Option.filter]
      · simp [hkey, Ne.symm hkey, Registration.routingKey, Option.filter]
    · have hreg : (Act.subscribe j kind handler).registers? s i = none :=
        if_neg fun h => hij h.1
      rw [if_neg (Ne.symm hij), hreg, hr]
      rfl
  · rw [houtcome] at hb'
    obtain ⟨b, hb, hr⟩ := hcalled.registry hb'
    have hreg : (Act.subscribe j kind handler).registers? s i = none := by
      refine if_neg fun h => ?_
      rw [houtcome] at h
      cases h.2
    refine ⟨b, hb, fun key => ?_⟩
    rw [hreg, hr]
    rfl

theorem registry_perform (s : Network H) (a : Act H) {b' : Bus H}
    (hb' : (s.perform a).buses[i]? = some b') :
    (∃ b, s.buses[i]? = some b ∧ ∀ key, b'.registry.get? key =
      ((a.registers? s i).filter (·.routingKey == key)).or (b.registry.get? key)) ∨
    s.buses[i]? = none ∧ b'.registry.byKey = ∅ := by
  by_cases ha : ∃ j kind handler, a = .subscribe j kind handler
  · obtain ⟨j, kind, handler, rfl⟩ := ha
    exact .inl (s.registry_subscribe j kind handler hb')
  · have hnone : a.registers? s i = none := by
      cases a with
      | subscribe j kind handler => exact absurd ⟨j, kind, handler, rfl⟩ ha
      | _ => rfl
    have hsame {b : Bus H} (hb : s.buses[i]? = some b) (hr : b'.registry = b.registry) :
        ∃ b, s.buses[i]? = some b ∧ ∀ key, b'.registry.get? key =
          ((a.registers? s i).filter (·.routingKey == key)).or (b.registry.get? key) := by
      refine ⟨b, hb, fun key => ?_⟩
      rw [hnone, hr]
      rfl
    generalize hs : s.perform a = s' at hb'
    have he : Effect s a s' := hs ▸ s.perform_effect a
    cases he with
    | quiet h =>
      rcases h.buses i b' hb' with ⟨b, hb, halike⟩ | ⟨hnew, hempty, -⟩
      · exact .inl (hsame hb halike.registry)
      · exact .inr ⟨List.getElem?_eq_none_iff.mpr hnew, hempty⟩
    | subscribed => exact absurd ⟨_, _, _, rfl⟩ ha
    | started h =>
      rw [onBus, List.getElem?_modify] at hb'
      obtain ⟨b₁, hb₁, rfl⟩ := Option.map_eq_some_iff.mp hb'
      obtain ⟨b, hb, hr⟩ := h.registry hb₁
      refine .inl (hsame hb ?_)
      split
      · exact hr
      · exact hr
    | beside => exact .inl (hsame hb' rfl)
    | moved hd hm hmoved =>
      obtain ⟨b, hb, -, -, hr, -⟩ := hmoved.buses i b' hb'
      exact .inl (hsame hb hr)

/-- What a bus has registered under a key is what was registered with it last. -/
structure Registered (acts : List (Act H)) (s : Network H) (i : Nat) : Prop where
  last : ∀ bus, s.buses[i]? = some bus → ∀ key,
    bus.registry.get? key = lastRegistered acts i key
  none : s.buses[i]? = none → registrations {} i acts = []

theorem lastRegistered_append (acts : List (Act H)) (a : Act H) (i : Nat) (key : String) :
    lastRegistered (acts ++ [a]) i key =
      ((a.registers? (run {} acts) i).filter (·.routingKey == key)).or
        (lastRegistered acts i key) := by
  unfold lastRegistered
  rw [registrations_append, List.filter_append, List.getLast?_append]
  congr 1
  cases hreg : a.registers? (run {} acts) i with
  | none => simp [registrations, hreg]
  | some r =>
    by_cases hkey : r.routingKey = key
    · simp [registrations, hreg, hkey, Option.filter]
    · simp [registrations, hreg, hkey, Option.filter]

theorem Registered.perform {acts : List (Act H)} (h : Registered acts (run {} acts) i)
    (a : Act H) : Registered (acts ++ [a]) ((run {} acts).perform a) i := by
  have hnothing (hb : (run {} acts).buses[i]? = .none) :
      registrations {} i (acts ++ [a]) = [] := by
    rw [registrations_append, h.none hb, registrations, registers?_none hb]
    rfl
  constructor
  · intro b' hb' key
    rcases (run {} acts).registry_perform a hb' with ⟨b, hb, hr⟩ | ⟨hb, hempty⟩
    · rw [hr, lastRegistered_append, h.last b hb]
    · rw [lastRegistered, hnothing hb]
      simp [Registry.get?, hempty]
  · intro hb'
    refine hnothing ?_
    cases hb : (run {} acts).buses[i]? with
    | none => rfl
    | some b =>
      obtain ⟨b₁, hb₁, -⟩ := (run {} acts).elder_perform a hb
      rw [hb'] at hb₁
      cases hb₁

theorem registered_run (acts : List (Act H)) (i : Nat) : Registered acts (run {} acts) i := by
  induction acts using List.reverseRecOn with
  | nil => exact ⟨by simp, fun _ => rfl⟩
  | append_singleton acts a ih =>
    have hlast : run {} (acts ++ [a]) = (run {} acts).perform a := run_append ..
    rw [hlast]
    exact ih.perform a

/-! ## Published events -/

/-- The act publishes the event over a bus, and the call returns. -/
inductive Sends (s : Network H) : Act H → Event → Prop
  | published {j : Nat} {e : Event} (h : (publish j e s).1 = .ok ()) : Sends s (.publish j e) e
  | publishedOver {j : Nat} {e : Event} (h : (publishOver j e s).1 = .ok ()) :
      Sends s (.publishOver j e) e

theorem onSession'_ok {c : SessionCall} {op : Nat → Broker → Except BrokerError Broker}
    (h : (onSession' i c op s).1 = .ok ()) :
    ∃ bus, s.buses[i]? = some bus ∧
      op bus.session s.broker = .ok (onSession' i c op s).2.broker := by
  unfold onSession' onSession at h ⊢
  cases hb : s.buses[i]? with
  | none =>
    rw [hb] at h
    cases h
  | some bus =>
    rw [hb] at h
    refine ⟨bus, rfl, ?_⟩
    dsimp only at h ⊢
    split at h
    · cases h
    · cases hop : op bus.session s.broker with
      | error e =>
        rw [hop] at h
        cases h
      | ok b' => rfl

theorem publishEvent_ok {exchange : String} {e : Event}
    (h : ((calls i).publishEvent exchange e s).1 = .ok ()) :
    ∃ n, s.broker.publish n exchange (.ofEvent e) =
      .ok ((calls i).publishEvent exchange e s).2.broker := by
  have hok : (onSession' i (.publish exchange (Message.ofEvent e).routingKey)
      (fun n b => b.publish n exchange (.ofEvent e)) s).1 = .ok () := Call.adapt_eq_ok h
  obtain ⟨bus, -, hpublish⟩ := onSession'_ok hok
  exact ⟨bus.session, hpublish⟩

theorem publishOver_ok {e : Event} (h : (publishOver i e s).1 = .ok ()) :
    ∃ n exchange, s.broker.publish n exchange (.ofEvent e) =
      .ok (publishOver i e s).2.broker := by
  unfold publishOver at h ⊢
  cases hb : s.buses[i]? with
  | none =>
    rw [hb] at h
    cases h
  | some bus =>
    rw [hb] at h
    have hcall := @publishEvent_ok _ s i bus.config.exchange e
    dsimp only at h ⊢
    generalize (calls i).publishEvent bus.config.exchange e s = called at h hcall ⊢
    obtain ⟨result, t⟩ := called
    cases result with
    | error error => cases h
    | ok u =>
      obtain ⟨n, hpublish⟩ := hcall rfl
      exact ⟨n, bus.config.exchange, by rw [hpublish, observe_broker]⟩

def announcement (e : Event) : Broker.Content where
  routingKey := e.kind.name
  typeTag := some e.kind.name
  body := e.encode

theorem tagOf_ofEvent (e : Event) : Broker.tagOf (.ofEvent e) = some e.kind.name := by
  have hname : e.kind.name ≠ "" := by
    cases e.kind <;> decide
  simp [Broker.tagOf, Message.ofEvent, hname]

/-- The message that announces the event has arrived under the next number, and its copies
carry what was written of the event. -/
theorem Sends.carries {a : Act H} {e : Event} (h : Sends s a e) (hn : s.broker.Numbered) :
    (s.perform a).broker.Carries s.broker.arrivals (announcement e) := by
  have hpublished {n : Nat} {exchange : String} {b' : Broker}
      (hp : s.broker.publish n exchange (.ofEvent e) = .ok b') :
      b'.Carries s.broker.arrivals (announcement e) := by
    have hcarries := hn.carries_publish hp
    rwa [tagOf_ofEvent] at hcarries
  cases h with
  | @published j _ h =>
    have hover : publish j e s = publishOver j e s := by
      unfold publish whileOpen at h ⊢
      split
      · rename_i hb
        rw [hb] at h
        cases h
      · rename_i bus hb
        rw [hb] at h
        dsimp only at h
        split at h
        · cases h
        · rename_i hopen
          rw [if_neg hopen]
    rw [hover] at h
    obtain ⟨n, exchange, hp⟩ := publishOver_ok h
    rw [perform, hover]
    exact hpublished hp
  | publishedOver h =>
    obtain ⟨n, exchange, hp⟩ := publishOver_ok h
    exact hpublished hp

theorem numbered_run (acts : List (Act H)) : (run {} acts).broker.Numbered := by
  obtain ⟨actions, hb⟩ := run_broker ({} : Network H) acts
  rw [hb]
  exact Broker.numbered_empty.run actions

theorem carried_of_pulls {acts before sofar later after : List (Act H)} {a : Act H} {e : Event}
    {d : Broker.Delivery} {registry : Registry H}
    (hpull : acts = before ++ .pull i k :: after) (hpulls : (run {} before).Pulls i k d registry)
    (hsend : acts = sofar ++ a :: later) (hsends : Sends (run {} sofar) a e)
    (hn : d.arrival = (run {} sofar).broker.arrivals) :
    d.kind = e.kind.name ∧ d.body = e.encode := by
  obtain ⟨bus, st, -, -, hpoll, -⟩ := hpulls
  obtain ⟨copy, tag, hpresent, rfl⟩ := Broker.present_of_poll hpoll
  have hn : copy.arrival = (run {} sofar).broker.arrivals := hn
  -- A number is new when its message arrives, so the delivery was pulled after that.
  have hlater : ¬before <+: sofar := by
    rintro ⟨rest, rfl⟩
    have hlt := numbered_run before copy hpresent
    obtain ⟨actions, hb⟩ := run_broker (run {} before) rest
    have hle := (run {} before).broker.run_arrivals actions
    rw [run_append, hb] at hn
    omega
  obtain ⟨between, rfl⟩ : ∃ between, before = sofar ++ a :: between := by
    rcases List.append_eq_append_iff.mp (hpull.symm.trans hsend) with
      ⟨rest, hrest, -⟩ | ⟨rest, hrest, hcons⟩
    · exact absurd ⟨rest, hrest.symm⟩ hlater
    · cases rest with
      | nil => exact absurd ⟨[], by simpa using hrest⟩ hlater
      | cons b rest =>
        obtain ⟨rfl, -⟩ := List.cons.inj hcons
        exact ⟨rest, hrest⟩
  rw [run_append, run_cons] at hpresent
  obtain ⟨actions, hb⟩ := run_broker ((run {} sofar).perform a) between
  rw [hb] at hpresent
  have hcarries := (hsends.carries (numbered_run sofar)).run actions
  have hcontent := hcarries.carried copy hpresent hn
  have hkey : copy.routingKey = e.kind.name := congrArg (·.routingKey) hcontent
  have htag : copy.typeTag = some e.kind.name := congrArg (·.typeTag) hcontent
  have hbody : copy.body = e.encode := congrArg (·.body) hcontent
  refine ⟨?_, hbody⟩
  have hname : e.kind.name ≠ "" := by
    cases e.kind <;> decide
  simp [Broker.Delivery.kind, Broker.Copy.delivery, eventKind, htag, hname]

/-- No event reaches a handler of another kind. Whatever happens in a run, a handler is entered
only for a delivery that was pulled, and it is the one that was registered last for the kind of
the delivery then. It gets what the body decodes to as that kind. If the delivery is of a
message by which a bus published an event, it gets that event. And a registry finds under a
key no handler but of that key. -/
theorem entered_by_kind (acts : List (Act H)) :
    let s := run {} acts
    (∀ i k d r e, .entered i k d r e ∈ s.history →
      (∃ before after registry, acts = before ++ .pull i k :: after ∧
        (run {} before).Pulls i k d registry ∧ lastRegistered before i d.kind = some r) ∧
      r.kind.name = d.kind ∧ Event.decode r.kind d.body = .ok e ∧
      ∀ sofar a later e', acts = sofar ++ a :: later → Sends (run {} sofar) a e' →
        d.arrival = (run {} sofar).broker.arrivals → e'.encodedSize < 2 ^ 64 →
        e = e' ∧ r.kind = e'.kind) ∧
    ∀ (i : Nat) (bus : Bus H) (key : String) (r : Registration H), s.buses[i]? = some bus →
      bus.registry.get? key = some r → r.routingKey = key := by
  intro s
  have hkeys (xs : List (Act H)) (i : Nat) (bus : Bus H) (key : String) (r : Registration H) :
      (run {} xs).buses[i]? = some bus → bus.registry.get? key = some r → r.routingKey = key := by
    intro hb hr
    exact ((reached_empty.run xs).sound.registered i bus key r hb hr).1
  constructor
  · intro i k d r e hentered
    obtain ⟨registry, ⟨before, after, hacts, hpulls⟩, hget, he⟩ := took_of_entered hentered
    have hpulls' := hpulls
    obtain ⟨bus, st, hd, -, -, rfl⟩ := hpulls'
    have hb := dispatcher?_bus hd
    have hkind : r.kind.name = d.kind := hkeys before i bus d.kind r hb hget
    refine ⟨⟨before, after, _, hacts, hpulls, ?_⟩, hkind, he, ?_⟩
    · rw [← (registered_run before i).last bus hb]
      exact hget
    · intro sofar a later e' hsend hsends hn hsize
      obtain ⟨hname, hbody⟩ := carried_of_pulls hacts hpulls hsend hsends hn
      have hk : r.kind = e'.kind := EventKind.name_inj.mp (hkind.trans hname)
      have he : Event.decode r.kind d.body = .ok e := he
      rw [hk, hbody, Event.decode_encode hsize] at he
      exact ⟨(Except.ok.inj he).symm, hk⟩
  · exact hkeys acts

/-- A booking that is published after the handler for bookings was replaced. -/
theorem entered_by_kind_replaced :
    let e : Event := .newCargoBooked (Samples.newCargoBooked "ABC123" "SESTO" "CNHKG")
    let r : Registration Nat := { kind := .newCargoBooked, handler := 2 }
    let sofar : List (Act Nat) := [.build { service := "tracking" } .receiver [],
      .subscribe 0 .newCargoBooked 1, .start 0, .subscribe 0 .newCargoBooked 2]
    let s := run {} (sofar ++ .publish 0 e :: [.pull 0 0])
    Sends (run {} sofar) (.publish 0 e) e ∧ e.encodedSize < 2 ^ 64 ∧
    (∃ d e', .entered 0 0 d r e' ∈ s.history ∧
      d.arrival = (run {} sofar).broker.arrivals ∧ r.kind.name = d.kind ∧ e' = e) ∧
    ∃ bus : Bus Nat, s.buses[0]? = some bus ∧ bus.registry.get? "NewCargoBooked" = some r ∧
      r.routingKey = "NewCargoBooked" := by
  intro e r sofar s
  obtain ⟨hhandlers, hregistry⟩ := entered_by_kind (sofar ++ .publish 0 e :: [.pull 0 0])
  have hsends : Sends (run {} sofar) (.publish 0 e) e := .published (by decide +kernel)
  have hsize : e.encodedSize < 2 ^ 64 := by decide +kernel
  have harrivals : (run {} sofar).broker.arrivals = 0 := by decide +kernel
  have hentered : ((s.told fun
      | .entered 0 0 d r e' => some (d, r, e')
      | _ => none).map fun (d, r, _) => (d.arrival, r)) = [(0, r)] := by decide +kernel
  obtain ⟨⟨d, r', e'⟩, hone, hr⟩ := List.map_eq_singleton_iff.mp hentered
  obtain ⟨hn, rfl⟩ := Prod.mk.inj hr
  have hmem : .entered 0 0 d r e' ∈ s.history := by
    obtain ⟨x, hx, hxd⟩ := mem_told.mp (hone ▸ List.mem_singleton.mpr rfl)
    split at hxd
    · cases hxd
      exact hx
    · cases hxd
  obtain ⟨-, hkind, -, hsent⟩ := hhandlers 0 0 d r e' hmem
  obtain ⟨he, -⟩ := hsent sofar (.publish 0 e) [.pull 0 0] e rfl hsends (hn.trans harrivals.symm) hsize
  refine ⟨hsends, hsize, ⟨d, e', hmem, hn.trans harrivals.symm, hkind, he⟩, ?_⟩
  have hbus : (s.buses[0]?.bind fun bus => bus.registry.get? "NewCargoBooked") = some r := by
    decide +kernel
  obtain ⟨bus, hb, hget⟩ := Option.bind_eq_some_iff.mp hbus
  exact ⟨bus, hb, hget, hregistry 0 bus "NewCargoBooked" r hb hget⟩

end Network
end CargoEvents
