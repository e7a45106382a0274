import CargoEvents.Proofs.Broker.Custody
import CargoEvents.Proofs.Broker.Standing

/-! # Ledgers

The ledger of a queue lists the copies ever routed to it and those resolved for good. It
balances after every run in which the queue is not deleted: what was routed is what waits,
what sessions hold and what was resolved, each copy once.
-/
namespace CargoEvents.Broker
open Wire (Bytes)
open scoped List

structure Ledger where
  routed : List Copy := []
  resolved : List Copy := []
  deriving DecidableEq, Repr

def ledger (b : Broker) (queue : String) : List Action → Ledger
  | [] => {}
  | a :: actions =>
    let later := (b.act a).ledger queue actions
    { routed := b.arriving queue a ++ later.routed
      resolved := b.settling queue a ++ later.resolved }

def Housed (b : Broker) (queue : String) : Prop := b.custody queue ≠ [] → b.queues.contains queue

theorem housed_empty (queue : String) : Housed {} queue := fun h => absurd rfl h

theorem Housed.of_unacked {b : Broker} {queue : String} (h : b.Housed queue)
    (hu : b.unacked queue ≠ []) : b.queues.contains queue := by
  apply h
  simp [custody, hu]

theorem act_contains {b : Broker} {queue : String} (h : b.queues.contains queue) (a : Action)
    (kept : a ≠ .operate (.deleteQueue queue)) : (b.act a).queues.contains queue := by
  obtain ⟨q, hq⟩ := contains_iff.mp h
  exact contains_iff.mpr ⟨q, queue?_act hq kept⟩

theorem brought_ne_nil {b : Broker} {queue exchange key : String} {typeTag : Option String}
    {body : Bytes} (h : b.brought queue exchange key typeTag body ≠ []) :
    { exchange, key, queue } ∈ b.bindings := by
  unfold brought at h
  split at h
  · assumption
  · contradiction

theorem Sound.contains_of_arriving {b : Broker} (h : b.Sound) {queue : String} {a : Action}
    (ha : b.arriving queue a ≠ []) : b.queues.contains queue := by
  unfold arriving at ha
  split at ha
  · split at ha
    · exact h.bound _ (brought_ne_nil ha)
    · contradiction
  · exact h.bound _ (brought_ne_nil ha)
  · contradiction

theorem Housed.act {b : Broker} {queue : String} (hq : b.Housed queue) (h : b.Sound) (a : Action)
    (kept : a ≠ .operate (.deleteQueue queue)) : (b.act a).Housed queue := by
  intro hne
  refine act_contains ?_ a kept
  have hp := act_custody h hq.of_unacked a kept
  -- A queue answers for copies now because it did, or because one arrives.
  by_cases hc : b.custody queue = []
  · apply h.contains_of_arriving (a := a)
    intro ha
    rw [hc, ha] at hp
    exact hne (List.append_eq_nil_iff.mp hp.nil_eq.symm).2
  · exact hq hc

/-- What was there at the beginning and what was routed is what was resolved and what is
there at the end. -/
theorem ledger_balance {b : Broker} (h : b.Sound) {queue : String} (hq : b.Housed queue)
    (actions : List Action) (kept : ∀ a ∈ actions, a ≠ .operate (.deleteQueue queue)) :
    (b.custody queue ++ (b.ledger queue actions).routed).Perm
      ((b.ledger queue actions).resolved ++ (b.run actions).custody queue) := by
  induction actions generalizing b with
  | nil => simp [ledger]
  | cons a actions ih =>
    obtain ⟨ha, hactions⟩ := List.forall_mem_cons.mp kept
    have hstep := act_custody h hq.of_unacked a ha
    have hrest := ih (h.act a) (hq.act h a ha) hactions
    simp only [ledger, run_cons]
    calc b.custody queue ++ (b.arriving queue a ++ ((b.act a).ledger queue actions).routed)
      _ = b.custody queue ++ b.arriving queue a ++ ((b.act a).ledger queue actions).routed := by
        rw [List.append_assoc]
      _ ~ b.settling queue a ++ (b.act a).custody queue ++
          ((b.act a).ledger queue actions).routed := hstep.append_right _
      _ = b.settling queue a ++ ((b.act a).custody queue ++
          ((b.act a).ledger queue actions).routed) := List.append_assoc ..
      _ ~ b.settling queue a ++ (((b.act a).ledger queue actions).resolved ++
          ((b.act a).run actions).custody queue) := hrest.append_left _
      _ = _ := (List.append_assoc ..).symm

/-! ## Numbers of arrival -/

theorem act_arrivals (b : Broker) (a : Action) : b.arrivals ≤ (b.act a).arrivals := by
  generalize hb : b.act a = b'
  have he : Effect b a b' := hb ▸ b.act_effect a
  have hback (b : Broker) (helds : List Held) : (b.giveBackAll helds).arrivals = b.arrivals := by
    rw [giveBackAll_eq]
  cases he with
  | published => exact Nat.le_succ _
  | @shut s x => exact Nat.le_of_eq (hback (b.onSession s Session.shut) x.unacked).symm
  | operated o =>
    cases o with
    | inject => exact Nat.le_succ _
    | deleteQueue | cancelConsumers | failDeclarations | failPublishes | failNextDelivery =>
      exact Nat.le_refl _
  | refused | opened | exchangeDeclared | queueDeclared | qosSet | bound | faulted | handedOut
  | settled | returned => exact Nat.le_refl _

theorem run_arrivals (b : Broker) (actions : List Action) :
    b.arrivals ≤ (b.run actions).arrivals := by
  induction actions generalizing b with
  | nil => exact Nat.le_refl _
  | cons a actions ih => exact Nat.le_trans (b.act_arrivals a) (ih _)

theorem arriving_cases (b : Broker) (queue : String) (a : Action) :
    b.arriving queue a = [] ∨
      ∃ c, b.arriving queue a = [c] ∧ c.arrival = b.arrivals ∧ b.arrivals < (b.act a).arrivals := by
  have hbrought (exchange key : String) (typeTag : Option String) (body : Bytes) :
      b.brought queue exchange key typeTag body = [] ∨
        b.brought queue exchange key typeTag body = [b.newCopy key typeTag body] := by
    unfold brought
    split
    · exact .inr rfl
    · exact .inl rfl
  cases a with
  | publish s exchange m =>
    simp only [arriving, act]
    cases hp : b.publish s exchange m with
    | error e => exact .inl rfl
    | ok b' =>
      obtain ⟨-, -, -, rfl⟩ := publish_eq_ok hp
      exact (hbrought ..).imp_right fun h => ⟨_, h, rfl, Nat.lt_succ_self _⟩
  | operate o =>
    cases o with
    | inject => exact (hbrought ..).imp_right fun h => ⟨_, h, rfl, Nat.lt_succ_self _⟩
    | deleteQueue | cancelConsumers | failDeclarations | failPublishes | failNextDelivery =>
      exact .inl rfl
  | openSession | declareExchange | declareQueue | setQos | bindQueue | consume | poll | resolve
  | closeSession => exact .inl rfl

theorem ledger_numbers (b : Broker) (queue : String) (actions : List Action) :
    ((b.ledger queue actions).routed.map (·.arrival)).Pairwise (· < ·) ∧
      ∀ c ∈ (b.ledger queue actions).routed, b.arrivals ≤ c.arrival := by
  induction actions generalizing b with
  | nil => simp [ledger]
  | cons a actions ih =>
    obtain ⟨hp, hle⟩ := ih (b.act a)
    have hgrow := b.act_arrivals a
    have hrest : ∀ c ∈ ((b.act a).ledger queue actions).routed, b.arrivals ≤ c.arrival :=
      fun c hc => Nat.le_trans hgrow (hle c hc)
    rcases b.arriving_cases queue a with hn | ⟨c, hc, hnum, hlt⟩
    · simp only [ledger, hn, List.nil_append]
      exact ⟨hp, hrest⟩
    · simp only [ledger, hc, List.singleton_append, List.map_cons, List.pairwise_cons,
        List.forall_mem_cons, hnum, Nat.le_refl, true_and]
      refine ⟨⟨fun n hn => ?_, hp⟩, hrest⟩
      obtain ⟨d, hd, rfl⟩ := List.mem_map.mp hn
      exact Nat.lt_of_lt_of_le hlt (hle d hd)

/-! ## Announcing and resolving -/

/-- The message with `key` went to the tail of each queue bound under `exchange` and `key`,
and to no other; nothing else changed for queues, sessions or streams. -/
structure Appended (b b' : Broker) (exchange key : String) (typeTag : Option String)
    (body : Bytes) : Prop where
  ready : ∀ queue, b'.ready queue = b.ready queue ++ b.brought queue exchange key typeTag body
  declared : ∀ queue, b'.queue? queue = b.queue? queue
  sessions : b'.sessions = b.sessions
  epoch : b'.epoch = b.epoch
  deliveryFaults : b'.deliveryFaults = b.deliveryFaults

theorem Sound.appended_route {b : Broker} (h : b.Sound) (exchange key : String)
    (typeTag : Option String) (body : Bytes) :
    Appended b (b.route exchange key typeTag body) exchange key typeTag body := by
  exact ⟨h.ready_route exchange key typeTag body, queue?_route exchange key typeTag body, rfl, rfl,
    rfl⟩

theorem Sound.appended_publish {b b' : Broker} (h : b.Sound) {s : Nat} {exchange : String}
    {m : Message} (hp : b.publish s exchange m = .ok b') :
    Appended b b' exchange m.routingKey (tagOf m) m.body := by
  obtain ⟨-, -, -, rfl⟩ := publish_eq_ok hp
  have ha := h.appended_route exchange m.routingKey (tagOf m) m.body
  exact ⟨ha.ready, ha.declared, ha.sessions, ha.epoch, ha.deliveryFaults⟩

theorem Sound.appended_inject {b : Broker} (h : b.Sound) (exchange key : String)
    (typeTag : Option String) (body : Bytes) :
    Appended b (b.inject exchange key typeTag body).2 exchange key typeTag body := by
  have ha := h.appended_route exchange key typeTag body
  exact ⟨ha.ready, ha.declared, ha.sessions, ha.epoch, ha.deliveryFaults⟩

theorem Sound.targets_nodup {b : Broker} (h : b.Sound) (exchange key : String) :
    (b.targets exchange key).Nodup := by
  refine List.Nodup.map_on ?_ (h.distinct.filter _)
  intro x hx y hy he
  simp only [List.mem_filter, Bool.and_eq_true, beq_iff_eq] at hx hy
  cases x
  cases y
  simp_all

theorem Sound.inject_count {b : Broker} (h : b.Sound) (exchange key : String)
    (typeTag : Option String) (body : Bytes) :
    (b.inject exchange key typeTag body).1 = (b.queues.keys.filter fun queue =>
      b.depth queue < (b.inject exchange key typeTag body).2.depth queue).length := by
  have hkeys : b.queues.keys.Nodup := by
    refine b.queues.keys_increasing.imp ?_
    rintro x y hlt rfl
    exact String.lt_irrefl x hlt
  have hdepth : ∀ queue, (b.inject exchange key typeTag body).2.depth queue =
      b.depth queue + (b.brought queue exchange key typeTag body).length := by
    intro queue
    simp [depth, (h.appended_inject exchange key typeTag body).ready queue]
  refine ((List.perm_ext_iff_of_nodup (h.targets_nodup exchange key) (hkeys.filter _)).mpr ?_).length_eq
  intro queue
  simp only [mem_targets, List.mem_filter, hdepth, Table.mem_keys]
  by_cases hb : { exchange, key, queue } ∈ b.bindings
  · have hq : (b.queues.get? queue).isSome := h.bound _ hb
    simp [hb, hq, brought]
  · simp [hb, brought]

/-- Whether a session holds a delivery under a tag. -/
def Holds (b : Broker) (s tag : Nat) : Prop :=
  ∃ x, b.sessions[s]? = some x ∧ ∃ held ∈ x.unacked, held.tag = tag

theorem act_resolve_eq {b : Broker} {s tag : Nat} (h : ¬b.Holds s tag) (how : Resolution) :
    b.act (.resolve s tag how) = b := by
  simp only [act]
  cases hr : b.resolve s tag how with
  | error e => rfl
  | ok b' =>
    obtain ⟨x, held, hs, -, hh, -⟩ := resolve_eq_ok hr
    have htag : held.tag = tag := by simpa using List.find?_some hh
    exact absurd ⟨x, hs, held, List.mem_of_find?_eq_some hh, htag⟩ h

theorem Sound.not_holds_of_resolve {b b' : Broker} (h : b.Sound) {s tag : Nat} {how : Resolution}
    (hr : b.resolve s tag how = .ok b') (later : List Action) : ¬(b'.run later).Holds s tag := by
  obtain ⟨x, held, hs, -, hh, rfl⟩ := resolve_eq_ok hr
  have htag : held.tag = tag := by simpa using List.find?_some hh
  have hle : tag ≤ x.lastTag := htag ▸ (h.session hs).given held (List.mem_of_find?_eq_some hh)
  have hs' : (signal (if how = .nack true then (b.onSession s (·.release tag)).giveBack held
      else b.onSession s (·.release tag))).sessions[s]? = some (x.release tag) := by
    split <;> simp [signal, Broker.onSession, hs]
  rintro ⟨z, hz, old, hold, rfl⟩
  obtain ⟨y, hy, hlater⟩ := run_later _ later s _ hs'
  obtain rfl : y = z := Option.some.inj (hy.symm.trans hz)
  rcases hlater.held old hold with hm | hlt
  · simp [Session.release] at hm
  · have : x.lastTag < old.tag := hlt
    omega

/-- Conservation. In a run that does not delete the queue, each copy ever routed to it waits
once, or is held by one open session under one tag, or was resolved for good. A message
that is accepted or injected adds one copy to the tail of each queue bound under its
exchange and key and touches nothing else, and what is not held cannot be resolved. -/
theorem copies_conserved (actions : List Action) (queue : String)
    (kept : ∀ a ∈ actions, a ≠ .operate (.deleteQueue queue)) :
    let b := run {} actions
    let l := ledger {} queue actions
    (l.routed.map (·.arrival)).Nodup ∧
    l.routed.Perm (b.custody queue ++ l.resolved) ∧
    (∀ x ∈ b.sessions, (x.unacked.map (·.tag)).Nodup ∧ (x.isOpen = false → x.unacked = [])) ∧
    (∀ s exchange m b', b.publish s exchange m = .ok b' →
      b.Appended b' exchange m.routingKey (tagOf m) m.body) ∧
    (∀ exchange key typeTag body,
      b.Appended (b.inject exchange key typeTag body).2 exchange key typeTag body ∧
      (b.inject exchange key typeTag body).1 = (b.queues.keys.filter fun q =>
        b.depth q < (b.inject exchange key typeTag body).2.depth q).length) ∧
    (∀ s tag, ¬b.Holds s tag → ∀ how, b.act (.resolve s tag how) = b) ∧
    ∀ s tag how b', b.resolve s tag how = .ok b' → ∀ later, ¬(b'.run later).Holds s tag := by
  intro b l
  have hb : b.Sound := sound_empty.run actions
  refine ⟨?_, ?_, ?_, ?_, ?_, ?_, ?_⟩
  · exact (ledger_numbers {} queue actions).1.imp fun h => Nat.ne_of_lt h
  · have h := ledger_balance sound_empty (housed_empty queue) actions kept
    exact h.trans List.perm_append_comm
  · intro x hx
    exact ⟨(hb.sessions x hx).ordered.imp fun h => Nat.ne_of_lt h, (hb.sessions x hx).closed⟩
  · intro s exchange m b' hp
    exact hb.appended_publish hp
  · intro exchange key typeTag body
    exact ⟨hb.appended_inject .., hb.inject_count ..⟩
  · intro s tag h how
    exact act_resolve_eq h how
  · intro s tag how b' hr later
    exact hb.not_holds_of_resolve hr later

/-- Two copies, one of them given back and then accepted. -/
theorem copies_conserved_redelivered :
    let actions : List Action := [.openSession, .declareExchange 0 { name := "x" },
      .declareQueue 0 { name := "q" }, .bindQueue 0 "q" "x" "k",
      .publish 0 "x" { routingKey := "k", typeTag := "", body := [] },
      .operate (.inject "x" "k" none [1]), .poll { session := 0, queue := "q", epoch := 0 },
      .resolve 0 1 (.nack true), .poll { session := 0, queue := "q", epoch := 0 },
      .resolve 0 2 .ack]
    (∀ a ∈ actions, a ≠ .operate (.deleteQueue "q")) ∧
    (ledger {} "q" actions).routed.Perm
      ((run {} actions).custody "q" ++ (ledger {} "q" actions).resolved) ∧
    (ledger {} "q" actions).resolved.map (·.arrival) = [0] ∧
    ((run {} actions).custody "q").map (·.arrival) = [1] :=
  ⟨by decide, (copies_conserved _ _ (by decide)).2.1, by decide, by decide⟩

end CargoEvents.Broker
