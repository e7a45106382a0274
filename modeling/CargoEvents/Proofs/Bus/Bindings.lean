import CargoEvents.Proofs.Bus.Footprints
import CargoEvents.Proofs.Bus.Lifecycle

/-! # Registered kinds are bound

A subscriber binds the queue first and registers its handler in a later step, with anyone in
between. As long as no operator deletes the queue, what is registered is bound. A subscription
that fails has changed neither bindings nor registries.
-/
namespace CargoEvents

def Topology.binding (t : Topology) (key : String) : Broker.Binding :=
  { exchange := t.exchange.name, key, queue := t.queue.name }

namespace Broker
variable {b : Broker} {x : Binding}

/-- Bindings go with their queue only. -/
theorem mem_bindings_act (h : x ∈ b.bindings) {a : Action}
    (ha : a ≠ .operate (.deleteQueue x.queue)) : x ∈ (b.act a).bindings := by
  have he := act_effect b a
  generalize b.act a = b' at he
  cases he with
  | bound => exact List.mem_insert_of_mem h
  | returned => simpa [signal, onSession] using h
  | shut => simpa [signal, onSession] using h
  | operated o =>
    cases o with
    | deleteQueue name =>
      have hname : x.queue ≠ name := by
        rintro rfl
        exact ha rfl
      exact List.mem_filter.mpr ⟨h, by simpa using hname⟩
    | inject | cancelConsumers | failDeclarations | failPublishes | failNextDelivery => exact h
  | refused | opened | exchangeDeclared | queueDeclared | qosSet | published => exact h
  | faulted | handedOut | settled => exact h

theorem mem_bindings_run (h : x ∈ b.bindings) {actions : List Action}
    (ha : ∀ a ∈ actions, a ≠ .operate (.deleteQueue x.queue)) : x ∈ (b.run actions).bindings := by
  induction actions generalizing b with
  | nil => exact h
  | cons a actions ih =>
    obtain ⟨ha, hactions⟩ := List.forall_mem_cons.mp ha
    exact ih (mem_bindings_act h ha) hactions

end Broker

namespace Network
variable {H : Type} {s t : Network H} {i : Nat} {bus : Bus H} {r : Request H} {p : Phase r}
  {kept : String → Prop}

/-- Buses stay, and the queues that are kept have kept their bindings. -/
structure Stays (kept : String → Prop) (s t : Network H) : Prop where
  topology : ∀ j τ, s.topology? j = some τ → t.topology? j = some τ
  bindings : ∀ x ∈ s.broker.bindings, kept x.queue → x ∈ t.broker.bindings

theorem topology?_of_bus (hb : s.buses[i]? = some bus) : s.topology? i = some bus.config.topology := by
  rw [topology?, hb]
  rfl

/-! ## One subscription -/

theorem onSession'_error {c : SessionCall} {op : Nat → Broker → Except BrokerError Broker}
    {e : BrokerError} (h : (onSession' i c op s).1 = .error e) :
    (onSession' i c op s).2.broker = s.broker := by
  unfold onSession' onSession at h ⊢
  cases hb : s.buses[i]? with
  | none => rfl
  | some bus =>
    rw [hb] at h
    dsimp only at h ⊢
    split at h
    · rfl
    · cases hop : op bus.session s.broker with
      | error e => rfl
      | ok b' =>
        rw [hop] at h
        cases h

theorem eq_of_bindQueue {b b' : Broker} {n : Nat} {queue exchange key : String}
    (h : b.bindQueue n queue exchange key = .ok b') :
    b' = { b with bindings := b.bindings.insert { exchange, key, queue } } := by
  unfold Broker.bindQueue at h
  split at h
  · exact (Broker.declaring_eq_ok h).2
  · cases h

theorem bind_broker (i : Nat) (τ : Topology) (key : String) (s : Network H) :
    (((calls i).bind τ key s).1 = .ok () ∧ ((calls i).bind τ key s).2.broker =
      { s.broker with bindings := s.broker.bindings.insert (τ.binding key) }) ∨
    ∃ e, ((calls i).bind τ key s).1 = .error e ∧
      ((calls i).bind τ key s).2.broker = s.broker := by
  let call : Call BusError (Network H) Unit := (calls i).bind τ key
  let ask : Call BrokerError (Network H) Unit := (calls i).bindQueue τ.queue.name τ.exchange.name key
  have hcall : call s = ((ask s).1.mapError (.subscriptionFailed key), (ask s).2) := rfl
  change ((call s).1 = _ ∧ (call s).2.broker = _) ∨ ∃ e, (call s).1 = _ ∧ (call s).2.broker = _
  rw [hcall]
  cases hresult : (ask s).1 with
  | ok u =>
    obtain ⟨bus, -, hop⟩ := onSession'_ok hresult
    exact .inl ⟨rfl, eq_of_bindQueue hop⟩
  | error e => exact .inr ⟨_, rfl, onSession'_error hresult⟩

/-- A step of a subscriber. It asks whether the bus is open, binds, and registers. -/
inductive Subscribes (i : Nat) {kind : EventKind} {handler : H} (s : Network H) :
    Phase (.subscribe kind handler) → Phase (.subscribe kind handler) → Network H → Prop
  | refused : Subscribes i s .asking (.returned (.error .closed)) s
  | admitted {τ : Topology} (hτ : s.topology? i = some τ) : Subscribes i s .asking (.binding τ) s
  | unbound (τ : Topology) {e : BusError} {t : Network H} (hb : t.broker = s.broker) :
      Subscribes i s (.binding τ) (.returned (.error e)) t
  | bound (τ : Topology) {t : Network H}
      (hb : t.broker.bindings = s.broker.bindings.insert (τ.binding kind.name)) :
      Subscribes i s (.binding τ) .registering t
  | registered : Subscribes i s .registering (.returned (.ok ()))
      (s.onBus i (withHandler kind handler))
  | returned (result : Except BusError Unit) :
      Subscribes i s (.returned result) (.returned result) s
  | gone : Subscribes i s .gone .gone s

theorem proceed_subscribes (i : Nat) {kind : EventKind} {handler : H}
    (p : Phase (.subscribe kind handler)) (s : Network H) :
    Subscribes i s p (.after (p.proceed i s).1) (p.proceed i s).2 := by
  cases p with
  | asking =>
    let look (bus : Bus H) : Call BusError (Network H) (Phase (.subscribe kind handler)) :=
      pure (.binding bus.config.topology)
    change Subscribes i s .asking (.after (whileOpen i look s).1) (whileOpen i look s).2
    rcases whileOpen_cases look s i with h | ⟨bus, hb, -, h⟩
    · rw [h]
      exact .refused
    · rw [h]
      exact .admitted (topology?_of_bus hb)
  | binding τ =>
    have hbind := bind_broker i τ kind.name s
    rw [Phase.proceed, Call.bind_apply]
    generalize (calls i).bind τ kind.name s = bound at hbind ⊢
    obtain ⟨result, t⟩ := bound
    rcases hbind with ⟨rfl, hb⟩ | ⟨e, rfl, hb⟩
    · exact .bound τ (congrArg (·.bindings) hb)
    · exact .unbound τ hb
  | registering => exact .registered
  | returned result => exact .returned result
  | gone => exact .gone

/-! ## Callers that have bound -/

/-- What a caller of bus `i` has seen to before it comes to this phase. -/
def Phase.Secured (kept : String → Prop) (s : Network H) (i : Nat) : {r : Request H} → Phase r → Prop
  | .subscribe _ _, binding τ => s.topology? i = some τ
  | .subscribe kind _, registering => ∀ τ, s.topology? i = some τ → kept τ.queue.name →
    τ.binding kind.name ∈ s.broker.bindings
  | _, _ => True

theorem Stays.back (h : Stays kept s t) {τ : Topology} (hb : s.topology? i ≠ none)
    (hτ : t.topology? i = some τ) : s.topology? i = some τ := by
  obtain ⟨τ', hτ'⟩ := Option.ne_none_iff_exists'.mp hb
  obtain rfl : τ' = τ := Option.some.inj ((h.topology i τ' hτ').symm.trans hτ)
  exact hτ'

theorem Stays.secured (h : Stays kept s t) (hb : s.topology? i ≠ none)
    (hp : p.Secured kept s i) : p.Secured kept t i := by
  cases r with
  | subscribe kind handler =>
    cases p with
    | binding τ => exact h.topology i τ hp
    | registering =>
      intro τ hτ hq
      exact h.bindings _ (hp τ (h.back hb hτ) hq) hq
    | asking | returned | gone => trivial
  | publish | restore | start | close => cases p <;> trivial

def KindsBound (kept : String → Prop) (s : Network H) : Prop :=
  ∀ i τ key, s.topology? i = some τ → kept τ.queue.name → (s.lookup? i key).isSome →
    τ.binding key ∈ s.broker.bindings

theorem topology?_of_lookup {key : String} (h : (s.lookup? i key).isSome) :
    s.topology? i ≠ none := by
  intro hnone
  rw [lookup?, Option.map_eq_none_iff.mp hnone] at h
  cases h

theorem Stays.secured_after (h : Stays kept s (p.proceed i s).2) (hp : p.Secured kept s i) :
    (Phase.after (p.proceed i s).1).Secured kept (p.proceed i s).2 i := by
  cases r with
  | publish | restore | start | close =>
    generalize Phase.after (p.proceed i s).1 = p'
    cases p' <;> trivial
  | subscribe kind handler =>
    have hstep := proceed_subscribes i p s
    generalize (p.proceed i s).2 = t at h hstep
    generalize Phase.after (p.proceed i s).1 = p' at hstep
    cases hstep with
    | refused | unbound | registered | returned | gone => trivial
    | admitted hτ => exact hτ
    | bound τ hadded =>
      intro τ' hτ' _
      obtain rfl : τ = τ' := Option.some.inj ((h.topology i τ hp).symm.trans hτ')
      rw [hadded]
      exact List.mem_insert_self

end Network

namespace Floor
open Network
variable {H : Type} {f : Floor H} {c i : Nat} {bus : Bus H} {kind : EventKind} {handler : H}
  {p : Phase (.subscribe kind handler)} {kept : String → Prop}

/-! ## What is looked up -/

theorem registers?_of_needs {r : Request H} {p : Phase r} (h : p.needs) : p.registers? = none := by
  cases r <;> cases p <;> first | rfl | cases h

def registers? (f : Floor H) (i : Nat) : Happening H → Option (Registration H)
  | .proceed c => f.callers[c]?.bind fun x => if i = x.bus then x.phase.registers? else none
  | _ => none

def registrations (f : Floor H) (i : Nat) : List (Happening H) → List (Registration H)
  | [] => []
  | x :: xs => (f.registers? i x).toList ++ (f.happen x).registrations i xs

theorem caller_of_registers {x : Happening H} {reg : Registration H}
    (hreg : f.registers? i x = some reg) : ∃ (c : Nat) (kind : EventKind) (handler : H),
    f.callers[c]? = some ⟨i, .subscribe kind handler, .registering⟩ ∧ reg = { kind, handler } := by
  cases x with
  | proceed c =>
    obtain ⟨⟨j, r, p⟩, hc, hp⟩ := Option.bind_eq_some_iff.mp hreg
    split at hp
    · rename_i hij
      subst hij
      cases r <;> cases p <;> cases hp
      exact ⟨c, _, _, hc, rfl⟩
    · cases hp
  | call | leave | yielded | other => cases hreg

theorem Sound.lookup?_happen (h : f.Sound) (x : Happening H) (i : Nat) (key : String) :
    (f.happen x).network.lookup? i key =
      ((f.registers? i x).filter (·.routingKey == key)).or (f.network.lookup? i key) := by
  cases x with
  | call j r =>
    simp only [Floor.happen]
    split <;> rfl
  | leave c => rfl
  | yielded j k polled => exact f.network.receive_lookup? j k polled i key
  | other a =>
    simp only [Floor.happen]
    split
    · rfl
    · rename_i ha
      exact f.network.perform_lookup? (Bool.eq_false_iff.mpr ha) i key
  | proceed c =>
    simp only [Floor.happen, registers?]
    rcases h.goes_on c with ⟨heq, hneeds⟩ | ⟨j, r, p, bus, hc, hb, heq⟩
    · have hnone : (f.callers[c]?.bind fun x =>
          if i = x.bus then x.phase.registers? else none) = none := by
        refine Option.bind_eq_none_iff.mpr fun x hx => ?_
        rw [registers?_of_needs (hneeds x hx), ite_self]
      rw [heq, hnone]
      rfl
    · rw [heq, hc]
      exact (proceed_leaves j p f.network).lookup? hb i key

theorem Sound.lookup?_run (h : f.Sound) (xs : List (Happening H)) (i : Nat) (key : String) :
    (f.run xs).network.lookup? i key =
      ((f.registrations i xs).filter (·.routingKey == key)).getLast?.or
        (f.network.lookup? i key) := by
  induction xs generalizing f with
  | nil => rfl
  | cons x xs ih =>
    rw [run_cons, ih (h.happen x), h.lookup?_happen, registrations, List.filter_append,
      List.getLast?_append, Option.or_assoc]
    cases hreg : f.registers? i x with
    | none => rfl
    | some reg => by_cases hkey : reg.routingKey = key <;> simp [hkey, Option.filter]

theorem Sound.lookup?_stays (h : f.Sound) {xs : List (Happening H)} {reg : Registration H}
    (hreg : f.network.lookup? i kind.name = some reg)
    (hxs : ∀ other ∈ f.registrations i xs, other.kind ≠ kind) :
    (f.run xs).network.lookup? i kind.name = some reg := by
  have hnone : (f.registrations i xs).filter (·.routingKey == kind.name) = [] := by
    refine List.filter_eq_nil_iff.mpr fun other hother hkey => ?_
    exact hxs other hother (EventKind.name_inj.mp (beq_iff_eq.mp hkey))
  rw [h.lookup?_run, hnone, hreg]
  rfl

/-! ## While the queue is there -/

/-- What is registered is bound, and whoever is about to register a handler has bound its kind. -/
structure Bound (kept : String → Prop) (f : Floor H) : Prop where
  kinds : f.network.KindsBound kept
  callers : ∀ (c : Nat) (x : Caller H), f.callers[c]? = some x →
    x.phase.Secured kept f.network x.bus

theorem bound_empty (kept : String → Prop) : Bound kept ({} : Floor H) := by
  refine ⟨fun i τ key hτ => ?_, by simp⟩
  cases hτ

theorem Sound.topology? (h : f.Sound) {x : Caller H} (hx : f.callers[c]? = some x) :
    f.network.topology? x.bus ≠ none := by
  obtain ⟨bus, hb, -⟩ := h.fits c x hx
  rw [topology?_of_bus hb]
  exact Option.some_ne_none _

theorem Sound.stays (h : f.Sound) {x : Happening H}
    (hx : ∀ q, kept q → x ≠ .other (.beside (.operate (.deleteQueue q)))) :
    Stays kept f.network (f.happen x).network := by
  refine ⟨fun j τ hτ => ?_, fun y hy hq => ?_⟩
  · obtain ⟨bus, hb, rfl⟩ := Option.map_eq_some_iff.mp hτ
    obtain ⟨bus', hb', helder, -⟩ := h.passes x hb
    rw [topology?_of_bus hb', helder.config]
  · obtain ⟨actions, hrun, hasks⟩ := h.happen_asks x
    exact hrun ▸ Broker.mem_bindings_run hy fun a ha => (hasks a ha).ne_deleteQueue (hx _ hq)

theorem Bound.happen (hbound : f.Bound kept) (h : f.Sound) {x : Happening H}
    (hx : ∀ q, kept q → x ≠ .other (.beside (.operate (.deleteQueue q)))) :
    (f.happen x).Bound kept := by
  have hstays := h.stays hx
  refine ⟨fun i τ key hτ hq hsome => hstays.bindings _ ?_ hq, fun d y hy => ?_⟩
  · -- A kind that was registered before is bound; a kind that is registered now was bound first.
    rw [h.lookup?_happen, Option.isSome_or, Bool.or_eq_true] at hsome
    rcases hsome with hnew | hold
    · obtain ⟨reg, hreg⟩ := Option.isSome_iff_exists.mp hnew
      obtain ⟨hreg, hkey⟩ := Option.filter_eq_some_iff.mp hreg
      obtain ⟨c, kind, handler, hc, rfl⟩ := caller_of_registers hreg
      obtain rfl : kind.name = key := beq_iff_eq.mp hkey
      exact hbound.callers c _ hc τ (hstays.back (h.topology? hc) hτ) hq
    · exact hbound.kinds i τ key (hstays.back (topology?_of_lookup hold) hτ) hq hold
  · rcases caller_before hy with ⟨i, r, rfl | rfl⟩ | hsame | ⟨i, r, p, hd, rfl, hnext⟩
    · cases r <;> trivial
    · cases r <;> trivial
    · exact hstays.secured (h.topology? hsame) (hbound.callers d y hsame)
    · rw [hnext] at hstays ⊢
      exact hstays.secured_after (hbound.callers d _ hd)

theorem Bound.run (hbound : f.Bound kept) (h : f.Sound) {xs : List (Happening H)}
    (hxs : ∀ q, kept q → ∀ x ∈ xs, x ≠ .other (.beside (.operate (.deleteQueue q)))) :
    (f.run xs).Bound kept := by
  induction xs generalizing f with
  | nil => exact hbound
  | cons x xs ih =>
    exact ih (hbound.happen h fun q hq => hxs q hq x List.mem_cons_self) (h.happen x)
      fun q hq y hy => hxs q hq y (List.mem_cons_of_mem x hy)

/-! ## Subscriptions that return -/

/-- A subscriber that has bound its kind cannot fail. -/
inductive HasBound : Phase (.subscribe kind handler) → Prop
  | registering : HasBound .registering
  | returned : HasBound (.returned (.ok ()))
  | gone : HasBound .gone

theorem hasBound_run (hc : f.callers[c]? = some ⟨i, .subscribe kind handler, p⟩) (hp : HasBound p)
    (more : List (Happening H)) : ∃ q : Phase (.subscribe kind handler),
      (f.run more).callers[c]? = some ⟨i, .subscribe kind handler, q⟩ ∧ HasBound q := by
  induction more generalizing f p with
  | nil => exact ⟨p, hc, hp⟩
  | cons x more ih =>
    rcases caller_happen hc x with h | h | h
    · exact ih h hp
    · exact ih h .gone
    · refine ih h ?_
      cases hp with
      | registering | returned => exact .returned
      | gone => exact .gone

theorem subscriber_goes_on (hc : f.callers[c]? = some ⟨i, .subscribe kind handler, p⟩) :
    f.proceed c = ⟨(p.proceed i f.network).2,
      f.callers.set c ⟨i, .subscribe kind handler, .after (p.proceed i f.network).1⟩⟩ :=
  proceed_eq hc fun hp => by
    rw [(Phase.free rfl p).1] at hp
    cases hp

/-- No step of a subscription that fails registers or binds anything. -/
theorem failed_subscribe (h : f.Sound)
    (hc : f.callers[c]? = some ⟨i, .subscribe kind handler, p⟩) (more : List (Happening H))
    {e : BusError} (hfails : ((f.proceed c).run more).callers[c]? =
      some ⟨i, .subscribe kind handler, .returned (.error e)⟩) :
    (∀ j key, (f.proceed c).network.lookup? j key = f.network.lookup? j key) ∧
      (f.proceed c).network.broker.bindings = f.network.broker.bindings := by
  obtain ⟨bus, hb, -⟩ := h.fits c _ hc
  have hgoes := subscriber_goes_on hc
  have hlt := (List.getElem?_eq_some_iff.mp hc).1
  have hleaves := proceed_leaves i p f.network
  have hstep := proceed_subscribes i p f.network
  -- Once the kind is bound, nothing makes a failure of it.
  have hnever (hp : HasBound (Phase.after (p.proceed i f.network).1)) : False := by
    have hat : (f.proceed c).callers[c]? =
        some ⟨i, .subscribe kind handler, .after (p.proceed i f.network).1⟩ := by
      rw [hgoes]
      exact List.getElem?_set_self hlt
    obtain ⟨q, hq, hbound⟩ := hasBound_run hat hp more
    rw [hq] at hfails
    cases hfails
    cases hbound
  rw [hgoes]
  generalize (p.proceed i f.network).2 = t at hleaves hstep
  generalize Phase.after (p.proceed i f.network).1 = p' at hstep hnever
  cases hstep with
  | refused | admitted | returned | gone => exact ⟨fun _ _ => rfl, rfl⟩
  | unbound τ hbroker =>
    refine ⟨fun j key => ?_, congrArg (·.bindings) hbroker⟩
    have hnone : (.binding τ : Phase (.subscribe kind handler)).registers? = none := rfl
    rw [hleaves.lookup? hb, hnone, ite_self, Option.filter_none, Option.none_or]
  | bound => exact (hnever .registering).elim
  | registered => exact (hnever .returned).elim

theorem succeeded_subscribe (h : f.Sound)
    (hc : f.callers[c]? = some ⟨i, .subscribe kind handler, p⟩) (hp : p ≠ .returned (.ok ()))
    (hok : (f.proceed c).callers[c]? = some ⟨i, .subscribe kind handler, .returned (.ok ())⟩) :
    (f.proceed c).network.lookup? i kind.name = some { kind, handler } ∧
      (f.proceed c).network.broker.bindings = f.network.broker.bindings := by
  obtain ⟨bus, hb, -⟩ := h.fits c _ hc
  have hleaves := proceed_leaves i p f.network
  have hstep := proceed_subscribes i p f.network
  rw [subscriber_goes_on hc, List.getElem?_set_self (List.getElem?_eq_some_iff.mp hc).1] at hok
  rw [subscriber_goes_on hc]
  generalize (p.proceed i f.network).2 = t at hleaves hstep
  generalize Phase.after (p.proceed i f.network).1 = p' at hstep hok
  cases hok
  cases hstep with
  | returned => exact absurd rfl hp
  | registered =>
    refine ⟨?_, rfl⟩
    rw [hleaves.lookup?_registering hb, if_pos ⟨rfl, rfl⟩]

theorem Bound.subscriber (hbound : f.Bound kept) (h : f.Sound)
    (hc : f.callers[c]? = some ⟨i, .subscribe kind handler, p⟩) :
    (∀ j key, ¬(j = i ∧ key = kind.name) →
      (f.proceed c).network.lookup? j key = f.network.lookup? j key) ∧
    ∃ τ, f.network.topology? i = some τ ∧
      ((f.proceed c).network.broker.bindings = f.network.broker.bindings ∨
        (f.proceed c).network.broker.bindings =
          f.network.broker.bindings.insert (τ.binding kind.name)) := by
  obtain ⟨bus, hb, -⟩ := h.fits c _ hc
  have hsecured := hbound.callers c _ hc
  have hleaves := proceed_leaves i p f.network
  have hstep := proceed_subscribes i p f.network
  rw [subscriber_goes_on hc]
  refine ⟨fun j key hne => ?_, ?_⟩
  · rw [hleaves.lookup? hb]
    by_cases hji : j = i
    · have hkey : kind.name ≠ key := fun heq => hne ⟨hji, heq.symm⟩
      cases p <;> simp [hji, Phase.registers?, Registration.routingKey, Option.filter, hkey]
    · simp [hji]
  · generalize (p.proceed i f.network).2 = t at hstep
    generalize Phase.after (p.proceed i f.network).1 = p' at hstep
    have hτ := topology?_of_bus hb
    cases hstep with
    | refused | admitted | registered | returned | gone => exact ⟨_, hτ, .inl rfl⟩
    | unbound τ hbroker => exact ⟨_, hτ, .inl (congrArg (·.bindings) hbroker)⟩
    | bound τ hadded => exact ⟨τ, hsecured, .inr hadded⟩

end Floor

/-! ## Subscriptions at once -/

namespace Network
variable {H : Type} {i : Nat} {kind : EventKind} {handler : H}

/-- A subscription that nobody comes between registers and binds, or changes neither. -/
theorem subscribe_all_or_nothing (i : Nat) (kind : EventKind) (handler : H) (s : Network H) :
    ((subscribe i kind handler s).1 = .ok () ∧ ∃ τ, s.topology? i = some τ ∧
      (∀ j key, (subscribe i kind handler s).2.lookup? j key =
        if j = i ∧ key = kind.name then some { kind, handler } else s.lookup? j key) ∧
      (subscribe i kind handler s).2.broker.bindings =
        s.broker.bindings.insert (τ.binding kind.name)) ∨
    ((∃ e, (subscribe i kind handler s).1 = .error e) ∧
      (∀ j key, (subscribe i kind handler s).2.lookup? j key = s.lookup? j key) ∧
      (subscribe i kind handler s).2.broker.bindings = s.broker.bindings) := by
  let act (bus : Bus H) : Call BusError (Network H) Unit :=
    (calls i).bind bus.config.topology kind.name >>= fun _ =>
      modify (·.onBus i (withHandler kind handler))
  have hcall : subscribe i kind handler s = whileOpen i act s := rfl
  rw [hcall]
  rcases whileOpen_cases act s i with h | ⟨bus, hb, -, h⟩
  · rw [h]
    exact .inr ⟨⟨_, rfl⟩, fun _ _ => rfl, rfl⟩
  · rw [h]
    have hcalled := bind_called i bus.config.topology kind.name s
    have hbind := bind_broker i bus.config.topology kind.name s
    simp only [act]
    rw [Call.bind_apply]
    generalize (calls i).bind bus.config.topology kind.name s = bound at hcalled hbind ⊢
    obtain ⟨result, t⟩ := bound
    rcases hbind with ⟨rfl, hadded⟩ | ⟨e, rfl, hbroker⟩
    · have hleaves : (.registering : Phase (.subscribe kind handler)).Leaves i s
          (t.onBus i (withHandler kind handler)) := ⟨t, [], _, hcalled, .registered, rfl⟩
      exact .inl ⟨rfl, _, topology?_of_bus hb, hleaves.lookup?_registering hb,
        congrArg (·.bindings) hadded⟩
    · exact .inr ⟨⟨e, rfl⟩, hcalled.lookup?, congrArg (·.bindings) hbroker⟩

end Network

namespace Floor
open Network
variable {H : Type}

/-- Registered kinds are bound kinds. Whatever callers, dispatchers and operators do in between:
as long as no operator deletes the queue of a bus, what the bus has registered is bound to it. No
step of a subscriber touches other kinds, in registries or among bindings. If the subscription
fails, none of its steps has changed a registry or a binding. If it returns, it has registered its
handler, which is found until another is registered for the kind. And a subscription that nobody
comes between does all of this or nothing. -/
theorem registered_kinds_bound (xs : List (Happening H)) :
    let f := run {} xs
    let s := f.network
    (∀ (i : Nat) (bus : Bus H), s.buses[i]? = some bus →
      (∀ x ∈ xs, x ≠ .other (.beside (.operate (.deleteQueue bus.config.topology.queue.name)))) →
      ∀ key, bus.registry.contains key → bus.config.topology.binding key ∈ s.broker.bindings) ∧
    (∀ (c i : Nat) (kind : EventKind) (handler : H) (p : Phase (.subscribe kind handler)),
      f.callers[c]? = some ⟨i, .subscribe kind handler, p⟩ →
      let g := f.proceed c
      let t := g.network
      (∀ j key, ¬(j = i ∧ key = kind.name) → t.lookup? j key = s.lookup? j key) ∧
      (∃ τ, s.topology? i = some τ ∧ (t.broker.bindings = s.broker.bindings ∨
        t.broker.bindings = s.broker.bindings.insert (τ.binding kind.name))) ∧
      (∀ more e, (g.run more).callers[c]? =
          some ⟨i, .subscribe kind handler, .returned (.error e)⟩ →
        (∀ j key, t.lookup? j key = s.lookup? j key) ∧
          t.broker.bindings = s.broker.bindings) ∧
      (p ≠ .returned (.ok ()) →
        g.callers[c]? = some ⟨i, .subscribe kind handler, .returned (.ok ())⟩ →
        t.broker.bindings = s.broker.bindings ∧
        ∀ more, (∀ other ∈ g.registrations i more, other.kind ≠ kind) →
          (g.run more).network.lookup? i kind.name = some { kind, handler })) ∧
    ∀ (i : Nat) (kind : EventKind) (handler : H),
      let result := (subscribe i kind handler s).1
      let t := (subscribe i kind handler s).2
      (result = .ok () ∧ ∃ τ, s.topology? i = some τ ∧
        (∀ j key, t.lookup? j key =
          if j = i ∧ key = kind.name then some { kind, handler } else s.lookup? j key) ∧
        t.broker.bindings = s.broker.bindings.insert (τ.binding kind.name)) ∨
      ((∃ e, result = .error e) ∧ (∀ j key, t.lookup? j key = s.lookup? j key) ∧
        t.broker.bindings = s.broker.bindings) := by
  intro f s
  have hsound : f.Sound := sound_empty.run xs
  have hbound : f.Bound fun q => ∀ x ∈ xs, x ≠ .other (.beside (.operate (.deleteQueue q))) :=
    (bound_empty _).run sound_empty fun _ hq => hq
  refine ⟨fun i bus hb hkept key hkey => ?_, fun c i kind handler p hc => ?_,
    fun i kind handler => subscribe_all_or_nothing i kind handler s⟩
  · refine hbound.kinds i _ key (topology?_of_bus hb) hkept ?_
    rw [lookup?, hb]
    exact hkey
  · intro g t
    obtain ⟨hothers, hadds⟩ := hbound.subscriber hsound hc
    refine ⟨hothers, hadds, fun more e hfails => failed_subscribe hsound hc more hfails,
      fun hp hok => ?_⟩
    obtain ⟨hfound, hbindings⟩ := succeeded_subscribe hsound hc hp hok
    exact ⟨hbindings, fun more hmore => (hsound.proceed c).lookup?_stays hfound hmore⟩

/-- Declarations fail in the second subscription for a kind, and the third replaces its handler;
then the topology is restored. -/
theorem registered_kinds_bound_replaced :
    let before : List (Happening Nat) := [.other (.build { service := "s" } .receiver []),
      .call 0 (.subscribe .newCargoBooked 1), .proceed 0, .proceed 0, .proceed 0, .call 0 .start] ++
      List.replicate 4 (.proceed 1) ++ [.other (.beside (.operate (.failDeclarations "busy"))),
      .call 0 (.subscribe .newCargoBooked 2), .proceed 2]
    let between : List (Happening Nat) := [.proceed 2,
      .other (.beside (.operate (.failDeclarations none))), .call 0 (.subscribe .newCargoBooked 3),
      .proceed 3, .proceed 3]
    let after : List (Happening Nat) := .call 0 .restore :: List.replicate 8 (.proceed 4)
    let f := run {} before
    let g := run {} (before ++ between)
    let h := (g.proceed 3).run after
    let key := EventKind.newCargoBooked.name
    f.network.lookup? 0 key = some ⟨.newCargoBooked, 1⟩ ∧
    (f.proceed 2).network.lookup? 0 key = f.network.lookup? 0 key ∧
    (f.proceed 2).network.broker.bindings = f.network.broker.bindings ∧
    h.network.lookup? 0 key = some ⟨.newCargoBooked, 3⟩ ∧
    (Topology.forService "s").binding key ∈ h.network.broker.bindings := by
  intro before between after f g h key
  have hfailing : f.callers[2]? = some ⟨0, .subscribe .newCargoBooked 2,
      .binding (.forService "s")⟩ := by decide +kernel
  have hfailed : ((f.proceed 2).run []).callers[2]? = some ⟨0, .subscribe .newCargoBooked 2,
      .returned (.error (.subscriptionFailed "NewCargoBooked" (.declarationFailed
        "binding 's.queue' -> 'shipping' (NewCargoBooked)" "busy")))⟩ := by decide +kernel
  have hregistering : g.callers[3]? = some ⟨0, .subscribe .newCargoBooked 3, .registering⟩ := by
    decide +kernel
  have hregistered : (g.proceed 3).callers[3]? =
      some ⟨0, .subscribe .newCargoBooked 3, .returned (.ok ())⟩ := by decide +kernel
  have hnone : (g.proceed 3).registrations 0 after = [] := by decide +kernel
  have hrun : run {} (before ++ between ++ .proceed 3 :: after) = h := by
    rw [run_append, run_cons, happen]
  have hconfig : h.network.buses[0]?.map (·.config) = some { service := "s" } := by decide +kernel
  have hcontains : (h.network.buses[0]?.map (·.registry.contains key)) = some true := by
    decide +kernel
  obtain ⟨bus, hb, hbus⟩ := Option.map_eq_some_iff.mp hconfig
  have hfails := (registered_kinds_bound before).2.1 2 0 .newCargoBooked 2 _ hfailing
  obtain ⟨hlookup, hbindings⟩ := hfails.2.2.1 [] _ hfailed
  refine ⟨by decide +kernel, hlookup 0 key, hbindings, ?_, ?_⟩
  · have hstep := (registered_kinds_bound (before ++ between)).2.1 3 0 .newCargoBooked 3 _
      hregistering
    have hnew : (.registering : Phase (.subscribe .newCargoBooked 3)) ≠ .returned (.ok ()) := by
      simp
    obtain ⟨-, hfound⟩ := hstep.2.2.2 hnew hregistered
    refine hfound after fun other hother => ?_
    rw [hnone] at hother
    cases hother
  · have hbound := (registered_kinds_bound (before ++ between ++ .proceed 3 :: after)).1
    rw [hrun] at hbound
    have hbound := hbound 0 bus hb
    rw [hbus] at hbound
    refine hbound ?_ key ?_
    · rintro x hx rfl
      simp [before, between, after] at hx
    · rw [hb] at hcontains
      exact Option.some.inj hcontains

end Floor
end CargoEvents
