import CargoEvents.Proofs.Broker.Limits
import CargoEvents.Proofs.Broker.Streams

/-! # Other limits

To set the limit of a session and then do something is to do it and then set the limit, whatever is
asked of the broker but another limit for that session. Polling goes by the limit in one place: a
stream that has a copy to take takes it if its session is not full.
-/
namespace CargoEvents.Broker

def TakesLimit (b : Broker) (s : Nat) : Prop := b.declarationFault = none ∧ b.isOpen s

def isFull (b : Broker) (s : Nat) : Bool := b.sessions[s]?.any (·.isFull)

/-- The stream would take a copy now if its session had room for it. -/
structure Due (b : Broker) (st : Stream) : Prop where
  looks : st.waitedAt ≠ some b.signals
  serves : b.Serves st
  unfailing : b.deliveryFaults = []
  waits : b.ready st.queue ≠ []

variable {b : Broker} {s limit : Nat} {a : Action} {st : Stream}

instance (b : Broker) (s : Nat) : Decidable (b.TakesLimit s) := inferInstanceAs (Decidable (_ ∧ _))

instance (b : Broker) (st : Stream) : Decidable (b.Serves st) := inferInstanceAs (Decidable (_ ∧ _))

theorem due_iff : b.Due st ↔ st.waitedAt ≠ some b.signals ∧ b.Serves st ∧ b.deliveryFaults = [] ∧
    b.ready st.queue ≠ [] :=
  ⟨fun h => ⟨h.looks, h.serves, h.unfailing, h.waits⟩, fun ⟨hw, hs, hf, hr⟩ => ⟨hw, hs, hf, hr⟩⟩

instance (b : Broker) (st : Stream) : Decidable (b.Due st) := decidable_of_iff _ due_iff.symm

theorem TakesLimit.lt (h : b.TakesLimit s) : s < b.sessions.length := by
  obtain ⟨x, hx, -⟩ := isOpen_iff.mp h.2
  exact (List.getElem?_eq_some_iff.mp hx).1

/-! ## Sessions under another limit -/

theorem sessions_setLimit (b : Broker) (s limit n : Nat) : (b.setLimit s limit).sessions[n]? =
    b.sessions[n]?.map fun x => if s = n then { x with prefetch := limit } else x := by
  rw [setLimit, onSession, List.getElem?_modify]
  by_cases hs : s = n
  · simp [hs]
  · simp [hs]

theorem map_setLimit {α : Type} {g : Session → α}
    (hg : ∀ x p, g { x with prefetch := p } = g x) (n : Nat) :
    (b.setLimit s limit).sessions[n]?.map g = b.sessions[n]?.map g :=
  map_modify g rfl (fun x => hg x limit) n

@[simp] theorem isOpen_setLimit (b : Broker) (s limit n : Nat) :
    (b.setLimit s limit).isOpen n = b.isOpen n :=
  isOpen_congr (map_setLimit (by exact fun _ _ => rfl) n)

@[simp] theorem lastTag_setLimit (b : Broker) (s limit n : Nat) :
    (b.setLimit s limit).lastTag n = b.lastTag n :=
  congrArg (·.getD 0) (map_setLimit (by exact fun _ _ => rfl) n)

theorem onSession_setLimit {n : Nat} {g : Session → Session}
    (hg : ∀ x p, g { x with prefetch := p } = { g x with prefetch := p }) :
    (b.setLimit s limit).onSession n g = (b.onSession n g).setLimit s limit := by
  have hsessions : (b.sessions.modify s fun x => { x with prefetch := limit }).modify n g =
      (b.sessions.modify n g).modify s fun x => { x with prefetch := limit } := by
    refine List.ext_getElem? fun m => ?_
    simp only [List.getElem?_modify, Option.map_eq_map, Option.map_map]
    refine congrArg (Option.map · _) (funext fun x => ?_)
    dsimp only [Function.comp]
    split <;> split
    · exact hg x limit
    all_goals rfl
  simp only [setLimit, onSession, hsessions]

theorem unseen_setLimit (s limit : Nat) : Unseen (·.setLimit s limit) where
  apart _ _ := rfl
  signal _ := rfl
  cancelConsumers _ := rfl
  session _ n := map_setLimit (by exact fun _ _ => rfl) n
  onSession _ _ _ hg := (onSession_setLimit hg).symm

theorem setLimit_twice (b : Broker) (s limit p : Nat) :
    (b.setLimit s limit).setLimit s p = b.setLimit s p := by
  simp only [setLimit, onSession, List.modify_modify_eq]
  rfl

theorem act_setQos (b : Broker) (s : Nat) (qos : Qos) : b.act (.setQos s qos) =
    if b.TakesLimit s then b.setLimit s qos.prefetchCount.toNat else b := by
  by_cases ht : b.TakesLimit s
  · rw [if_pos ht]
    simp only [act, setQos, ht.1, ht.2, if_true]
    rfl
  · rw [if_neg ht]
    cases hf : b.declarationFault with
    | some reason => simp only [act, setQos, hf, after]
    | none =>
      have hs : ¬b.isOpen s := fun hs => ht ⟨hf, hs⟩
      simp only [act, setQos, hf, if_neg hs, after]

/-! ## Calls -/

theorem takesLimit_setLimit {n : Nat} : (b.setLimit s limit).TakesLimit n ↔ b.TakesLimit n := by
  rw [TakesLimit, TakesLimit, isOpen_setLimit]
  rfl

theorem setLimit_comm {n p : Nat} (hn : n ≠ s) :
    (b.setLimit s limit).setLimit n p = (b.setLimit n p).setLimit s limit := by
  simp only [setLimit, onSession, List.modify_modify_ne _ _ _ hn.symm]

theorem openSession_setLimit (hs : s < b.sessions.length) :
    (b.setLimit s limit).openSession = b.openSession.setLimit s limit := by
  have : Inhabited Session := ⟨{}⟩
  simp only [openSession, setLimit, onSession, List.modify_eq_set, List.set_append_left _ _ hs,
    List.getElem?_append_left hs]

/-- All that is asked of the broker but polling, and but another limit for the session. -/
theorem act_setLimit (hs : s < b.sessions.length) (ha : ∀ st, a ≠ .poll st)
    (hset : ∀ qos, a = .setQos s qos → ¬b.TakesLimit s) :
    (b.setLimit s limit).act a = (b.act a).setLimit s limit := by
  by_cases hq : ∃ n qos, a = .setQos n qos
  · obtain ⟨n, qos, rfl⟩ := hq
    rw [act_setQos, act_setQos]
    by_cases ht : b.TakesLimit n
    · have hn : n ≠ s := by
        rintro rfl
        exact hset qos rfl ht
      rw [if_pos ht, if_pos (takesLimit_setLimit.mpr ht), setLimit_comm hn]
    · rw [if_neg ht, if_neg (mt takesLimit_setLimit.mp ht)]
  · by_cases hnew : a = .openSession
    · subst hnew
      exact openSession_setLimit hs
    · exact (unseen_setLimit s limit).act ha hnew fun n qos h => hq ⟨n, qos, h⟩

theorem act_setQos_setLimit (ht : b.TakesLimit s) (qos : Qos) :
    (b.setLimit s limit).act (.setQos s qos) = b.act (.setQos s qos) := by
  rw [act_setQos, act_setQos, if_pos ht, if_pos (takesLimit_setLimit.mpr ht), setLimit_twice]

theorem opens_setLimit (b : Broker) (s limit : Nat) (a : Action) :
    (b.setLimit s limit).opens a = b.opens a := by
  cases a with
  | consume n queue =>
    simp only [opens, consume, isOpen_setLimit]
    rfl
  | _ => rfl

/-! ## Polling -/

theorem serves_setLimit : (b.setLimit s limit).Serves st ↔ b.Serves st := by
  rw [Serves, Serves, isOpen_setLimit]
  rfl

theorem Due.setLimit (h : b.Due st) (s limit : Nat) : (b.setLimit s limit).Due st :=
  ⟨h.looks, serves_setLimit.mpr h.serves, h.unfailing, h.waits⟩

theorem Due.poll (h : b.Due st) : ∃ copy rest, b.ready st.queue = copy :: rest ∧
    b.poll st = if b.isFull st.session then (.pending, { st with waitedAt := some b.signals }, b)
      else (.delivery (copy.delivery (b.lastTag st.session + 1)), { st with waitedAt := none },
        b.handOut st.session st.queue (b.lastTag st.session + 1) copy) := by
  obtain ⟨x, hx, ho⟩ := isOpen_iff.mp h.serves.2
  obtain ⟨copy, rest, hr⟩ := List.exists_cons_of_ne_nil h.waits
  refine ⟨copy, rest, hr, ?_⟩
  have hfull : b.isFull st.session = x.isFull := by simp [isFull, hx]
  rw [hfull, lastTag_eq hx]
  by_cases hf : x.isFull
  · simp [Broker.poll, look, h.looks, hx, ho, h.serves.1, h.unfailing, hr, hf]
  · simp [Broker.poll, look, h.looks, hx, ho, h.serves.1, h.unfailing, hr, hf]

theorem look_of_fault {reason : String} {later : List String} (hs : b.Serves st)
    (hf : b.deliveryFaults = reason :: later) :
    b.look st = (.fault (.consumeFailed reason), { b with deliveryFaults := later }) := by
  obtain ⟨x, hx, ho⟩ := isOpen_iff.mp hs.2
  simp [look, hx, ho, hs.1, hf]

theorem look_of_empty (hs : b.Serves st) (hf : b.deliveryFaults = [])
    (hr : b.ready st.queue = []) : b.look st = (.pending, b) := by
  obtain ⟨x, hx, ho⟩ := isOpen_iff.mp hs.2
  simp [look, hx, ho, hs.1, hf, hr]

theorem poll_setLimit_of_not_due (h : ¬b.Due st) : (b.setLimit s limit).poll st =
    ((b.poll st).1, (b.poll st).2.1, (b.poll st).2.2.setLimit s limit) := by
  by_cases hw : st.waitedAt = some b.signals
  · have hw' : st.waitedAt = some (b.setLimit s limit).signals := hw
    rw [Broker.poll, Broker.poll, if_pos hw, if_pos hw']
  · have hw' : st.waitedAt ≠ some (b.setLimit s limit).signals := hw
    rw [Broker.poll, Broker.poll, if_neg hw, if_neg hw']
    by_cases hs : b.Serves st
    · cases hf : b.deliveryFaults with
      | cons reason later =>
        rw [look_of_fault hs hf, look_of_fault (serves_setLimit.mpr hs) hf]
        rfl
      | nil =>
        have hr : b.ready st.queue = [] := by_contra fun hr => h ⟨hw, hs, hf, hr⟩
        rw [look_of_empty hs hf hr, look_of_empty (serves_setLimit.mpr hs) hf hr]
        rfl
    · rw [look_of_not_serves hs, look_of_not_serves (mt serves_setLimit.mp hs)]

theorem handOut_setLimit (n : Nat) (queue : String) (tag : Nat) (copy : Copy) :
    (b.setLimit s limit).handOut n queue tag copy =
      (b.handOut n queue tag copy).setLimit s limit :=
  onSession_setLimit (b := { b with queues := b.queues.modify queue fun q =>
    { q with ready := q.ready.tail } }) fun _ _ => rfl

/-- Polling goes by the limit only if it decides whether the session has room for a copy. -/
theorem poll_setLimit
    (h : b.Due st → b.isFull st.session = (b.setLimit s limit).isFull st.session) :
    (b.setLimit s limit).poll st =
      ((b.poll st).1, (b.poll st).2.1, (b.poll st).2.2.setLimit s limit) := by
  by_cases hd : b.Due st
  · obtain ⟨copy, rest, hr, hpoll⟩ := hd.poll
    obtain ⟨copy', rest', hr', hpoll'⟩ := (hd.setLimit s limit).poll
    obtain ⟨rfl, rfl⟩ := List.cons.inj (hr.symm.trans hr')
    rw [hpoll, hpoll', ← h hd, lastTag_setLimit, handOut_setLimit]
    split <;> rfl
  · exact poll_setLimit_of_not_due hd

end CargoEvents.Broker
