import CargoEvents.Proofs.Broker.Sound

/-! # What stands on the broker

An exchange stands for good once it is declared, a queue until an operator deletes it, and a
session's limit until it is set to another. A declaration of what stands does nothing, and no
declaration changes anything but the limit of its own session.
-/
namespace CargoEvents.Broker
variable {b b' b'' : Broker} {n : Nat} {a : Action}

def limit? (b : Broker) (n : Nat) : Option Nat := b.sessions[n]?.map (·.prefetch)

def setLimit (b : Broker) (n limit : Nat) : Broker :=
  b.onSession n fun x => { x with prefetch := limit }

theorem map_modify {α : Type} (g : Session → α) {s : Nat} {f : Session → Session}
    (h : b'.sessions = b.sessions.modify s f) (hf : ∀ x, g (f x) = g x) (n : Nat) :
    b'.sessions[n]?.map g = b.sessions[n]?.map g := by
  rw [h, List.getElem?_modify]
  by_cases hs : s = n
  · cases b.sessions[n]? <;> simp [hs, hf]
  · simp [hs]

theorem limit?_modify {s : Nat} {f : Session → Session}
    (h : b'.sessions = b.sessions.modify s f) (hf : ∀ x, (f x).prefetch = x.prefetch) :
    b'.limit? n = b.limit? n :=
  map_modify (·.prefetch) h hf n

theorem limit?_setLimit {s limit : Nat} :
    (b.setLimit s limit).limit? n = if s = n then (b.limit? n).map fun _ => limit else b.limit? n := by
  rw [limit?, limit?, setLimit, onSession, List.getElem?_modify]
  by_cases hs : s = n
  · cases b.sessions[n]? <;> simp [hs]
  · simp [hs]

theorem onSession_self {s : Nat} {x : Session} {f : Session → Session}
    (hs : b.sessions[s]? = some x) (hf : f x = x) : b.onSession s f = b := by
  have hsessions : b.sessions.modify s f = b.sessions := by
    refine List.ext_getElem? fun m => ?_
    rw [List.getElem?_modify]
    by_cases hm : s = m
    · subst hm
      simp [hs, hf]
    · simp [hm]
  rw [onSession, hsessions]

theorem setLimit_of_limit? {limit : Nat} (h : b.limit? n = some limit) : b.setLimit n limit = b := by
  obtain ⟨x, hx, rfl⟩ := Option.map_eq_some_iff.mp h
  exact onSession_self hx rfl

@[simp] theorem setLimit_setLimit (b : Broker) (n limit : Nat) :
    (b.setLimit n limit).setLimit n limit = b.setLimit n limit := by
  simp only [setLimit, onSession, List.modify_modify_eq]
  rfl

/-! ## Queues and their declarations -/

theorem queue?_mapReady {f : String → Queue → Queue}
    (hf : ∀ name q, (f name q).declaration = q.declaration) (name : String) :
    ((b.queues.mapValues f).get? name).map (·.declaration) = b.queue? name := by
  rw [queue?, Table.get?_mapValues, Option.map_map]
  congr 1
  exact funext fun q => hf name q

@[simp] theorem queue?_route (exchange key : String) (typeTag : Option String) (body : Wire.Bytes)
    (name : String) : (b.route exchange key typeTag body).queue? name = b.queue? name :=
  queue?_mapReady (fun _ _ => by split <;> rfl) name

@[simp] theorem queue?_handOut (s : Nat) (queue : String) (tag : Nat) (copy : Copy) (name : String) :
    (b.handOut s queue tag copy).queue? name = b.queue? name := by
  simp only [queue?, handOut, Table.get?_modify]
  split <;> cases b.queues.get? name <;> rfl

@[simp] theorem queue?_giveBack (held : Held) (name : String) :
    (b.giveBack held).queue? name = b.queue? name := by
  simp only [queue?, giveBack, Table.get?_modify]
  split <;> cases b.queues.get? name <;> rfl

@[simp] theorem queue?_giveBackAll (helds : List Held) (name : String) :
    (b.giveBackAll helds).queue? name = b.queue? name := by
  induction helds with
  | nil => rfl
  | cons held helds ih => simpa using ih

/-! ## What actions leave standing -/

@[simp] theorem giveBackAll_exchanges (b : Broker) (helds : List Held) :
    (b.giveBackAll helds).exchanges = b.exchanges := by
  rw [giveBackAll_eq]

/-- An exchange comes to be when it is declared, and nothing else becomes of it. -/
theorem exchange_cases (b : Broker) (a : Action) (name : String) :
    (b.act a).exchanges.get? name = b.exchanges.get? name ∨
      ∃ s x, a = .declareExchange s x ∧ x.name = name ∧ b.exchanges.get? name = none ∧
        (b.act a).exchanges.get? name = some x := by
  have he := act_effect b a
  generalize b.act a = b' at he
  cases he with
  | @exchangeDeclared s y hs hy =>
    by_cases hname : name = y.name
    · subst hname
      cases hold : b.exchanges.get? y.name with
      | none => exact .inr ⟨s, y, rfl, rfl, rfl, by simp⟩
      | some x =>
        obtain rfl : x = y := by simpa [hold] using hy
        exact .inl (by simp)
    · exact .inl (by simp [hname])
  | shut => exact .inl (by simp [signal, onSession])
  | operated o => cases o <;> exact .inl rfl
  | refused | opened | queueDeclared | qosSet | bound | published => exact .inl rfl
  | faulted | handedOut | settled | returned => exact .inl rfl

theorem exchange_act {name : String} {x : ExchangeDeclaration}
    (h : b.exchanges.get? name = some x) (a : Action) :
    (b.act a).exchanges.get? name = some x := by
  rcases b.exchange_cases a name with hsame | ⟨_, _, -, -, hnone, -⟩
  · exact hsame.trans h
  · cases hnone.symm.trans h

/-- A queue comes to be when it is declared and goes when it is deleted, and nothing else becomes
of its declaration. -/
theorem queue?_cases (b : Broker) (a : Action) (name : String) :
    (b.act a).queue? name = b.queue? name ∨
      (∃ s q, a = .declareQueue s q ∧ q.name = name ∧ b.queue? name = none ∧
        (b.act a).queue? name = some q) ∨
      a = .operate (.deleteQueue name) ∧ (b.act a).queue? name = none := by
  have he := act_effect b a
  generalize b.act a = b' at he
  cases he with
  | @queueDeclared s p hs hp =>
    by_cases hname : name = p.name
    · subst hname
      exact .inr (.inl ⟨s, p, rfl, rfl, by simp [queue?, hp], by simp [queue?]⟩)
    · exact .inl (by simp [queue?, hname])
  | published => exact .inl (queue?_route ..)
  | handedOut => exact .inl (queue?_handOut ..)
  | returned => exact .inl (queue?_giveBack ..)
  | shut => exact .inl (queue?_giveBackAll ..)
  | operated o =>
    cases o with
    | inject => exact .inl (queue?_route ..)
    | deleteQueue other =>
      by_cases hname : name = other
      · subst hname
        exact .inr (.inr ⟨rfl, by simp [operate, deleteQueue, signal, queue?]⟩)
      · exact .inl (by simp [operate, deleteQueue, signal, queue?, hname])
    | cancelConsumers | failDeclarations | failPublishes | failNextDelivery => exact .inl rfl
  | refused | opened | exchangeDeclared | qosSet | bound | faulted | settled => exact .inl rfl

theorem contains_iff {name : String} : b.queues.contains name ↔ ∃ q, b.queue? name = some q := by
  rw [Table.contains, Option.isSome_iff_exists, queue?]
  simp

theorem queue?_act {name : String} {q : QueueDeclaration} (h : b.queue? name = some q)
    (ha : a ≠ .operate (.deleteQueue name)) : (b.act a).queue? name = some q := by
  rcases b.queue?_cases a name with hsame | ⟨_, _, -, -, hnone, -⟩ | ⟨hdeleted, -⟩
  · exact hsame.trans h
  · cases hnone.symm.trans h
  · exact (ha hdeleted).elim

theorem limit?_act {limit : Nat} (h : b.limit? n = some limit)
    (ha : ∀ qos, a = .setQos n qos → qos.prefetchCount.toNat = limit) :
    (b.act a).limit? n = some limit := by
  have he := act_effect b a
  generalize b.act a = b' at he
  cases he with
  | opened =>
    obtain ⟨x, hx, rfl⟩ := Option.map_eq_some_iff.mp h
    simp [limit?, openSession, List.getElem?_append_left (List.getElem?_eq_some_iff.mp hx).1, hx]
  | @qosSet s qos hs =>
    refine limit?_setLimit.trans ?_
    by_cases hsn : s = n
    · subst hsn
      simp [h, ha qos rfl]
    · simpa [hsn] using h
  | handedOut | settled | returned => exact (limit?_modify rfl (by exact fun _ => rfl)).trans h
  | shut => exact (limit?_modify (giveBackAll_sessions _ _) (by exact fun _ => rfl)).trans h
  | operated o => cases o <;> exact h
  | refused | exchangeDeclared | queueDeclared | bound | published | faulted => exact h

/-! ## Declarations -/

/-- Whatever there was is there as it was; session `n` may have another limit. -/
structure Preserves (n : Nat) (b b' : Broker) : Prop where
  exchanges : ∀ name x, b.exchanges.get? name = some x → b'.exchanges.get? name = some x
  queues : ∀ name q, b.queues.get? name = some q → b'.queues.get? name = some q
  bindings : ∀ x ∈ b.bindings, x ∈ b'.bindings
  sessions : ∀ (m : Nat) (x : Session), b.sessions[m]? = some x → b'.sessions[m]? = some x ∨
    m = n ∧ ∃ limit, b'.sessions[m]? = some { x with prefetch := limit }
  others : { b' with
    exchanges := b.exchanges, queues := b.queues, bindings := b.bindings,
    sessions := b.sessions } = b

theorem Preserves.refl (n : Nat) (b : Broker) : Preserves n b b :=
  ⟨fun _ _ h => h, fun _ _ h => h, fun _ h => h, fun _ _ h => .inl h, rfl⟩

theorem Preserves.trans (h : Preserves n b b') (h' : Preserves n b' b'') : Preserves n b b'' := by
  refine ⟨fun name x hx => h'.exchanges name x (h.exchanges name x hx),
    fun name q hq => h'.queues name q (h.queues name q hq),
    fun x hx => h'.bindings x (h.bindings x hx), fun m x hx => ?_, ?_⟩
  · rcases h.sessions m x hx with hx' | ⟨rfl, limit, hx'⟩
    · exact h'.sessions m x hx'
    · rcases h'.sessions m _ hx' with hx'' | ⟨-, limit', hx''⟩
      · exact .inr ⟨rfl, limit, hx''⟩
      · exact .inr ⟨rfl, limit', hx''⟩
  · have hothers := h.others
    rw [← h'.others] at hothers
    exact hothers

theorem preserves_setLimit (b : Broker) (n limit : Nat) : Preserves n b (b.setLimit n limit) := by
  refine ⟨fun _ _ h => h, fun _ _ h => h, fun _ h => h, fun m x hx => ?_, rfl⟩
  rw [setLimit, onSession, List.getElem?_modify, hx]
  by_cases hm : n = m
  · exact .inr ⟨hm.symm, limit, by simp [hm]⟩
  · exact .inl (by simp [hm])

theorem preserves_declareExchange (b : Broker) (n : Nat) (x : ExchangeDeclaration) :
    Preserves n b (b.act (.declareExchange n x)) := by
  have hstands (name : String) (y : ExchangeDeclaration) (hy : b.exchanges.get? name = some y) :
      (b.act (.declareExchange n x)).exchanges.get? name = some y := exchange_act hy _
  have he := act_effect b (.declareExchange n x)
  generalize b.act (.declareExchange n x) = b' at hstands he
  cases he with
  | refused => exact .refl n b
  | exchangeDeclared => exact ⟨hstands, fun _ _ h => h, fun _ h => h, fun _ _ h => .inl h, rfl⟩

theorem preserves_declareQueue (b : Broker) (n : Nat) (q : QueueDeclaration) :
    Preserves n b (b.act (.declareQueue n q)) := by
  have he := act_effect b (.declareQueue n q)
  generalize b.act (.declareQueue n q) = b' at he
  cases he with
  | refused => exact .refl n b
  | queueDeclared hs hq =>
    refine ⟨fun _ _ h => h, fun name p hp => ?_, fun _ h => h, fun _ _ h => .inl h, rfl⟩
    have hname : name ≠ q.name := by
      rintro rfl
      cases hq.symm.trans hp
    simpa [hname] using hp

theorem setQos_sets (b : Broker) (n : Nat) (qos : Qos) : b.act (.setQos n qos) = b ∨
    b.act (.setQos n qos) = b.setLimit n qos.prefetchCount.toNat := by
  have he := act_effect b (.setQos n qos)
  generalize b.act (.setQos n qos) = b' at he
  cases he with
  | refused => exact .inl rfl
  | qosSet => exact .inr rfl

theorem preserves_setQos (b : Broker) (n : Nat) (qos : Qos) :
    Preserves n b (b.act (.setQos n qos)) := by
  rcases b.setQos_sets n qos with h | h
  · rw [h]
    exact .refl n b
  · rw [h]
    exact b.preserves_setLimit n _

/-! ## Declarations that return -/

theorem exchange_of_ok {x : ExchangeDeclaration} (h : b.declareExchange n x = .ok b') :
    b'.exchanges.get? x.name = some x := by
  unfold declareExchange at h
  split at h
  · obtain ⟨-, rfl⟩ := declaring_eq_ok h
    exact (Table.get?_insert ..).trans (if_pos rfl)
  · cases h

theorem queue?_of_ok {q : QueueDeclaration} (h : b.declareQueue n q = .ok b') :
    b'.queue? q.name = some q := by
  unfold declareQueue at h
  split at h
  · obtain ⟨hsame, rfl⟩ := declaring_eq_ok h
    split
    · rename_i hq
      obtain ⟨old, hold⟩ := Option.isSome_iff_exists.mp hq
      by_cases heq : old.declaration = q
      · simp [queue?, hold, heq]
      · simp [queue?, hold, heq] at hsame
    · simp [queue?]
  · cases h

theorem limit?_of_ok {qos : Qos} (h : b.setQos n qos = .ok b') :
    b'.limit? n = some qos.prefetchCount.toNat := by
  unfold setQos at h
  split at h
  · cases h
  · split at h
    · rename_i hs
      obtain ⟨x, hx, -⟩ := isOpen_iff.mp hs
      cases h
      simp [limit?, onSession, hx]
    · cases h

/-! ## Declarations of what stands -/

theorem exchanges_insert {x : ExchangeDeclaration} (h : b.exchanges.get? x.name = some x) :
    b.exchanges.insert x.name x = b.exchanges := by
  refine Table.ext_get? fun name => ?_
  rw [Table.get?_insert]
  split
  · rename_i hname
    rw [hname, h]
  · rfl

theorem declareExchange_idle {x : ExchangeDeclaration} (h : b.exchanges.get? x.name = some x)
    (n : Nat) : b.act (.declareExchange n x) = b := by
  have he := act_effect b (.declareExchange n x)
  generalize b.act (.declareExchange n x) = b' at he
  cases he with
  | refused => rfl
  | exchangeDeclared => rw [exchanges_insert h]

theorem declareQueue_idle {q : QueueDeclaration} (h : b.queue? q.name = some q) (n : Nat) :
    b.act (.declareQueue n q) = b := by
  have he := act_effect b (.declareQueue n q)
  generalize b.act (.declareQueue n q) = b' at he
  cases he with
  | refused => rfl
  | queueDeclared hs hq => simp [queue?, hq] at h

end CargoEvents.Broker
