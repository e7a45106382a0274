import CargoEvents.Proofs.Broker.Sound

/-! # Custody of copies

A queue answers for the copies that wait in it and for those handed out and not resolved.
Only routing adds to them and only a resolution for good takes one away (`act_custody`).
A ledger of what came and what was resolved therefore balances after every run.
-/
namespace CargoEvents.Broker
open Wire (Bytes)
open scoped List

def Copy.original (c : Copy) : Copy := { c with redelivered := false }

def Copy.marked (c : Copy) : Copy := { c with redelivered := true }

@[simp] theorem Copy.original_marked (c : Copy) : c.marked.original = c.original := rfl

/-- The copies that a queue answers for. -/
def custody (b : Broker) (queue : String) : List Copy :=
  (b.ready queue ++ (b.unacked queue).map (·.copy)).map Copy.original

def newCopy (b : Broker) (key : String) (typeTag : Option String) (body : Bytes) : Copy :=
  { arrival := b.arrivals, routingKey := key, typeTag, body }

/-- What a message brings to a queue: one copy if it is bound, else none. -/
def brought (b : Broker) (queue exchange key : String) (typeTag : Option String)
    (body : Bytes) : List Copy :=
  if { exchange, key, queue } ∈ b.bindings then [b.newCopy key typeTag body] else []

/-! ## What waits -/

theorem ready_congr {b b' : Broker} (h : b'.queues = b.queues) (queue : String) :
    b'.ready queue = b.ready queue := by
  unfold ready
  rw [h]

theorem ready_insert {b : Broker} {q : QueueDeclaration} (h : b.queues.get? q.name = none)
    (queue : String) :
    ({ b with queues := b.queues.insert q.name { declaration := q } } : Broker).ready queue =
      b.ready queue := by
  by_cases hq : queue = q.name
  · subst hq
    simp [ready, h]
  · simp [ready, hq]

@[simp] theorem ready_handOut (b : Broker) (s : Nat) (queue : String) (tag : Nat) (copy : Copy)
    (q : String) : (b.handOut s queue tag copy).ready q =
      if q = queue then (b.ready q).tail else b.ready q := by
  simp only [ready, handOut, Table.get?_modify]
  split
  · cases b.queues.get? q <;> rfl
  · rfl

theorem ready_giveBack {b : Broker} {held : Held} {queue : String}
    (h : held.queue = queue → b.queues.contains queue) :
    (b.giveBack held).ready queue =
      (if held.queue = queue then [held.copy.marked] else []) ++ b.ready queue := by
  by_cases he : held.queue = queue
  · obtain ⟨q, hq⟩ := Option.isSome_iff_exists.mp (h he)
    subst he
    simp [ready, giveBack, hq, Copy.marked]
  · simp [ready, giveBack, he, Ne.symm he]

theorem ready_giveBackAll {b : Broker} {helds : List Held} {queue : String}
    (h : ∀ held ∈ helds, held.queue = queue → b.queues.contains queue) :
    (b.giveBackAll helds).ready queue =
      (helds.filter (·.queue == queue)).map (·.copy.marked) ++ b.ready queue := by
  induction helds with
  | nil => rfl
  | cons held helds ih =>
    obtain ⟨hheld, hhelds⟩ := List.forall_mem_cons.mp h
    rw [giveBackAll_cons, ready_giveBack (by simpa using hheld), ih hhelds, List.filter_cons]
    by_cases he : held.queue = queue <;> simp [he]

theorem mem_targets {b : Broker} {queue exchange key : String} :
    queue ∈ b.targets exchange key ↔ { exchange, key, queue } ∈ b.bindings := by
  simp only [targets, List.mem_map, List.mem_filter, Bool.and_eq_true, beq_iff_eq]
  constructor
  · rintro ⟨x, ⟨hx, rfl, rfl⟩, rfl⟩
    exact hx
  · intro h
    exact ⟨_, ⟨h, rfl, rfl⟩, rfl⟩

/-- A message goes to the tail of every queue bound under its exchange and key, and to no
other. -/
theorem Sound.ready_route {b : Broker} (h : b.Sound) (exchange key : String)
    (typeTag : Option String) (body : Bytes) (queue : String) :
    (b.route exchange key typeTag body).ready queue =
      b.ready queue ++ b.brought queue exchange key typeTag body := by
  by_cases hb : { exchange, key, queue } ∈ b.bindings
  · obtain ⟨q, hq⟩ := Option.isSome_iff_exists.mp (h.bound _ hb)
    have ht : queue ∈ b.targets exchange key := mem_targets.mpr hb
    simp only [ready, route, Table.get?_mapValues, brought, if_pos hb]
    simp only at hq
    simp [hq, ht, newCopy]
  · have ht : queue ∉ b.targets exchange key := fun h => hb (mem_targets.mp h)
    simp only [ready, route, Table.get?_mapValues, brought, if_neg hb]
    cases b.queues.get? queue <;> simp [ht]

/-! ## What is handed out -/

theorem unacked_congr {b b' : Broker} (h : b'.sessions = b.sessions) (queue : String) :
    b'.unacked queue = b.unacked queue := by
  unfold unacked
  rw [h]

theorem unacked_onSession {b : Broker} {s : Nat} {x : Session} (hs : b.sessions[s]? = some x)
    (queue : String) : ∃ l r,
      b.unacked queue = l ++ x.unacked.filter (·.queue == queue) ++ r ∧
      ∀ f, (b.onSession s f).unacked queue = l ++ (f x).unacked.filter (·.queue == queue) ++ r := by
  obtain ⟨hlt, hget⟩ := List.getElem?_eq_some_iff.mp hs
  refine ⟨((b.sessions.take s).flatMap (·.unacked)).filter (·.queue == queue),
    ((b.sessions.drop (s + 1)).flatMap (·.unacked)).filter (·.queue == queue), ?_, fun f => ?_⟩
  · have hsplit : b.sessions = b.sessions.take s ++ x :: b.sessions.drop (s + 1) := by
      rw [← hget, List.getElem_cons_drop, List.take_append_drop]
    unfold unacked
    conv_lhs => rw [hsplit]
    simp
  · simp only [unacked, Broker.onSession, List.modify_eq_take_cons_drop hlt, hget]
    simp

theorem Session.Sound.perm_release {x : Session} (h : x.Sound) {tag : Nat} {held : Held}
    (hh : x.unacked.find? (·.tag == tag) = some held) :
    x.unacked.Perm (held :: (x.release tag).unacked) := by
  obtain ⟨htag, as, bs, hl, has⟩ := List.find?_eq_some_iff_append.mp hh
  have htag : held.tag = tag := by simpa using htag
  have hord := h.ordered
  rw [hl, List.map_append, List.map_cons] at hord
  have hbs : bs.filter (·.tag != tag) = bs := by
    refine List.filter_eq_self.mpr fun y hy => ?_
    have hlt := (List.pairwise_cons.mp (List.pairwise_append.mp hord).2.1).1 y.tag
      (List.mem_map_of_mem hy)
    simp only [bne_iff_ne, ne_eq]
    omega
  have has : as.filter (·.tag != tag) = as := by
    refine List.filter_eq_self.mpr fun y hy => ?_
    simpa using has y hy
  simp only [Session.release, hl, List.filter_append, has, List.filter_cons, htag, bne_self_eq_false,
    Bool.false_eq_true, if_false, hbs]
  exact List.perm_middle

theorem mem_unacked {b : Broker} {s : Nat} {x : Session} (hs : b.sessions[s]? = some x)
    {held : Held} (hm : held ∈ x.unacked) : held ∈ b.unacked held.queue := by
  refine List.mem_filter.mpr ⟨List.mem_flatMap.mpr ⟨x, List.mem_of_getElem? hs, hm⟩, ?_⟩
  simp

/-! ## The balance of an action -/

theorem custody_congr {b b' : Broker} {queue : String} (hr : b'.ready queue = b.ready queue)
    (hu : b'.unacked queue = b.unacked queue) : b'.custody queue = b.custody queue := by
  unfold custody
  rw [hr, hu]

theorem custody_onSession {b : Broker} {s : Nat} {x : Session} (hs : b.sessions[s]? = some x)
    (f : Session → Session) {queue : String} (lost : List Held)
    (h : (x.unacked.filter (·.queue == queue)).Perm
      (lost ++ (f x).unacked.filter (·.queue == queue))) :
    (b.custody queue).Perm
      (lost.map (·.copy.original) ++ (b.onSession s f).custody queue) := by
  obtain ⟨l, r, hb, hf⟩ := unacked_onSession hs queue
  have hready : (b.onSession s f).ready queue = b.ready queue := ready_congr rfl queue
  have hunacked : (b.unacked queue).Perm (lost ++ (b.onSession s f).unacked queue) := by
    rw [hb, hf f]
    calc l ++ x.unacked.filter (·.queue == queue) ++ r
      _ ~ l ++ (lost ++ (f x).unacked.filter (·.queue == queue)) ++ r :=
        ((h.append_left l).append_right r)
      _ ~ lost ++ (l ++ (f x).unacked.filter (·.queue == queue) ++ r) := by
        simpa [List.append_assoc] using
          (List.perm_append_comm_assoc l lost ((f x).unacked.filter (·.queue == queue) ++ r))
  have hmap := (hunacked.map (·.copy.original))
  simp only [custody, List.map_append, List.map_map, Function.comp_def, hready] at hmap ⊢
  exact (hmap.append_left _).trans (List.perm_append_comm_assoc ..)

theorem custody_giveBackAll {b : Broker} {helds : List Held} {queue : String}
    (h : ∀ held ∈ helds, held.queue = queue → b.queues.contains queue) :
    (b.giveBackAll helds).custody queue =
      (helds.filter (·.queue == queue)).map (·.copy.original) ++ b.custody queue := by
  have hu : (b.giveBackAll helds).unacked queue = b.unacked queue :=
    unacked_congr (giveBackAll_sessions b helds) queue
  simp [custody, ready_giveBackAll h, hu, Function.comp_def]

def arriving (b : Broker) (queue : String) : Action → List Copy
  | .publish s exchange m => match b.publish s exchange m with
    | .ok _ => b.brought queue exchange m.routingKey (tagOf m) m.body
    | .error _ => []
  | .operate (.inject exchange key typeTag body) => b.brought queue exchange key typeTag body
  | _ => []

def heldUnder (b : Broker) (queue : String) (s tag : Nat) : List Copy :=
  match b.sessions[s]?.bind fun x => x.unacked.find? (·.tag == tag) with
  | some held => if held.queue = queue then [held.copy.original] else []
  | none => []

/-- The copies of a queue that an action resolves for good: accepted, or refused and not
given back. -/
def settling (b : Broker) (queue : String) : Action → List Copy
  | .resolve s tag how => match b.resolve s tag how with
    | .ok _ => if how = .nack true then [] else b.heldUnder queue s tag
    | .error _ => []
  | _ => []

theorem custody_route {b : Broker} (h : b.Sound) (exchange key : String)
    (typeTag : Option String) (body : Bytes) (queue : String) :
    (b.custody queue ++ b.brought queue exchange key typeTag body).Perm
      ((b.route exchange key typeTag body).custody queue) := by
  have hu : (b.route exchange key typeTag body).unacked queue = b.unacked queue := rfl
  have hbrought : (b.brought queue exchange key typeTag body).map Copy.original =
      b.brought queue exchange key typeTag body := by
    unfold brought
    split <;> rfl
  simp only [custody, h.ready_route, hu, List.map_append, hbrought, List.append_assoc]
  exact List.perm_append_comm.append_left _

theorem custody_handOut {b : Broker} {s : Nat} {x : Session} (hs : b.sessions[s]? = some x)
    {q : String} {copy : Copy} {rest : List Copy} (hr : b.ready q = copy :: rest) (tag : Nat)
    (queue : String) : (b.custody queue).Perm ((b.handOut s q tag copy).custody queue) := by
  obtain ⟨l, r, hb, hf⟩ := unacked_onSession hs queue
  let new : Held := { tag, queue := q, copy }
  have hu : (b.handOut s q tag copy).unacked queue =
      l ++ (x.unacked ++ [new]).filter (·.queue == queue) ++ r :=
    hf fun x => { x with lastTag := tag, unacked := x.unacked ++ [new] }
  simp only [custody, ready_handOut, hu, hb, List.filter_append]
  by_cases hq : queue = q
  · -- The copy goes from the head of what waits to the end of what the session holds.
    have hnew : [new].filter (·.queue == queue) = [new] := by simp [new, hq]
    simp only [hnew, if_pos hq, hq ▸ hr, List.tail_cons, List.map_append, List.map_cons,
      List.append_assoc]
    grind
  · have hnew : [new].filter (·.queue == queue) = [] := by simp [new, Ne.symm hq]
    simp [hnew, hq]

theorem custody_release {b : Broker} (h : b.Sound) {s tag : Nat} {x : Session} {held : Held}
    (hs : b.sessions[s]? = some x) (hh : x.unacked.find? (·.tag == tag) = some held)
    (queue : String) :
    (b.custody queue).Perm ((if held.queue = queue then [held.copy.original] else []) ++
      (b.onSession s (·.release tag)).custody queue) := by
  have hp := ((h.session hs).perm_release hh).filter (·.queue == queue)
  rw [List.filter_cons] at hp
  by_cases hq : held.queue = queue
  · rw [if_pos hq]
    exact custody_onSession hs (·.release tag) [held] (by simpa [hq] using hp)
  · rw [if_neg hq]
    exact custody_onSession hs (·.release tag) [] (by simpa [hq] using hp)

theorem custody_resolve {b b' : Broker} (h : b.Sound) {s tag : Nat} {how : Resolution}
    {queue : String} (hq : b.unacked queue ≠ [] → b.queues.contains queue)
    (hr : b.resolve s tag how = .ok b') :
    (b.custody queue).Perm ((if how = .nack true then [] else b.heldUnder queue s tag) ++
      b'.custody queue) := by
  obtain ⟨x, held, hs, ho, hh, rfl⟩ := resolve_eq_ok hr
  have hrelease := custody_release h hs hh queue
  by_cases hn : how = .nack true
  · have hback : ∀ y ∈ [held], y.queue = queue → (b.onSession s (·.release tag)).queues.contains queue := by
      intro y hy he
      obtain rfl : y = held := by simpa using hy
      refine hq (List.ne_nil_of_mem (a := y) ?_)
      exact he ▸ mem_unacked hs (List.mem_of_find?_eq_some hh)
    have hgive := custody_giveBackAll hback
    simp only [hn, if_true, List.nil_append]
    refine hrelease.trans (List.Perm.of_eq ?_)
    refine Eq.trans ?_ (hgive.symm.trans (custody_congr rfl rfl))
    by_cases he : held.queue = queue <;> simp [he]
  · have hu : b.heldUnder queue s tag = if held.queue = queue then [held.copy.original] else [] := by
      simp [heldUnder, hs, hh]
    simp only [hn, if_false, hu]
    exact hrelease.trans (List.Perm.of_eq (congrArg _ (custody_congr rfl rfl)))

theorem custody_closeSession {b : Broker} {s : Nat} {x : Session} {queue : String}
    (hs : b.sessions[s]? = some x) (hq : b.unacked queue ≠ [] → b.queues.contains queue) :
    (b.custody queue).Perm
      (((b.onSession s Session.shut).giveBackAll x.unacked).custody queue) := by
  have hback : ∀ y ∈ x.unacked, y.queue = queue →
      (b.onSession s Session.shut).queues.contains queue := by
    intro y hy he
    exact hq (List.ne_nil_of_mem (a := y) (he ▸ mem_unacked hs hy))
  rw [custody_giveBackAll hback]
  exact custody_onSession hs Session.shut (x.unacked.filter (·.queue == queue))
    (by simp [Session.shut])

theorem custody_still {b b' : Broker} (hqs : b'.queues = b.queues) (hss : b'.sessions = b.sessions)
    (queue : String) : b'.custody queue = b.custody queue :=
  custody_congr (ready_congr hqs queue) (unacked_congr hss queue)

theorem custody_operate {b : Broker} (h : b.Sound) {queue : String} (o : Operation)
    (kept : o ≠ .deleteQueue queue) :
    (b.custody queue ++ b.arriving queue (.operate o)).Perm ((b.operate o).custody queue) := by
  cases o with
  | inject exchange key typeTag body =>
    exact (custody_route h ..).trans (.of_eq (custody_still rfl rfl queue).symm)
  | deleteQueue name =>
    have hne : queue ≠ name := fun he => kept (he ▸ rfl)
    have hr : (b.operate (.deleteQueue name)).ready queue = b.ready queue := by
      simp [operate, deleteQueue, signal, ready, hne]
    simp only [arriving, List.append_nil]
    exact .of_eq (custody_congr hr rfl).symm
  | cancelConsumers | failDeclarations | failPublishes | failNextDelivery =>
    simp only [arriving, List.append_nil]
    exact .of_eq (custody_still rfl rfl queue).symm

theorem Effect.custody {b b' : Broker} {a : Action} (he : Effect b a b') (queue : String)
    (hp : ∀ s exchange m, a ≠ .publish s exchange m) (hr : ∀ s tag how, a ≠ .resolve s tag how)
    (hc : ∀ s, a ≠ .closeSession s) (ho : ∀ o, a ≠ .operate o) :
    (b.custody queue).Perm (b'.custody queue) := by
  cases he with
  | refused => exact .refl _
  | opened =>
    have hu : b.openSession.unacked queue = b.unacked queue := by simp [unacked, openSession]
    have hc : b.openSession.custody queue = b.custody queue := custody_congr rfl hu
    exact .of_eq hc.symm
  | exchangeDeclared | bound | faulted => exact .of_eq (custody_still rfl rfl queue).symm
  | queueDeclared hs hn => exact .of_eq (custody_congr (ready_insert hn queue) rfl).symm
  | qosSet hs =>
    obtain ⟨x, hx, -⟩ := isOpen_iff.mp hs
    exact custody_onSession hx _ [] (.refl _)
  | published => exact (hp _ _ _ rfl).elim
  | handedOut hs _ _ hready => exact custody_handOut hs hready _ queue
  | settled | returned => exact (hr _ _ _ rfl).elim
  | shut => exact (hc _ rfl).elim
  | operated => exact (ho _ rfl).elim

/-- What a queue answers for after an action, together with what the action resolved, is
what it answered for before, together with what the action brought. -/
theorem act_custody {b : Broker} (h : b.Sound) {queue : String}
    (hq : b.unacked queue ≠ [] → b.queues.contains queue) (a : Action)
    (kept : a ≠ .operate (.deleteQueue queue)) :
    (b.custody queue ++ b.arriving queue a).Perm
      (b.settling queue a ++ (b.act a).custody queue) := by
  cases a with
  | publish s exchange m =>
    simp only [arriving, settling, act, List.nil_append]
    cases hp : b.publish s exchange m with
    | error e => simp [after]
    | ok b' =>
      obtain ⟨-, -, -, rfl⟩ := publish_eq_ok hp
      exact (custody_route h ..).trans (.of_eq (custody_still rfl rfl queue).symm)
  | resolve s tag how =>
    simp only [arriving, settling, act, List.append_nil]
    cases hr : b.resolve s tag how with
    | error e => simp [after]
    | ok b' => exact custody_resolve h hq hr
  | operate o => exact custody_operate h o fun ho => kept (ho ▸ rfl)
  | closeSession s =>
    simp only [arriving, settling, List.append_nil, List.nil_append]
    generalize hb : b.act (.closeSession s) = b'
    have he : Effect b (.closeSession s) b' := hb ▸ b.act_effect _
    cases he with
    | refused => exact .refl _
    | shut hs =>
      exact (custody_closeSession hs hq).trans (.of_eq (custody_still rfl rfl queue).symm)
  | openSession | declareExchange | declareQueue | setQos | bindQueue | consume | poll =>
    simp only [arriving, settling, List.append_nil, List.nil_append]
    exact (b.act_effect _).custody queue (by simp) (by simp) (by simp) (by simp)

end CargoEvents.Broker
