import CargoEvents.Proofs.Broker.Contents
import CargoEvents.Proofs.Broker.Holding

/-! # Queues that are deleted

A delivery outlives its queue, and knows it by name. Given back it goes to the head of the
queue of this name, if there is one then. So after a deletion it is lost, unless a queue is
declared under the name again before it is given back: then it waits in the new queue.
-/
namespace CargoEvents.Broker

variable {b b' : Broker} {s t tag other n : Nat} {q p : String} {a : Action} {held : Held}

def Waits (b : Broker) (queue : String) (n : Nat) : Prop := ∃ c ∈ b.ready queue, c.arrival = n

/-- Whether the action gives back what session `s` holds under the tag. -/
def Action.Returns (a : Action) (s tag : Nat) : Prop :=
  a = .resolve s tag (.nack true) ∨ a = .closeSession s

def returning (b : Broker) : Action → List Held
  | .resolve s tag (.nack true) => ((b.heldBy s).find? (·.tag == tag)).toList
  | .closeSession s => b.heldBy s
  | _ => []

/-- The copies that the action puts back into a queue: those it gives back that were handed out
from a queue of this name, and none if there is no queue of this name now. -/
def restored (b : Broker) (queue : String) (a : Action) : List Copy :=
  if b.queues.contains queue then
    ((b.returning a).filter (·.queue == queue)).map (·.copy.marked) else []

/-! ## What is given back -/

theorem mem_restored {c : Copy} : c ∈ b.restored p a ↔
    b.queues.contains p ∧ ∃ held ∈ b.returning a, held.queue = p ∧ held.copy.marked = c := by
  unfold restored
  split
  · rename_i hp
    simp [hp, and_assoc]
  · rename_i hp
    simp [hp]

theorem mem_returning (hm : held ∈ b.returning a) :
    ∃ s, held ∈ b.heldBy s ∧ a.Returns s held.tag := by
  unfold returning at hm
  split at hm
  · rename_i s tag
    have hfind := Option.mem_toList.mp hm
    obtain rfl : held.tag = tag := by simpa using List.find?_some hfind
    exact ⟨s, List.mem_of_find?_eq_some hfind, .inl rfl⟩
  · exact ⟨_, hm, .inr rfl⟩
  · cases hm

theorem Sound.returning_of_holdsCopy (h : b.Sound) (hheld : b.HoldsCopy s tag q n)
    (ha : a.Returns s tag) : ∃ held ∈ b.returning a, held.queue = q ∧ held.copy.arrival = n := by
  obtain ⟨held, hm, htag, hcopy⟩ := hheld
  rcases ha with rfl | rfl
  · cases hfind : (b.heldBy s).find? (·.tag == tag) with
    | none => exact absurd htag (by simpa using List.find?_eq_none.mp hfind held hm)
    | some found =>
      have hfound : found.tag = tag := by simpa using List.find?_some hfind
      refine ⟨found, by simp [returning, hfind], ?_⟩
      exact (h.holdsCopy_iff (List.mem_of_find?_eq_some hfind)).mp
        ⟨held, hm, htag.trans hfound.symm, hcopy⟩
  · exact ⟨held, hm, hcopy⟩

theorem Sound.unheld_of_refused (h : b.Sound) {how : Resolution} {e : BrokerError}
    (hr : b.resolve s tag how = .error e) : (b.heldBy s).find? (·.tag == tag) = none := by
  unfold resolve at hr
  split at hr
  · rename_i hs
    simp [heldBy, hs]
  · rename_i x hs
    rw [heldBy_eq hs]
    split at hr
    · rename_i hclosed
      rw [(h.session hs).closed (by simpa using hclosed)]
      rfl
    · split at hr
      · assumption
      · cases hr

theorem Sound.queues_returned (h : b.Sound) (ha : a.Returns s tag) :
    ∃ b₀ : Broker, b₀.queues = b.queues ∧
      (b.act a).queues = (b₀.giveBackAll (b.returning a)).queues := by
  rcases ha with rfl | rfl
  · cases hr : b.resolve s tag (.nack true) with
    | error e =>
      refine ⟨b, rfl, ?_⟩
      simp only [Broker.act, hr, after, returning, h.unheld_of_refused hr]
      rfl
    | ok b' =>
      obtain ⟨x, held, hs, -, hfind, rfl⟩ := resolve_eq_ok hr
      refine ⟨b.onSession s (·.release tag), rfl, ?_⟩
      simp only [Broker.act, hr, after, returning, heldBy_eq hs, hfind]
      rfl
  · cases hs : b.sessions[s]? with
    | none =>
      refine ⟨b, rfl, ?_⟩
      simp only [Broker.act, closeSession, returning, heldBy, hs]
      rfl
    | some x =>
      simp only [Broker.act, closeSession, returning, heldBy_eq hs, hs]
      by_cases ho : x.isOpen
      · refine ⟨b.onSession s Session.shut, rfl, ?_⟩
        rw [if_pos ho]
        rfl
      · refine ⟨b, rfl, ?_⟩
        rw [if_neg ho, (h.session hs).closed (Bool.eq_false_iff.mpr ho)]
        rfl

theorem Sound.ready_returned (h : b.Sound) (ha : a.Returns s tag) (queue : String) :
    (b.act a).ready queue = b.restored queue a ++ b.ready queue := by
  obtain ⟨b₀, hbefore, hafter⟩ := h.queues_returned ha
  rw [ready_congr hafter, restored]
  by_cases hq : b.queues.contains queue
  · rw [ready_giveBackAll fun _ _ _ => hbefore ▸ hq, if_pos hq, ready_congr hbefore]
  · have hq₀ : ¬(b₀.giveBackAll (b.returning a)).queues.contains queue := by
      rwa [giveBackAll_contains, hbefore]
    rw [ready_of_absent hq₀, if_neg hq, ready_of_absent hq]
    rfl

/-! ## What comes to wait -/

theorem Sound.mem_ready_act (h : b.Sound) {c : Copy} (hc : c ∈ (b.act a).ready p) :
    c ∈ b.ready p ∨ c.arrival = b.arrivals ∧ c.redelivered = false ∨ c ∈ b.restored p a := by
  have hreturned (s tag : Nat) (ha : a.Returns s tag) :
      c ∈ b.ready p ∨ c.arrival = b.arrivals ∧ c.redelivered = false ∨ c ∈ b.restored p a := by
    rw [h.ready_returned ha] at hc
    exact (List.mem_append.mp hc).symm.imp_right .inr
  generalize hb : b.act a = b' at hc
  have he : Effect b a b' := hb ▸ b.act_effect a
  cases he with
  | refused | opened | exchangeDeclared | qosSet | bound | faulted | settled => exact .inl hc
  | queueDeclared _ hq => exact .inl (ready_insert hq p ▸ hc)
  | published =>
    refine (mem_ready_route hc).imp_right fun hnew => .inl ?_
    exact ⟨congrArg Copy.arrival hnew, congrArg Copy.redelivered hnew⟩
  | handedOut =>
    rw [ready_handOut] at hc
    split at hc
    · exact .inl (List.mem_of_mem_tail hc)
    · exact .inl hc
  | returned => exact hreturned _ _ (.inl rfl)
  | shut => exact hreturned _ 0 (.inr rfl)
  | operated o =>
    cases o with
    | inject =>
      refine (mem_ready_route hc).imp_right fun hnew => .inl ?_
      exact ⟨congrArg Copy.arrival hnew, congrArg Copy.redelivered hnew⟩
    | deleteQueue name =>
      left
      by_cases hp : p = name
      · simp [Broker.operate, deleteQueue, signal, ready, hp] at hc
      · simpa [Broker.operate, deleteQueue, signal, ready, hp] using hc
    | cancelConsumers | failDeclarations | failPublishes | failNextDelivery => exact .inl hc

theorem contains_act (hq : (b.act a).queues.contains p) :
    b.queues.contains p ∨ ∃ s d, a = .declareQueue s d ∧ d.name = p := by
  obtain ⟨q, hq⟩ := contains_iff.mp hq
  rcases b.queue?_cases a p with hsame | ⟨s, d, rfl, hname, -⟩ | ⟨-, hnone⟩
  · exact .inl (contains_iff.mpr ⟨q, hsame ▸ hq⟩)
  · exact .inr ⟨s, d, rfl, hname⟩
  · cases hnone.symm.trans hq

theorem contains_run {actions : List Action} (hq : (b.run actions).queues.contains p) :
    b.queues.contains p ∨ ∃ s d, .declareQueue s d ∈ actions ∧ d.name = p := by
  induction actions generalizing b with
  | nil => exact .inl hq
  | cons a actions ih =>
    rcases ih hq with hq | ⟨s, d, hm, hd⟩
    · rcases contains_act hq with hq | ⟨s, d, rfl, hd⟩
      · exact .inl hq
      · exact .inr ⟨s, d, List.mem_cons_self, hd⟩
    · exact .inr ⟨s, d, List.mem_cons_of_mem _ hm, hd⟩

/-! ## Who holds a copy -/

/-- The numbers of the copies of a queue that a session holds. -/
def Session.numbers (x : Session) (queue : String) : List Nat :=
  (x.unacked.filter (·.queue == queue)).map (·.copy.arrival)

theorem HoldsCopy.exists_held (h : b.HoldsCopy s tag q n) :
    ∃ x, b.sessions[s]? = some x ∧
      ∃ held ∈ x.unacked.filter (·.queue == q), held.tag = tag ∧ held.copy.arrival = n := by
  obtain ⟨held, hm, htag, hq, hn⟩ := h
  cases hx : b.sessions[s]? with
  | none => simp [heldBy, hx] at hm
  | some x =>
    rw [heldBy_eq hx] at hm
    exact ⟨x, rfl, held, List.mem_filter.mpr ⟨hm, by simp [hq]⟩, htag, hn⟩

theorem Distinct.nodup_numbers (h : b.Distinct q) :
    (b.sessions.flatMap (·.numbers q)).Nodup := by
  have hnodup := h.nodup
  rw [custody, List.map_append, List.map_append] at hnodup
  have hunacked := (List.nodup_append.mp hnodup).2.1
  rw [List.map_map, List.map_map, unacked, List.filter_flatMap, List.map_flatMap] at hunacked
  exact hunacked

theorem Distinct.holder (h : b.Distinct q) (hs : b.HoldsCopy s tag q n)
    (ht : b.HoldsCopy t other q n) : t = s ∧ other = tag := by
  obtain ⟨hone, hapart⟩ := List.nodup_flatMap.mp h.nodup_numbers
  obtain ⟨x, hx, held, hheld, rfl, hn⟩ := hs.exists_held
  obtain ⟨y, hy, held', hheld', rfl, hn'⟩ := ht.exists_held
  have hsame : t = s := by
    have hmx : n ∈ x.numbers q := List.mem_map.mpr ⟨held, hheld, hn⟩
    have hmy : n ∈ y.numbers q := List.mem_map.mpr ⟨held', hheld', hn'⟩
    obtain ⟨hlx, rfl⟩ := List.getElem?_eq_some_iff.mp hx
    obtain ⟨hly, rfl⟩ := List.getElem?_eq_some_iff.mp hy
    have hdisjoint := List.pairwise_iff_getElem.mp hapart
    rcases Nat.lt_trichotomy s t with hlt | heq | hgt
    · exact (hdisjoint s t hlx hly hlt hmx hmy).elim
    · exact heq.symm
    · exact (hdisjoint t s hly hlx hgt hmy hmx).elim
  subst hsame
  obtain rfl : x = y := Option.some.inj (hx.symm.trans hy)
  have hnodup := hone x (List.mem_of_getElem? hx)
  exact ⟨rfl, congrArg Held.tag
    (List.inj_on_of_nodup_map hnodup hheld' hheld (hn'.trans hn.symm))⟩

theorem holdsCopy_act (h : b.Sound) (hheld : (b.act a).HoldsCopy s tag q n) :
    b.HoldsCopy s tag q n ∨ b.Waits q n := by
  have hcalm (ha : a.isCalm q) : b.HoldsCopy s tag q n := by
    rwa [HoldsCopy, act_heldBy ha] at hheld
  cases a with
  | poll st =>
    generalize hb : b.act (.poll st) = b' at hheld
    have he : Effect b (.poll st) b' := hb ▸ b.act_effect _
    cases he with
    | refused | faulted => exact .inl hheld
    | handedOut hx _ _ hready =>
      refine ((holdsCopy_handOut hx st.queue _).mp hheld).imp_right ?_
      rintro ⟨-, -, rfl, rfl⟩
      exact ⟨_, hready ▸ List.mem_cons_self, rfl⟩
  | resolve t other how =>
    left
    simp only [act] at hheld
    cases hr : b.resolve t other how with
    | error e => rwa [hr] at hheld
    | ok b' =>
      rw [hr] at hheld
      exact ((holdsCopy_resolve how hr).mp hheld).1
  | closeSession t => exact .inl ((holdsCopy_closeSession h t).mp hheld).1
  | operate o =>
    cases o with
    | deleteQueue => exact .inl hheld
    | inject | cancelConsumers | failDeclarations | failPublishes | failNextDelivery =>
      exact .inl (hcalm rfl)
  | openSession | declareExchange | declareQueue | setQos | bindQueue | publish | consume =>
    exact .inl (hcalm rfl)

/-! ## A delivery whose queue was deleted -/

/-- At most session `s` holds copy `n` of the queue, under the tag, and it does not wait. -/
structure Adrift (b : Broker) (s tag : Nat) (queue : String) (n : Nat) : Prop where
  distinct : b.Distinct queue
  arrived : n < b.arrivals
  absent : ¬b.Waits queue n
  holder : ∀ t other, b.HoldsCopy t other queue n → t = s ∧ other = tag

theorem Distinct.adrift_deleteQueue (h : b.Distinct q) (hheld : b.HoldsCopy s tag q n) :
    (b.act (.operate (.deleteQueue q))).Adrift s tag q n := by
  have hsame (t other : Nat) :
      (b.act (.operate (.deleteQueue q))).HoldsCopy t other q n ↔ b.HoldsCopy t other q n := .rfl
  obtain ⟨c, hc, rfl⟩ := hheld.answers
  refine ⟨h.act _, h.arrived c hc, ?_, fun t other ht => h.holder hheld ((hsame t other).mp ht)⟩
  rintro ⟨c', hc', -⟩
  have hempty : (b.act (.operate (.deleteQueue q))).ready q = [] :=
    ready_of_absent (by simp [Broker.act, Broker.operate, deleteQueue, signal])
  rw [hempty] at hc'
  cases hc'

/-- The copy comes to wait only when it is given back, and a queue of its name is there. -/
theorem Adrift.act (h : b.Adrift s tag q n) (a : Action) :
    (b.act a).Adrift s tag q n ∨
      (b.act a).Waits q n ∧ b.queues.contains q ∧ b.HoldsCopy s tag q n ∧ a.Returns s tag := by
  have hsound := h.distinct.sound
  by_cases hw : (b.act a).Waits q n
  · refine .inr ⟨hw, ?_⟩
    obtain ⟨c, hc, rfl⟩ := hw
    rcases hsound.mem_ready_act hc with hold | hnew | hback
    · exact (h.absent ⟨c, hold, rfl⟩).elim
    · exact (Nat.ne_of_lt h.arrived hnew.1).elim
    · obtain ⟨hq, held, hm, rfl, rfl⟩ := mem_restored.mp hback
      obtain ⟨t, hheld, ha⟩ := mem_returning hm
      have hcopy : b.HoldsCopy t held.tag held.queue held.copy.marked.arrival :=
        ⟨held, hheld, rfl, rfl, rfl⟩
      obtain ⟨rfl, rfl⟩ := h.holder t held.tag hcopy
      exact ⟨hq, hcopy, ha⟩
  · refine .inl ⟨h.distinct.act a, Nat.lt_of_lt_of_le h.arrived (b.act_arrivals a), hw, ?_⟩
    intro t other ht
    exact h.holder t other ((holdsCopy_act hsound ht).resolve_right h.absent)

theorem Sound.waits_of_returned (h : b.Sound) (hq : b.queues.contains q)
    (hheld : b.HoldsCopy s tag q n) (ha : a.Returns s tag) : (b.act a).Waits q n := by
  obtain ⟨held, hm, rfl, rfl⟩ := h.returning_of_holdsCopy hheld ha
  refine ⟨held.copy.marked, ?_, rfl⟩
  rw [h.ready_returned ha]
  exact List.mem_append_left _ (mem_restored.mpr ⟨hq, held, hm, rfl, rfl⟩)

theorem Adrift.returned (h : b.Adrift s tag q n) {actions : List Action}
    (hw : (b.run actions).Waits q n) :
    ∃ before a, before ++ [a] <+: actions ∧ (b.run before).queues.contains q ∧
      (b.run before).HoldsCopy s tag q n ∧ a.Returns s tag := by
  induction actions generalizing b with
  | nil => exact (h.absent hw).elim
  | cons a actions ih =>
    rcases h.act a with hadrift | ⟨-, hq, hheld, ha⟩
    · obtain ⟨before, x, hpre, hx⟩ := ih hadrift hw
      exact ⟨a :: before, x, List.cons_prefix_cons.mpr ⟨rfl, hpre⟩, hx⟩
    · exact ⟨[], a, List.cons_prefix_cons.mpr ⟨rfl, List.nil_prefix⟩, hq, hheld, ha⟩

/-- In any run: a delivery whose queue is deleted waits again exactly if it is given back, while
it is held, at a time when a queue of this name is there. Such a queue was declared after the
deletion. And what its session gives back goes to a queue of the name it was handed out from, if
there is one, and nowhere else. -/
theorem lost_unless_redeclared (before after : List Action) {s tag n : Nat} {q : String}
    (hheld : (run {} before).HoldsCopy s tag q n) :
    let gone := (run {} before).act (.operate (.deleteQueue q))
    ((∃ mid, mid <+: after ∧ (gone.run mid).Waits q n) ↔
      ∃ mid a, mid ++ [a] <+: after ∧ (gone.run mid).queues.contains q ∧
        (gone.run mid).HoldsCopy s tag q n ∧ a.Returns s tag) ∧
    (∀ mid, (gone.run mid).queues.contains q → ∃ t d, .declareQueue t d ∈ mid ∧ d.name = q) ∧
    ∀ mid a, a.Returns s tag → ∀ queue, ((gone.run mid).act a).ready queue =
      (gone.run mid).restored queue a ++ (gone.run mid).ready queue := by
  intro gone
  have hadrift : gone.Adrift s tag q n :=
    ((distinct_empty q).run before).adrift_deleteQueue hheld
  have hsound (mid : List Action) : (gone.run mid).Sound := hadrift.distinct.sound.run mid
  refine ⟨⟨?_, ?_⟩, fun mid hq => ?_, fun mid a ha queue => (hsound mid).ready_returned ha queue⟩
  · rintro ⟨mid, hmid, hw⟩
    obtain ⟨earlier, a, hpre, ha⟩ := hadrift.returned hw
    exact ⟨earlier, a, hpre.trans hmid, ha⟩
  · rintro ⟨mid, a, hmid, hq, hcopy, ha⟩
    refine ⟨mid ++ [a], hmid, ?_⟩
    rw [run_append]
    exact (hsound mid).waits_of_returned hq hcopy ha
  · refine (contains_run hq).resolve_left ?_
    simp [gone, act, operate, deleteQueue, signal]

def oneInFlight : List Action :=
  [.openSession, .declareExchange 0 { name := "x" }, .declareQueue 0 { name := "q" },
    .bindQueue 0 "q" "x" "k", .operate (.inject "x" "k" none []),
    .poll { session := 0, queue := "q", epoch := 0 }]

/-- The queue is declared again, and the session closes. -/
theorem lost_unless_redeclared_closing :
    (run {} oneInFlight).HoldsCopy 0 1 "q" 0 ∧
    ∃ mid, mid <+: [.declareQueue 0 { name := "q" }, .closeSession 0] ∧
      (((run {} oneInFlight).act (.operate (.deleteQueue "q"))).run mid).Waits "q" 0 := by
  have hflight : (run {} oneInFlight).HoldsCopy 0 1 "q" 0 :=
    ⟨_, List.mem_singleton_self _, rfl, rfl, rfl⟩
  refine ⟨hflight, (lost_unless_redeclared oneInFlight _ hflight).1.mpr ?_⟩
  exact ⟨[.declareQueue 0 { name := "q" }], .closeSession 0, List.prefix_refl _, rfl,
    ⟨_, List.mem_singleton_self _, rfl, rfl, rfl⟩, .inr rfl⟩

/-- A delivery that was in flight from a queue when it was deleted is given back to another queue
of its name. -/
theorem redeclared_gets_back :
    let copy : Copy := { arrival := 0, routingKey := "k", typeTag := none, body := [] }
    let gone := (run {} oneInFlight).act (.operate (.deleteQueue "q"))
    let again := gone.run [.declareQueue 0 { name := "q" }, .resolve 0 1 (.nack true)]
    gone.heldBy 0 = [{ tag := 1, queue := "q", copy }] ∧ ¬gone.queues.contains "q" ∧
      again.ready "q" = [copy.marked] := by
  decide +kernel

end CargoEvents.Broker
