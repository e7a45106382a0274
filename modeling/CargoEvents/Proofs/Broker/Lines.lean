import CargoEvents.Proofs.Broker.Standing
import CargoEvents.Proofs.Broker.Waiting

/-! # Queues that are worked off one at a time

Let one session alone get the copies of a queue, and never more than one delivery at a time. Then
what it holds of the queue followed by what waits is a line in the order of arrival
(`InLine`): a copy leaves the line only at its front, by being resolved, and what is given back
goes to the front again. So no copy is handed out before all that arrived earlier are resolved.
-/
namespace CargoEvents.Broker
open scoped List

/-- The action leaves the queue. Should it hand out a delivery, then one of this queue goes to
session `s`, and one to session `s`, of whatever queue, goes there while its limit is one. -/
def OneByOne (b : Broker) (s : Nat) (queue : String) (a : Action) : Prop :=
  a ≠ .operate (.deleteQueue queue) ∧
    ∀ y ∈ b.yielded a,
      (y.1.queue = queue → y.1.session = s) ∧ (y.1.session = s → b.limit? s = some 1)

/-- The queue is never deleted in the run, and session `s` alone consumes it, with a limit of one
from its first delivery on. -/
def Orderly (b : Broker) (s : Nat) (queue : String) : List Action → Prop
  | [] => True
  | a :: actions => b.OneByOne s queue a ∧ (b.act a).Orderly s queue actions

instance (b : Broker) (s : Nat) (queue : String) (a : Action) : Decidable (b.OneByOne s queue a) :=
  inferInstanceAs (Decidable (_ ∧ _))

instance Orderly.decidable (b : Broker) (s : Nat) (queue : String) :
    (actions : List Action) → Decidable (b.Orderly s queue actions)
  | [] => .isTrue trivial
  | a :: actions =>
    have := Orderly.decidable (b.act a) s queue actions
    inferInstanceAs (Decidable (_ ∧ _))

def taken (b : Broker) (s : Nat) (queue : String) : List Held :=
  (b.heldBy s).filter (·.queue == queue)

def line (b : Broker) (s : Nat) (queue : String) : List Copy :=
  (b.taken s queue).map (·.copy) ++ b.ready queue

/-- Session `s` alone holds copies of the queue, and at most one delivery in all. The line is in
the order of arrival. -/
structure InLine (b : Broker) (s : Nat) (queue : String) : Prop where
  steady : b.Steady queue
  alone : ∀ t, t ≠ s → ∀ held ∈ b.heldBy t, held.queue ≠ queue
  single : (b.heldBy s).length ≤ 1
  ordered : ((b.line s queue).map (·.arrival)).Pairwise (· < ·)

variable {b : Broker} {s t tag m n : Nat} {queue : String} {a : Action} {actions : List Action}

theorem inLine_empty (s : Nat) (queue : String) : InLine {} s queue :=
  ⟨steady_empty queue, fun _ _ held hm => absurd hm (by simp [heldBy]), by simp [heldBy],
    by simp [line, taken, heldBy, ready]⟩

/-! ## Orderly runs -/

theorem Orderly.append {before after : List Action} (h : b.Orderly s queue (before ++ after)) :
    b.Orderly s queue before ∧ (b.run before).Orderly s queue after := by
  induction before generalizing b with
  | nil => exact ⟨trivial, h⟩
  | cons a before ih =>
    obtain ⟨ha, hrest⟩ := h
    obtain ⟨hbefore, hafter⟩ := ih hrest
    exact ⟨⟨ha, hbefore⟩, hafter⟩

theorem Orderly.kept (h : b.Orderly s queue actions) :
    ∀ a ∈ actions, a ≠ .operate (.deleteQueue queue) := by
  induction actions generalizing b with
  | nil => exact fun a ha => absurd ha List.not_mem_nil
  | cons a actions ih => exact List.forall_mem_cons.mpr ⟨h.1.1, ih h.2⟩

/-! ## What a session holds -/

theorem heldBy_handOut {x : Session} (hs : b.sessions[s]? = some x) (q : String) (tag : Nat)
    (copy : Copy) (t : Nat) :
    (b.handOut s q tag copy).heldBy t =
      b.heldBy t ++ if t = s then [{ tag, queue := q, copy }] else [] := by
  refine (heldBy_modify rfl hs t).trans ?_
  split
  · rename_i hts
    rw [hts, heldBy_eq hs]
  · exact (List.append_nil _).symm

theorem Sound.heldBy_resolve (h : b.Sound) (how : Resolution) (t : Nat) :
    (b.act (.resolve s tag how)).heldBy t =
      if t = s then (b.heldBy s).filter (·.tag != tag) else b.heldBy t := by
  simp only [Broker.act]
  cases hr : b.resolve s tag how with
  | error e =>
    rw [filter_unheld (h.unheld_of_refused hr)]
    split
    · rename_i hts
      rw [hts]
      rfl
    · rfl
  | ok b' =>
    obtain ⟨x, held, hs, -, -, rfl⟩ := resolve_eq_ok hr
    rw [heldBy_eq hs]
    refine heldBy_modify (f := (·.release tag)) ?_ hs t
    split <;> rfl

theorem Sound.heldBy_act (h : b.Sound) (hp : ∀ st, a ≠ .poll st) (t : Nat) :
    (b.act a).heldBy t <+ b.heldBy t := by
  have hcalm (ha : a.isCalm "") : (b.act a).heldBy t <+ b.heldBy t := by
    rw [act_heldBy ha]
  cases a with
  | poll st => exact (hp st rfl).elim
  | resolve u tag how =>
    rw [h.heldBy_resolve how t]
    split
    · rename_i htu
      exact htu ▸ List.filter_sublist
    · exact .refl _
  | closeSession u =>
    simp only [Broker.act, heldBy_closeSession h]
    split
    · exact List.nil_sublist _
    · exact .refl _
  | operate o =>
    cases o with
    | deleteQueue name => exact .refl _
    | _ => exact hcalm rfl
  | _ => exact hcalm rfl

theorem Sound.returning_act (h : b.Sound) (single : (b.heldBy s).length ≤ 1)
    (ha : a.Returns s tag) :
    (b.act a).heldBy s ++ b.returning a <+ b.heldBy s := by
  rcases ha with rfl | rfl
  · rw [h.heldBy_resolve, if_pos rfl, returning]
    cases hheld : b.heldBy s with
    | nil => exact .refl _
    | cons held rest =>
      obtain rfl : rest = [] := by simpa [hheld] using single
      by_cases htag : held.tag = tag <;> simp [htag]
  · simp [Broker.act, heldBy_closeSession h, returning]

theorem taken_poll {st : Stream} (ha : b.OneByOne s queue (.poll st)) :
    ((b.act (.poll st)).taken s queue).map (·.copy.arrival) =
      (b.taken s queue).map (·.copy.arrival) ++ (b.handing queue (.poll st)).map (·.arrival) := by
  rcases b.poll_cases st with ⟨hnone, -, hsessions⟩ | ⟨x, copy, rest, hs, -, -, hy, hact⟩
  · simp [taken, heldBy, handing, hnone, hsessions]
  · have hto : st.queue = queue → st.session = s := (ha.2 _ hy).1
    rw [taken, hact, heldBy_handOut hs, handing, hy, taken, List.filter_append, List.map_append]
    congr 1
    by_cases hq : st.queue = queue
    · simp [hq, hto hq, Copy.delivery]
    · split <;> simp [hq]

theorem InLine.taken_act (h : b.InLine s queue) (hp : ∀ st, a ≠ .poll st) :
    ((b.act a).taken s queue).map (·.copy.arrival) ++ (b.restored queue a).map (·.arrival) <+
      (b.taken s queue).map (·.copy.arrival) := by
  have hsound := h.steady.sound
  cases hback : b.restored queue a with
  | nil =>
    rw [List.map_nil, List.append_nil]
    exact ((hsound.heldBy_act hp s).filter _).map _
  | cons c rest =>
    obtain ⟨hq, held, hm, hqueue, -⟩ := mem_restored.mp (hback ▸ List.mem_cons_self)
    obtain ⟨t, hheld, hreturns⟩ := mem_returning hm
    -- Nobody else holds what could be put back into the queue.
    obtain rfl : t = s := by_contra fun hts => h.alone t hts held hheld hqueue
    have hall := ((hsound.returning_act h.single hreturns).filter (·.queue == queue)).map
      (·.copy.arrival)
    rw [← hback, restored, if_pos hq]
    simpa [taken, Copy.marked, Function.comp_def] using hall

/-! ## The line -/

theorem answers_of_taken {held : Held} (hm : held ∈ b.taken s queue) :
    b.Answers queue held.copy.arrival := by
  obtain ⟨hheld, hq⟩ := List.mem_filter.mp hm
  have hcopy : b.HoldsCopy s held.tag queue held.copy.arrival :=
    ⟨held, hheld, rfl, beq_iff_eq.mp hq, rfl⟩
  exact hcopy.answers

theorem answers_of_line {c : Copy} (hc : c ∈ b.line s queue) : b.Answers queue c.arrival := by
  rcases List.mem_append.mp hc with hc | hc
  · obtain ⟨held, hm, rfl⟩ := List.mem_map.mp hc
    exact answers_of_taken hm
  · exact answers_of_ready hc

/-- An action may take copies out of the line. What arrives goes to its end. -/
theorem InLine.line_act (h : b.InLine s queue) (ha : b.OneByOne s queue a) :
    ((b.act a).line s queue).map (·.arrival) <+
      (b.line s queue ++ b.arriving queue a).map (·.arrival) := by
  simp only [line, List.map_append, List.map_map]
  by_cases hp : ∃ st, a = .poll st
  · obtain ⟨st, rfl⟩ := hp
    calc ((b.act (.poll st)).taken s queue).map (·.copy.arrival) ++
          ((b.act (.poll st)).ready queue).map (·.arrival)
      _ = (b.taken s queue).map (·.copy.arrival) ++ ((b.handing queue (.poll st)).map (·.arrival) ++
          ((b.act (.poll st)).ready queue).map (·.arrival)) := by
        rw [taken_poll ha, List.append_assoc]
      _ = (b.taken s queue).map (·.copy.arrival) ++ (b.ready queue).map (·.arrival) := by
        rw [b.ready_poll st queue]
      _ <+ _ := List.sublist_append_left _ _
  · have hp (st : Stream) : a ≠ .poll st := fun hst => hp ⟨st, hst⟩
    have hback := h.taken_act hp
    have hr := h.steady.sound.ready_act ha.1 hp
    calc ((b.act a).taken s queue).map (·.copy.arrival) ++
          ((b.act a).ready queue).map (·.arrival)
      _ = (((b.act a).taken s queue).map (·.copy.arrival) ++
          (b.restored queue a).map (·.arrival)) ++
          ((b.ready queue).map (·.arrival) ++ (b.arriving queue a).map (·.arrival)) := by
        rw [hr]
        simp
      _ <+ (b.taken s queue).map (·.copy.arrival) ++
          ((b.ready queue).map (·.arrival) ++ (b.arriving queue a).map (·.arrival)) :=
        hback.append_right _
      _ = _ := (List.append_assoc ..).symm

theorem heldBy_of_not_full {x : Session} (hs : b.sessions[s]? = some x) (hfull : ¬x.isFull)
    (hone : b.limit? s = some 1) : b.heldBy s = [] := by
  have hlimit : x.prefetch = 1 := by simpa [limit?, hs] using hone
  rw [heldBy_eq hs]
  simpa [Session.isFull, hlimit] using hfull

theorem InLine.ordered_act (h : b.InLine s queue) (ha : b.OneByOne s queue a) :
    (((b.act a).line s queue).map (·.arrival)).Pairwise (· < ·) := by
  refine List.Pairwise.sublist (h.line_act ha) ?_
  rw [List.map_append]
  refine List.pairwise_append.mpr ⟨h.ordered, ?_, fun m hm n hn => ?_⟩
  · rcases b.arriving_cases queue a with hnone | ⟨c, hone, -⟩
    · simp [hnone]
    · simp [hone]
  · obtain ⟨c, hc, rfl⟩ := List.mem_map.mp hm
    obtain ⟨new, hnew, rfl⟩ := List.mem_map.mp hn
    obtain ⟨c', hc', hnum⟩ := answers_of_line hc
    rw [(arriving_next hnew).1, ← hnum]
    exact h.steady.arrived c' hc'

theorem InLine.heldBy_poll (h : b.InLine s queue) {st : Stream}
    (ha : b.OneByOne s queue (.poll st)) :
    (∀ t, t ≠ s → ∀ held ∈ (b.act (.poll st)).heldBy t, held.queue ≠ queue) ∧
      ((b.act (.poll st)).heldBy s).length ≤ 1 := by
  rcases b.poll_cases st with ⟨-, -, hsessions⟩ | ⟨x, copy, rest, hs, hfull, -, hy, hact⟩
  · have hsame (t : Nat) : (b.act (.poll st)).heldBy t = b.heldBy t := by
      rw [heldBy, hsessions, heldBy]
    exact ⟨fun t hts held hm => h.alone t hts held (hsame t ▸ hm), hsame s ▸ h.single⟩
  · obtain ⟨hqueue, hlimit⟩ := ha.2 _ hy
    have hheld := heldBy_handOut hs st.queue (x.lastTag + 1) copy
    rw [hact, hheld s]
    refine ⟨fun t hts held hm => ?_, ?_⟩
    · rw [hheld t] at hm
      rcases List.mem_append.mp hm with hold | hnew
      · exact h.alone t hts held hold
      · split at hnew
        · rename_i htst
          obtain rfl := List.mem_singleton.mp hnew
          exact fun hq => hts (htst.trans (hqueue hq))
        · cases hnew
    · split
      · rename_i hto
        subst hto
        rw [heldBy_of_not_full hs hfull (hlimit rfl)]
        exact Nat.le_refl 1
      · simpa using h.single

theorem InLine.act (h : b.InLine s queue) (ha : b.OneByOne s queue a) :
    (b.act a).InLine s queue := by
  by_cases hp : ∃ st, a = .poll st
  · obtain ⟨st, rfl⟩ := hp
    obtain ⟨halone, hsingle⟩ := h.heldBy_poll ha
    exact ⟨h.steady.act _ ha.1, halone, hsingle, h.ordered_act ha⟩
  · have hfewer := h.steady.sound.heldBy_act fun st hst => hp ⟨st, hst⟩
    exact ⟨h.steady.act _ ha.1, fun t hts held hm => h.alone t hts held ((hfewer t).subset hm),
      Nat.le_trans (hfewer s).length_le h.single, h.ordered_act ha⟩

theorem InLine.run (h : b.InLine s queue) (orderly : b.Orderly s queue actions) :
    (b.run actions).InLine s queue := by
  induction actions generalizing b with
  | nil => exact h
  | cons a actions ih => exact ih (h.act orderly.1) orderly.2

/-! ## What the line consists of -/

theorem flatMap_alone {α β : Type*} {f : α → List β} {xs : List α} {s : Nat}
    (h : ∀ t x, t ≠ s → xs[t]? = some x → f x = []) : xs.flatMap f = (xs[s]?.map f).getD [] := by
  induction xs generalizing s with
  | nil => rfl
  | cons x xs ih =>
    cases s with
    | zero =>
      have hrest : xs.flatMap f = [] := by
        refine List.flatMap_eq_nil_iff.mpr fun y hy => ?_
        obtain ⟨t, ht⟩ := List.mem_iff_getElem?.mp hy
        exact h (t + 1) y (Nat.succ_ne_zero t) ht
      simp [hrest]
    | succ s =>
      have hx : f x = [] := h 0 x (Nat.succ_ne_zero s).symm rfl
      rw [List.flatMap_cons, hx, List.nil_append]
      exact ih fun t y hts hy => h (t + 1) y (fun he => hts (Nat.succ.inj he)) hy

theorem InLine.unacked_eq (h : b.InLine s queue) : b.unacked queue = b.taken s queue := by
  rw [unacked, List.filter_flatMap, flatMap_alone (s := s) fun t x hts hx => ?_]
  · rw [taken, heldBy]
    cases b.sessions[s]? <;> rfl
  · refine List.filter_eq_nil_iff.mpr fun held hm => ?_
    simpa using h.alone t hts held (heldBy_eq hx ▸ hm)

theorem InLine.custody_perm (h : b.InLine s queue) :
    (b.custody queue).Perm ((b.line s queue).map Copy.original) := by
  rw [custody, h.unacked_eq]
  exact List.perm_append_comm.map _

theorem InLine.mem_line (h : b.InLine s queue) (hn : b.Answers queue n) :
    ∃ c ∈ b.line s queue, c.arrival = n := by
  obtain ⟨c, hc, rfl⟩ := hn
  obtain ⟨c', hc', rfl⟩ := List.mem_map.mp (h.custody_perm.mem_iff.mp hc)
  exact ⟨c', hc', rfl⟩

/-- The line is what was routed to the queue and is not resolved, in the order of arrival. -/
theorem line_eq_of_inLine (h : (run {} actions).InLine s queue)
    (kept : ∀ a ∈ actions, a ≠ .operate (.deleteQueue queue)) :
    ((run {} actions).line s queue).map Copy.original =
      (ledger {} queue actions).routed.filter (· ∉ (ledger {} queue actions).resolved) := by
  generalize hl : ledger {} queue actions = l
  have hnumbers : l.routed.Pairwise (·.arrival < ·.arrival) :=
    hl ▸ List.pairwise_map.mp (ledger_numbers {} queue actions).1
  have hbalance : l.routed.Perm (l.resolved ++ (run {} actions).custody queue) :=
    hl ▸ ledger_balance sound_empty (housed_empty queue) actions kept
  have hnodup : (l.resolved ++ (run {} actions).custody queue).Nodup :=
    hbalance.nodup_iff.mp (hnumbers.imp fun hlt he => Nat.ne_of_lt hlt (congrArg _ he))
  have hopen : (l.routed.filter (· ∉ l.resolved)).Perm ((run {} actions).custody queue) := by
    refine (hbalance.filter _).trans (.of_eq ?_)
    have hresolved : l.resolved.filter (· ∉ l.resolved) = [] := by simp
    have hcustody : ((run {} actions).custody queue).filter (· ∉ l.resolved) =
        (run {} actions).custody queue := by
      refine List.filter_eq_self.mpr fun c hc => decide_eq_true fun hr => ?_
      exact (List.nodup_append.mp hnodup).2.2 c hr c hc rfl
    rw [List.filter_append, hresolved, hcustody, List.nil_append]
  -- Both sides have the same copies, each in the order of arrival.
  refine List.Perm.eq_of_pairwise (fun c c' _ _ hlt hgt => ?_) ?_ (hnumbers.filter _)
    (h.custody_perm.symm.trans hopen.symm)
  · exact absurd hlt (Nat.lt_asymm hgt)
  · exact List.pairwise_map.mpr (List.pairwise_map.mp h.ordered)

/-! ## What is handed out of the line -/

theorem InLine.handing_least (h : b.InLine s queue) (ha : b.OneByOne s queue a) {d : Delivery}
    (hd : d ∈ b.handing queue a) (hn : b.Answers queue n) : d.arrival ≤ n := by
  rcases b.handing_cases queue a with hnone | ⟨st, x, copy, rest, -, hq, hs, hfull, hr, hy, hone⟩
  · simp [hnone] at hd
  · obtain ⟨hto, hlimit⟩ := ha.2 _ hy
    obtain rfl : st.session = s := hto hq
    -- The session holds nothing, so the line begins with what waits.
    have hline : b.line st.session queue = copy :: rest := by
      simp [line, taken, heldBy_of_not_full hs hfull (hlimit rfl), hr]
    have hordered := h.ordered
    rw [hline, List.map_cons, List.pairwise_cons] at hordered
    obtain ⟨c, hc, rfl⟩ := h.mem_line hn
    rw [hone, List.mem_singleton] at hd
    subst hd
    rw [hline] at hc
    rcases List.mem_cons.mp hc with rfl | hc
    · exact Nat.le_refl _
    · exact Nat.le_of_lt (hordered.1 _ (List.mem_map_of_mem hc))

theorem Sound.handed_ge (h : b.Sound) (hm : m ≤ b.arrivals)
    (hall : ∀ n, b.Answers queue n → m ≤ n) :
    ∀ d ∈ b.handed queue actions, m ≤ d.arrival := by
  induction actions generalizing b with
  | nil => exact fun d hd => absurd hd List.not_mem_nil
  | cons a actions ih =>
    intro d hd
    rcases List.mem_append.mp hd with hd | hd
    · exact hall _ (answers_of_handing hd)
    · refine ih (h.act a) (Nat.le_trans hm (b.act_arrivals a)) (fun n hn => ?_) d hd
      rcases answered_before h hn with hold | rfl
      · exact hall n hold
      · exact hm

theorem InLine.handed_pairwise (h : b.InLine s queue) (orderly : b.Orderly s queue actions) :
    ((b.handed queue actions).map (·.arrival)).Pairwise (· ≤ ·) := by
  induction actions generalizing b with
  | nil => exact List.Pairwise.nil
  | cons a actions ih =>
    obtain ⟨ha, hactions⟩ := orderly
    rw [handed, List.map_append]
    refine List.pairwise_append.mpr ⟨?_, ih (h.act ha) hactions, fun m hm n hn => ?_⟩
    · rcases b.handing_cases queue a with hnone | ⟨_, _, _, _, -, -, -, -, -, -, hone⟩
      · simp [hnone]
      · simp [hone]
    · obtain ⟨d, hd, rfl⟩ := List.mem_map.mp hm
      obtain ⟨d', hd', rfl⟩ := List.mem_map.mp hn
      obtain ⟨c, hc, hnum⟩ := answers_of_handing hd
      have harrived : d.arrival ≤ b.arrivals := Nat.le_of_lt (hnum ▸ h.steady.arrived c hc)
      have hge : ∀ d' ∈ b.handed queue (a :: actions), d.arrival ≤ d'.arrival :=
        h.steady.sound.handed_ge harrived fun n hn => h.handing_least ha hd hn
      exact hge d' (List.mem_append_right _ hd')

/-- A copy that waits is handed out before all that arrived later. -/
theorem InLine.not_overtaken (h : b.InLine s queue) (orderly : b.Orderly s queue actions)
    (hw : b.Waits queue n) {earlier later : List Delivery} {d : Delivery}
    (hd : b.handed queue actions = earlier ++ d :: later) (hlt : n < d.arrival) :
    ∃ d' ∈ earlier, d'.arrival = n := by
  induction actions generalizing b earlier with
  | nil => exact absurd hd (by simp [handed])
  | cons a actions ih =>
    obtain ⟨ha, hactions⟩ := orderly
    rw [handed] at hd
    have hwaits := hw.act h.steady.sound ha.1
    rcases b.handing_cases queue a with hnone | ⟨_, _, _, _, -, -, -, -, -, -, hone⟩
    · rw [hnone] at hd hwaits
      exact ih (h.act ha) hactions (hwaits.resolve_left (by simp)) hd
    · rw [hone, List.singleton_append] at hd
      cases earlier with
      | nil =>
        -- What is handed out first is not above the copy that waits.
        obtain ⟨c, hc, rfl⟩ := hw
        obtain rfl := (List.cons.inj hd).1
        have hle := h.handing_least ha (hone ▸ List.mem_singleton_self _) (answers_of_ready hc)
        exact absurd hlt (Nat.not_lt_of_le hle)
      | cons d' earlier =>
        obtain ⟨rfl, hrest⟩ := List.cons.inj hd
        rcases hwaits with ⟨d'', hd'', hnum⟩ | hwaits
        · rw [hone, List.mem_singleton] at hd''
          exact ⟨_, List.mem_cons_self, hd'' ▸ hnum⟩
        · obtain ⟨d'', hd'', hnum⟩ := ih (h.act ha) hactions hwaits hrest
          exact ⟨d'', List.mem_cons_of_mem _ hd'', hnum⟩

/-- After any run in which the queue is never deleted, and session `s` alone consumes it, with a
limit of one from its first delivery on. All that is in flight of the queue is one copy at most,
which the session holds. This copy, if there is one, followed by what waits is what was ever routed
to the queue and is not resolved, in the order of arrival. Nothing was handed out with a lower
number than what was handed out before, and a copy that waits at some time is handed out, if it is
a copy given back then again, before any that arrived later. -/
theorem kept_in_order (actions : List Action) {s : Nat} {queue : String}
    (orderly : Orderly {} s queue actions) :
    let b := run {} actions
    let l := ledger {} queue actions
    b.unacked queue = b.taken s queue ∧ (b.taken s queue).length ≤ 1 ∧
    (l.routed.map (·.arrival)).Pairwise (· < ·) ∧
    ((b.taken s queue).map (·.copy) ++ b.ready queue).map Copy.original =
      l.routed.filter (· ∉ l.resolved) ∧
    ((handed {} queue actions).map (·.arrival)).Pairwise (· ≤ ·) ∧
    ∀ before after, actions = before ++ after → ∀ c ∈ (run {} before).ready queue,
      ∀ earlier d later, (run {} before).handed queue after = earlier ++ d :: later →
        c.arrival < d.arrival → ∃ d' ∈ earlier, d'.arrival = c.arrival := by
  intro b l
  have hb : b.InLine s queue := (inLine_empty s queue).run orderly
  refine ⟨hb.unacked_eq, ?_, (ledger_numbers {} queue actions).1, line_eq_of_inLine hb orderly.kept,
    (inLine_empty s queue).handed_pairwise orderly, ?_⟩
  · exact Nat.le_trans List.filter_sublist.length_le hb.single
  · rintro before after rfl c hc earlier d later hd hlt
    obtain ⟨hbefore, hafter⟩ := orderly.append
    have hline : (run {} before).InLine s queue := (inLine_empty s queue).run hbefore
    exact hline.not_overtaken hafter ⟨c, hc, rfl⟩ hd hlt

/-- A message is refused, handed out again and accepted, and the next one is handed out once
consumers were cancelled. A third one waits when the session closes. -/
def oneAtATime : List Action :=
  [.openSession, .declareExchange 0 { name := "x" }, .declareQueue 0 { name := "q" },
    .bindQueue 0 "q" "x" "k", .setQos 0 {}, .operate (.inject "x" "k" none [1]),
    .operate (.inject "x" "k" none [2]), .poll { session := 0, queue := "q", epoch := 0 },
    .poll { session := 0, queue := "q", epoch := 0 }, .resolve 0 1 (.nack true),
    .poll { session := 0, queue := "q", epoch := 0 }, .operate (.inject "x" "k" none [3]),
    .resolve 0 2 .ack, .operate .cancelConsumers,
    .poll { session := 0, queue := "q", epoch := 1 }, .closeSession 0]

/-- The message that was refused comes before the second one, and what the session gave back when
it closed stands in front of the third. -/
theorem kept_in_order_requeued :
    Orderly {} 0 "q" oneAtATime ∧
    (handed {} "q" oneAtATime).map (fun d => (d.arrival, d.redelivered)) =
      [(0, false), (0, true), (1, false)] ∧
    ((run {} oneAtATime).taken 0 "q").length ≤ 1 ∧
    ((((run {} oneAtATime).taken 0 "q").map (·.copy) ++ (run {} oneAtATime).ready "q").map
      Copy.original).map (·.arrival) = [1, 2] := by
  have orderly : Orderly {} 0 "q" oneAtATime := by decide +kernel
  obtain ⟨-, hlength, -, hline, -⟩ := kept_in_order oneAtATime orderly
  refine ⟨orderly, by decide +kernel, hlength, ?_⟩
  rw [hline]
  decide +kernel

end CargoEvents.Broker
