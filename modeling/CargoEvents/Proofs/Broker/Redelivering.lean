import CargoEvents.Proofs.Broker.Lines
import Mathlib.Data.List.Induction

/-! # Which deliveries are redelivered

A copy that waits is marked if it came back from a session that held it, and only then
(`marked_iff_cameBack`). What became of other copies, of the same message in other queues as well,
makes no difference to it.
-/
namespace CargoEvents.Broker
open scoped List

def HandedTo (actions : List Action) (s tag : Nat) (queue : String) (n : Nat) : Prop :=
  ∃ before st d, before ++ [.poll st] <+: actions ∧ ((run {} before).poll st).1 = .delivery d ∧
    st.session = s ∧ st.queue = queue ∧ d.tag = tag ∧ d.arrival = n

/-- In the run the copy of the queue with number `n` was given back, by a session that had been
handed it and held it: refused to be put back, or still unresolved when the session closed. -/
def CameBack (actions : List Action) (queue : String) (n : Nat) : Prop :=
  ∃ before a s tag, before ++ [a] <+: actions ∧ HandedTo before s tag queue n ∧
    (run {} before).HoldsCopy s tag queue n ∧ a.Returns s tag

variable {b : Broker} {s tag n : Nat} {queue p : String} {a : Action}
  {earlier actions : List Action}

theorem HandedTo.mono (h : HandedTo earlier s tag queue n) (hpre : earlier <+: actions) :
    HandedTo actions s tag queue n := by
  obtain ⟨before, st, d, hbefore, hd⟩ := h
  exact ⟨before, st, d, hbefore.trans hpre, hd⟩

theorem CameBack.mono (h : CameBack earlier queue n) (hpre : earlier <+: actions) :
    CameBack actions queue n := by
  obtain ⟨before, a, s, tag, hbefore, hback⟩ := h
  exact ⟨before, a, s, tag, hbefore.trans hpre, hback⟩

/-! ## What is held was handed out -/

theorem handedTo_of_holdsCopy (h : (run {} actions).HoldsCopy s tag queue n) :
    HandedTo actions s tag queue n := by
  induction actions using List.reverseRecOn generalizing s tag with
  | nil =>
    obtain ⟨held, hm, -⟩ := h
    simp [heldBy] at hm
  | append_singleton actions a ih =>
    have hpre : actions <+: actions ++ [a] := List.prefix_append ..
    rw [run_append] at h
    by_cases hp : ∃ st, a = .poll st
    · obtain ⟨st, rfl⟩ := hp
      rcases (run {} actions).poll_cases st with
        ⟨-, -, hsessions⟩ | ⟨x, copy, rest, hs, -, -, hy, hact⟩
      · have hheld : (run {} actions).HoldsCopy s tag queue n := by
          rwa [run_cons, run_nil, HoldsCopy, heldBy, hsessions] at h
        exact (ih hheld).mono hpre
      · rw [run_cons, run_nil, hact] at h
        rcases (holdsCopy_handOut hs _ _).mp h with hheld | ⟨rfl, rfl, rfl, rfl⟩
        · exact (ih hheld).mono hpre
        · have hd := (yielded_eq_some.mp hy).2
          exact ⟨actions, st, _, List.prefix_refl _, hd, rfl, rfl, rfl, rfl⟩
    · have hsound : (run {} actions).Sound := sound_empty.run actions
      obtain ⟨held, hm, hheld⟩ := h
      have hm := (hsound.heldBy_act (fun st hst => hp ⟨st, hst⟩) s).subset hm
      exact (ih ⟨held, hm, hheld⟩).mono hpre

/-! ## What waits is marked if it came back -/

theorem distinct_run (queue : String) (actions : List Action) :
    (run {} actions).Distinct queue := (distinct_empty queue).run actions

theorem CameBack.arrived (h : CameBack actions queue n) : n < (run {} actions).arrivals := by
  obtain ⟨before, a, s, tag, ⟨later, rfl⟩, -, hheld, -⟩ := h
  obtain ⟨c, hc, rfl⟩ := hheld.answers
  refine Nat.lt_of_lt_of_le ((distinct_run queue before).arrived c hc) ?_
  rw [List.append_assoc, run_append]
  exact run_arrivals _ _

theorem cameBack_concat : CameBack (actions ++ [a]) queue n ↔ CameBack actions queue n ∨
    ∃ s tag, (run {} actions).HoldsCopy s tag queue n ∧ a.Returns s tag := by
  constructor
  · rintro ⟨before, x, s, tag, hpre, hgiven, hheld, hback⟩
    rcases List.prefix_concat_iff.mp hpre with hlast | hpre
    · obtain ⟨rfl, hx⟩ := List.append_inj' hlast rfl
      obtain rfl := List.singleton_inj.mp hx
      exact .inr ⟨s, tag, hheld, hback⟩
    · exact .inl ⟨before, x, s, tag, hpre, hgiven, hheld, hback⟩
  · rintro (hback | ⟨s, tag, hheld, hback⟩)
    · exact hback.mono (List.prefix_append ..)
    · exact ⟨actions, a, s, tag, List.prefix_refl _, handedTo_of_holdsCopy hheld, hheld, hback⟩

/-- A copy that waits is marked as redelivered exactly if it came back. -/
theorem marked_iff_cameBack {c : Copy} (hc : c ∈ (run {} actions).ready queue) :
    c.redelivered = true ↔ CameBack actions queue c.arrival := by
  induction actions using List.reverseRecOn generalizing c with
  | nil => simp [ready] at hc
  | append_singleton actions a ih =>
    have hdistinct := distinct_run queue actions
    rw [run_append] at hc
    rw [cameBack_concat]
    rcases hdistinct.sound.mem_ready_act hc with hold | ⟨hnew, hplain⟩ | hback
    · -- It waited, so nobody could give it back.
      rw [ih hold]
      refine (or_iff_left ?_).symm
      rintro ⟨s, tag, hheld, -⟩
      exact hdistinct.not_held hold hheld
    · -- It has only just arrived.
      refine iff_of_false (by simp [hplain]) ?_
      rintro (hcame | ⟨s, tag, hheld, -⟩)
      · exact Nat.ne_of_lt hcame.arrived hnew
      · obtain ⟨c', hc', hnum⟩ := hheld.answers
        exact Nat.ne_of_lt (hdistinct.arrived c' hc') (hnum.trans hnew)
    · obtain ⟨-, held, hm, rfl, rfl⟩ := mem_restored.mp hback
      obtain ⟨s, hheld, hreturns⟩ := mem_returning hm
      exact iff_of_true rfl (.inr ⟨s, held.tag, ⟨held, hheld, rfl, rfl, rfl⟩, hreturns⟩)

/-! ## What was handed out before -/

theorem Distinct.adrift (h : b.Distinct queue) (hheld : b.HoldsCopy s tag queue n) :
    b.Adrift s tag queue n := by
  obtain ⟨c, hc, rfl⟩ := hheld.answers
  refine ⟨h, h.arrived c hc, ?_, fun t other ht => h.holder hheld ht⟩
  rintro ⟨copy, hcopy, hnum⟩
  exact h.not_held hcopy (hnum ▸ hheld)

theorem HandedTo.cameBack (h : HandedTo actions s tag queue n)
    (hw : (run {} actions).Waits queue n) : CameBack actions queue n := by
  obtain ⟨before, st, d, ⟨later, rfl⟩, hd, rfl, rfl, rfl, rfl⟩ := h
  generalize hgiven : before ++ [Action.poll st] = given at hw ⊢
  have hrun : run {} given = (run {} before).act (.poll st) := by
    rw [← hgiven, run_append, run_cons, run_nil]
  have hheld : (run {} given).HoldsCopy st.session d.tag st.queue d.arrival := by
    obtain ⟨x, copy, rest, hs, -, -, rfl, hact⟩ := poll_delivery hd
    rw [hrun, hact]
    exact (holdsCopy_handOut hs _ _).mpr (.inr ⟨rfl, rfl, rfl, rfl⟩)
  rw [run_append] at hw
  obtain ⟨mid, a, hpre, -, hcopy, ha⟩ := ((distinct_run st.queue given).adrift hheld).returned hw
  rw [← run_append] at hcopy
  refine ⟨given ++ mid, a, st.session, d.tag, ?_, handedTo_of_holdsCopy hcopy, hcopy, ha⟩
  rw [List.append_assoc]
  exact (List.prefix_append_right_inj given).mpr hpre

theorem CameBack.handedTo (h : CameBack actions queue n) :
    ∃ s tag, HandedTo actions s tag queue n := by
  obtain ⟨before, a, s, tag, hpre, hgiven, -⟩ := h
  exact ⟨s, tag, hgiven.mono ((List.prefix_append before [a]).trans hpre)⟩

/-! ## Other queues -/

theorem Sound.other_queue (h : b.Sound) (hheld : b.HoldsCopy s tag p n) (hq : queue ≠ p) :
    (b.act (.resolve s tag (.nack true))).ready queue = b.ready queue ∧
      ∀ t, (b.act (.resolve s tag (.nack true))).taken t queue = b.taken t queue := by
  -- All that is held under the tag is from the other queue.
  have hfrom : ∀ held ∈ b.heldBy s, held.tag = tag → held.queue = p := by
    rintro held hm rfl
    exact ((h.holdsCopy_iff hm).mp hheld).1
  constructor
  · have hnone : b.restored queue (.resolve s tag (.nack true)) = [] := by
      refine List.eq_nil_iff_forall_not_mem.mpr fun c hc => ?_
      obtain ⟨-, held, hm, rfl, -⟩ := mem_restored.mp hc
      obtain ⟨t, hmt, ha⟩ := mem_returning hm
      rcases ha with ha | ha
      · cases ha
        exact hq (hfrom held hmt rfl)
      · cases ha
    rw [h.ready_returned (.inl rfl), hnone, List.nil_append]
  · intro t
    rw [taken, h.heldBy_resolve]
    split
    · rename_i hts
      subst hts
      rw [List.filter_filter, taken]
      refine List.filter_congr fun held hm => ?_
      by_cases htag : held.tag = tag
      · simp [hfrom held hm htag, Ne.symm hq]
      · simp [htag]
    · rfl

/-- In any run, a delivery that is handed out is marked as redelivered exactly if the copy came back
from a session that had been handed it, and this is so exactly if it was handed out before. What is
put back into another queue, be it a copy of the same message, leaves the marks of all that waits
in this queue and all that is held of it. -/
theorem redelivered_iff_came_back (actions : List Action) {st : Stream} {d : Delivery}
    (hd : ((run {} actions).poll st).1 = .delivery d) :
    let b := run {} actions
    (d.redelivered = true ↔ CameBack actions st.queue d.arrival) ∧
    (d.redelivered = true ↔ ∃ s tag, HandedTo actions s tag st.queue d.arrival) ∧
    ∀ s tag p n, p ≠ st.queue → b.HoldsCopy s tag p n →
      let b' := b.act (.resolve s tag (.nack true))
      b'.ready st.queue = b.ready st.queue ∧ ∀ t, b'.taken t st.queue = b.taken t st.queue := by
  intro b
  obtain ⟨x, copy, rest, -, -, hready, rfl, -⟩ := poll_delivery hd
  have hmem : copy ∈ b.ready st.queue := hready ▸ List.mem_cons_self
  have hback : copy.redelivered = true ↔ CameBack actions st.queue copy.arrival :=
    marked_iff_cameBack hmem
  refine ⟨hback, hback.trans ⟨CameBack.handedTo, ?_⟩, fun s tag p n hp hheld => ?_⟩
  · rintro ⟨s, tag, hgiven⟩
    exact hgiven.cameBack ⟨copy, hmem, rfl⟩
  · exact (sound_empty.run actions).other_queue hheld hp.symm

/-- Two sessions, and a message in two queues. One of its copies is handed out and put back. -/
def oneCopyBack : List Action :=
  [.openSession, .openSession, .declareExchange 0 { name := "x" },
    .declareQueue 0 { name := "p" }, .declareQueue 0 { name := "q" }, .bindQueue 0 "p" "x" "k",
    .bindQueue 0 "q" "x" "k", .operate (.inject "x" "k" none []),
    .poll { session := 0, queue := "q", epoch := 0 }, .resolve 0 1 (.nack true)]

/-- The other session gets this copy marked, and the copy in the other queue as it came. -/
theorem redelivered_iff_came_back_apart :
    (∃ d, ((run {} oneCopyBack).poll { session := 1, queue := "q", epoch := 0 }).1 = .delivery d ∧
      d.redelivered = true ∧ CameBack oneCopyBack "q" d.arrival) ∧
    ∃ d, ((run {} oneCopyBack).poll { session := 1, queue := "p", epoch := 0 }).1 = .delivery d ∧
      d.redelivered = false ∧ ¬CameBack oneCopyBack "p" d.arrival := by
  let copy (redelivered : Bool) : Delivery :=
    { routingKey := "k", typeTag := none, body := [], tag := 1, redelivered }
  have hq : ((run {} oneCopyBack).poll { session := 1, queue := "q", epoch := 0 }).1 =
      .delivery (copy true) := by decide +kernel
  have hp : ((run {} oneCopyBack).poll { session := 1, queue := "p", epoch := 0 }).1 =
      .delivery (copy false) := by decide +kernel
  refine ⟨⟨_, hq, rfl, (redelivered_iff_came_back _ hq).1.mp rfl⟩, ⟨_, hp, rfl, fun hback => ?_⟩⟩
  cases (redelivered_iff_came_back _ hp).1.mpr hback

end CargoEvents.Broker
