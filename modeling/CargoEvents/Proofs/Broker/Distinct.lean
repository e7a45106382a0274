import CargoEvents.Proofs.Broker.Ledger

/-! # Each copy once

A queue answers for each copy once (`Distinct`), whatever happens to it: copies that are given back
to a queue which is no more are lost, but none is ever doubled. So a copy that was accepted is gone
for good.
-/
namespace CargoEvents.Broker
open scoped List

def Answers (b : Broker) (queue : String) (n : Nat) : Prop := ∃ c ∈ b.custody queue, c.arrival = n

variable {b b' : Broker} {s tag n : Nat} {queue : String}

/-! ## What may be lost -/

theorem ready_of_absent (h : ¬b.queues.contains queue) : b.ready queue = [] := by
  have hnone : b.queues.get? queue = none := by simpa [Table.contains] using h
  simp [ready, hnone]

theorem ready_giveBackAll_sublist (b : Broker) (helds : List Held) (queue : String) :
    (b.giveBackAll helds).ready queue <+
      (helds.filter (·.queue == queue)).map (·.copy.marked) ++ b.ready queue := by
  by_cases hq : b.queues.contains queue
  · rw [ready_giveBackAll fun _ _ _ => hq]
  · rw [ready_of_absent (by simpa using hq)]
    exact List.nil_sublist _

theorem custody_giveBackAll_sublist (b : Broker) (helds : List Held) (queue : String) :
    (b.giveBackAll helds).custody queue <+
      (helds.filter (·.queue == queue)).map (·.copy.original) ++ b.custody queue := by
  have hu : (b.giveBackAll helds).unacked queue = b.unacked queue :=
    unacked_congr (giveBackAll_sessions b helds) queue
  have hready := (ready_giveBackAll_sublist b helds queue).append_right
    ((b.unacked queue).map (·.copy))
  simpa [custody, hu, Function.comp_def] using hready.map Copy.original

theorem custody_resolve_subperm (h : b.Sound) {how : Resolution} (queue : String)
    (hr : b.resolve s tag how = .ok b') : b'.custody queue <+~ b.custody queue := by
  obtain ⟨x, held, hs, -, hh, rfl⟩ := resolve_eq_ok hr
  have hrelease := (custody_release h hs hh queue).symm.subperm
  by_cases hn : how = .nack true
  · have hback := custody_giveBackAll_sublist (b.onSession s (·.release tag)) [held] queue
    have hheld : ([held].filter (·.queue == queue)).map (·.copy.original) =
        if held.queue = queue then [held.copy.original] else [] := by
      by_cases hq : held.queue = queue <;> simp [hq]
    rw [hheld] at hback
    simp only [hn, if_true]
    exact hback.subperm.trans hrelease
  · simp only [hn, if_false]
    exact (List.sublist_append_right _ _).subperm.trans hrelease

theorem custody_closeSession_subperm (b : Broker) (s : Nat) (queue : String) :
    (b.closeSession s).custody queue <+~ b.custody queue := by
  unfold closeSession
  cases hs : b.sessions[s]? with
  | none => exact .refl _
  | some x =>
    by_cases ho : x.isOpen
    · have hp : (b.custody queue).Perm _ := custody_onSession hs Session.shut
        (x.unacked.filter (·.queue == queue)) (by simp [Session.shut])
      simp only [ho, if_true]
      exact (custody_giveBackAll_sublist (b.onSession s Session.shut) x.unacked queue).subperm.trans
        hp.symm.subperm
    · simp only [ho]
      exact .refl _

theorem act_custody_subperm (h : b.Sound) (queue : String) (a : Action) :
    (b.act a).custody queue <+~ b.custody queue ++ b.arriving queue a := by
  have hmoved {b' : Broker} (hp : (b.custody queue).Perm (b'.custody queue)) :
      b'.custody queue <+~ b.custody queue ++ [] := by
    rw [List.append_nil]
    exact hp.symm.subperm
  cases a with
  | publish s exchange m =>
    simp only [arriving, act]
    cases hp : b.publish s exchange m with
    | error e => exact hmoved (.refl _)
    | ok b' =>
      obtain ⟨-, -, -, rfl⟩ := publish_eq_ok hp
      exact ((custody_route h ..).trans (.of_eq (custody_still rfl rfl queue).symm)).symm.subperm
  | resolve s tag how =>
    simp only [arriving, act, List.append_nil]
    cases hr : b.resolve s tag how with
    | error e => exact .refl _
    | ok b' => exact custody_resolve_subperm h queue hr
  | closeSession s =>
    simp only [arriving, List.append_nil]
    exact custody_closeSession_subperm b s queue
  | operate o =>
    by_cases kept : o = .deleteQueue queue
    · subst kept
      have hready : (b.operate (.deleteQueue queue)).ready queue = [] := by
        simp [operate, deleteQueue, signal, ready]
      have hunacked : (b.operate (.deleteQueue queue)).unacked queue = b.unacked queue := rfl
      simp only [arriving, act, List.append_nil, custody, hready, hunacked, List.nil_append,
        List.map_append]
      exact (List.sublist_append_right _ _).subperm
    · exact (custody_operate h o kept).symm.subperm
  | openSession | declareExchange | declareQueue | setQos | bindQueue | consume | poll =>
    exact hmoved ((b.act_effect _).custody queue (by simp) (by simp) (by simp) (by simp))

/-! ## Numbers -/

/-- A queue answers for no two copies with the same number, and for none that is still to come. -/
structure Distinct (b : Broker) (queue : String) : Prop where
  sound : b.Sound
  nodup : ((b.custody queue).map (·.arrival)).Nodup
  arrived : ∀ c ∈ b.custody queue, c.arrival < b.arrivals

theorem distinct_empty (queue : String) : Distinct {} queue :=
  ⟨sound_empty, by simp [custody, ready, unacked], by simp [custody, ready, unacked]⟩

theorem arriving_next {a : Action} {c : Copy} (hc : c ∈ b.arriving queue a) :
    c.arrival = b.arrivals ∧ b.arrivals < (b.act a).arrivals := by
  rcases b.arriving_cases queue a with hnone | ⟨c', hone, hnum, hlt⟩
  · rw [hnone] at hc
    cases hc
  · rw [hone] at hc
    obtain rfl := List.mem_singleton.mp hc
    exact ⟨hnum, hlt⟩

theorem Distinct.act (h : b.Distinct queue) (a : Action) : (b.act a).Distinct queue := by
  have hp := act_custody_subperm h.sound queue a
  refine ⟨h.sound.act a, ?_, fun c hc => ?_⟩
  · have hall : ((b.custody queue ++ b.arriving queue a).map (·.arrival)).Nodup := by
      rw [List.map_append]
      refine List.nodup_append.mpr ⟨h.nodup, ?_, fun n hn m hm => ?_⟩
      · rcases b.arriving_cases queue a with hnone | ⟨c, hone, -⟩
        · simp [hnone]
        · simp [hone]
      · obtain ⟨c, hc, rfl⟩ := List.mem_map.mp hn
        obtain ⟨c', hc', rfl⟩ := List.mem_map.mp hm
        exact Nat.ne_of_lt ((arriving_next hc').1 ▸ h.arrived c hc)
    obtain ⟨kept, hperm, hkept⟩ := hp
    exact (hperm.map (·.arrival)).nodup_iff.mp (hall.sublist (hkept.map (·.arrival)))
  · rcases List.mem_append.mp (hp.subset hc) with hold | hnew
    · exact Nat.lt_of_lt_of_le (h.arrived c hold) (b.act_arrivals a)
    · obtain ⟨hnum, hlt⟩ := arriving_next hnew
      exact hnum ▸ hlt

theorem Distinct.run (h : b.Distinct queue) (actions : List Action) :
    (b.run actions).Distinct queue := by
  induction actions generalizing b with
  | nil => exact h
  | cons a actions ih => exact ih (h.act a)

theorem answered_before (h : b.Sound) {a : Action} (hn : (b.act a).Answers queue n) :
    b.Answers queue n ∨ n = b.arrivals := by
  obtain ⟨c, hc, rfl⟩ := hn
  rcases List.mem_append.mp ((act_custody_subperm h queue a).subset hc) with hold | hnew
  · exact .inl ⟨c, hold, rfl⟩
  · exact .inr (arriving_next hnew).1

/-! ## Gone for good -/

/-- The copy with number `n` has been, and the queue answers for it no more. -/
def Gone (b : Broker) (queue : String) (n : Nat) : Prop := n < b.arrivals ∧ ¬b.Answers queue n

theorem Gone.act (h : b.Gone queue n) (hs : b.Sound) (a : Action) : (b.act a).Gone queue n := by
  obtain ⟨hlt, hnone⟩ := h
  refine ⟨Nat.lt_of_lt_of_le hlt (b.act_arrivals a), fun hn => ?_⟩
  rcases answered_before hs hn with hold | hnew
  · exact hnone hold
  · exact Nat.ne_of_lt hlt hnew

theorem Gone.run (h : b.Gone queue n) (hs : b.Sound) (actions : List Action) :
    (b.run actions).Gone queue n := by
  induction actions generalizing b with
  | nil => exact h
  | cons a actions ih => exact ih (h.act hs a) (hs.act a)

end CargoEvents.Broker
