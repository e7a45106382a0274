import CargoEvents.Proofs.Broker.Distinct
import CargoEvents.Proofs.Broker.Shutting
import CargoEvents.Proofs.Broker.Signals

/-! # Who holds a copy

A copy is known by its queue and its number of arrival. A session gets hold of it when it is
handed out, and lets go of it by resolving it or by closing. In between nobody else gets it, since
a queue answers for each copy once (`Steady`); and what was accepted is not there again.
-/
namespace CargoEvents.Broker
open scoped List

def heldBy (b : Broker) (s : Nat) : List Held := (b.sessions[s]?.map (·.unacked)).getD []

/-- Session `s` holds the copy of the queue with number `n`, under the tag. -/
def HoldsCopy (b : Broker) (s tag : Nat) (queue : String) (n : Nat) : Prop :=
  ∃ held ∈ b.heldBy s, held.tag = tag ∧ held.queue = queue ∧ held.copy.arrival = n

variable {b b' : Broker} {s t tag n : Nat} {queue : String} {held : Held}

/-! ## What sessions hold -/

theorem heldBy_eq {x : Session} (hs : b.sessions[s]? = some x) : b.heldBy s = x.unacked := by
  simp [heldBy, hs]

theorem heldBy_modify {f : Session → Session} (h : b'.sessions = b.sessions.modify s f)
    {x : Session} (hs : b.sessions[s]? = some x) (t : Nat) :
    b'.heldBy t = if t = s then (f x).unacked else b.heldBy t := by
  rw [heldBy, h, List.getElem?_modify]
  split
  · rename_i hts
    subst hts
    simp [hs]
  · rename_i hts
    simp [heldBy, Ne.symm hts]

theorem filter_unheld {helds : List Held} (h : helds.find? (·.tag == tag) = none) :
    helds.filter (·.tag != tag) = helds := by
  refine List.filter_eq_self.mpr fun held hm => ?_
  simpa using List.find?_eq_none.mp h held hm

theorem getD_openSession {α : Type} (f : Session → α) (t : Nat) :
    (b.openSession.sessions[t]?.map f).getD (f {}) = (b.sessions[t]?.map f).getD (f {}) := by
  rw [openSession]
  rcases Nat.lt_trichotomy t b.sessions.length with hlt | rfl | hgt
  · rw [List.getElem?_append_left hlt]
  · simp
  · have hnone : (b.sessions ++ [({} : Session)])[t]? = none := by
      refine List.getElem?_eq_none_iff.mpr ?_
      rw [List.length_append]
      exact hgt
    rw [hnone, List.getElem?_eq_none_iff.mpr (Nat.le_of_lt hgt)]

/-- Whether the action hands out nothing, resolves nothing, closes nothing and leaves the
queue. -/
def Action.isCalm (queue : String) : Action → Bool
  | .poll _ | .resolve .. | .closeSession _ => false
  | .operate (.deleteQueue name) => name != queue
  | _ => true

theorem act_heldBy {a : Action} (ha : a.isCalm queue) (t : Nat) :
    (b.act a).heldBy t = b.heldBy t := by
  have hsame {b' : Broker} (h : b'.sessions = b.sessions) : b'.heldBy t = b.heldBy t := by
    rw [heldBy, h, heldBy]
  generalize hb : b.act a = b'
  have he : Effect b a b' := hb ▸ b.act_effect a
  cases he with
  | refused | exchangeDeclared | queueDeclared | bound | published => exact hsame rfl
  | opened => exact getD_openSession (·.unacked) t
  | @qosSet s _ hs =>
    obtain ⟨x, hx, -⟩ := isOpen_iff.mp hs
    rw [heldBy_modify rfl hx]
    split
    · rename_i hts
      exact hts ▸ (heldBy_eq hx).symm
    · rfl
  | faulted | handedOut | settled | returned | shut => cases ha
  | operated o => cases o <;> exact hsame rfl

theorem holdsCopy_handOut {x : Session} (hs : b.sessions[s]? = some x) (q : String) (copy : Copy) :
    (b.handOut s q (x.lastTag + 1) copy).HoldsCopy t tag queue n ↔ b.HoldsCopy t tag queue n ∨
      t = s ∧ tag = x.lastTag + 1 ∧ queue = q ∧ n = copy.arrival := by
  have hheld : (b.handOut s q (x.lastTag + 1) copy).heldBy t = if t = s then _ else b.heldBy t :=
    heldBy_modify rfl hs t
  unfold HoldsCopy
  rw [hheld]
  split
  · rename_i hts
    subst hts
    rw [heldBy_eq hs]
    simp only [List.mem_append, List.mem_singleton]
    constructor
    · rintro ⟨held, hm | rfl, htag, hq, hn⟩
      · exact .inl ⟨held, hm, htag, hq, hn⟩
      · exact .inr ⟨trivial, htag.symm, hq.symm, hn.symm⟩
    · rintro (⟨held, hm, h⟩ | ⟨-, rfl, rfl, rfl⟩)
      · exact ⟨held, .inl hm, h⟩
      · exact ⟨_, .inr rfl, rfl, rfl, rfl⟩
  · rename_i hts
    simp [hts]

theorem holdsCopy_release {x : Session} (hs : b.sessions[s]? = some x) {other : Nat}
    (h : b'.sessions = b.sessions.modify s (·.release other)) :
    b'.HoldsCopy t tag queue n ↔ b.HoldsCopy t tag queue n ∧ ¬(t = s ∧ tag = other) := by
  unfold HoldsCopy
  rw [heldBy_modify h hs]
  split
  · rename_i hts
    subst hts
    rw [heldBy_eq hs]
    simp only [Session.release, List.mem_filter, bne_iff_ne, true_and]
    constructor
    · rintro ⟨held, ⟨hm, hne⟩, rfl, hq⟩
      exact ⟨⟨held, hm, rfl, hq⟩, hne⟩
    · rintro ⟨⟨held, hm, rfl, hq⟩, hne⟩
      exact ⟨held, ⟨hm, hne⟩, rfl, hq⟩
  · rename_i hts
    simp [hts]

theorem heldBy_closeSession (h : b.Sound) (s t : Nat) :
    (b.closeSession s).heldBy t = if t = s then [] else b.heldBy t := by
  cases hs : b.sessions[s]? with
  | none =>
    have hnone : b.closeSession s = b := by simp only [closeSession, hs]
    rw [hnone]
    split
    · rename_i hts
      simp [heldBy, hts, hs]
    · rfl
  | some x =>
    split
    · rename_i hts
      obtain ⟨y, hy, -, hempty⟩ := h.shut_closeSession hs
      rw [hts, heldBy_eq hy, hempty]
    · rename_i hts
      unfold closeSession
      rw [hs]
      by_cases ho : x.isOpen
      · have hsessions : (giveBackAll (b.onSession s Session.shut) x.unacked).sessions =
            b.sessions.modify s Session.shut := by
          simp [Broker.onSession]
        simp only [ho, if_true]
        refine (heldBy_modify (f := Session.shut) hsessions hs t).trans ?_
        rw [if_neg hts]
      · simp only [ho]
        rfl

theorem holdsCopy_closeSession (h : b.Sound) (s : Nat) :
    (b.closeSession s).HoldsCopy t tag queue n ↔ b.HoldsCopy t tag queue n ∧ t ≠ s := by
  unfold HoldsCopy
  rw [heldBy_closeSession h]
  split
  · rename_i hts
    simp [hts]
  · rename_i hts
    simp [hts]

theorem holdsCopy_resolve (how : Resolution) (hr : b.resolve s tag how = .ok b') {other : Nat} :
    b'.HoldsCopy t other queue n ↔ b.HoldsCopy t other queue n ∧ ¬(t = s ∧ other = tag) := by
  obtain ⟨x, held, hs, -, -, rfl⟩ := resolve_eq_ok hr
  refine holdsCopy_release hs ?_
  split <;> rfl

/-! ## What a queue answers for -/

/-- The queue is there, and answers for each copy once. -/
structure Steady (b : Broker) (queue : String) : Prop extends b.Distinct queue where
  housed : b.Housed queue

theorem steady_empty (queue : String) : Steady {} queue :=
  ⟨distinct_empty queue, housed_empty queue⟩

theorem Steady.act (h : b.Steady queue) (a : Action) (kept : a ≠ .operate (.deleteQueue queue)) :
    (b.act a).Steady queue :=
  ⟨h.toDistinct.act a, h.housed.act h.sound a kept⟩

theorem Steady.answers (h : b.Steady queue) {a : Action}
    (kept : a ≠ .operate (.deleteQueue queue)) (hs : b.settling queue a = [])
    (hn : b.Answers queue n) : (b.act a).Answers queue n := by
  obtain ⟨c, hc, rfl⟩ := hn
  have hp := act_custody h.sound h.housed.of_unacked a kept
  rw [hs, List.nil_append] at hp
  exact ⟨c, hp.mem_iff.mp (List.mem_append_left _ hc), rfl⟩

theorem Steady.answers_iff (h : b.Steady queue) {a : Action}
    (kept : a ≠ .operate (.deleteQueue queue)) (hs : b.settling queue a = [])
    (ha : b.arriving queue a = []) : (b.act a).Answers queue n ↔ b.Answers queue n := by
  have hp := act_custody h.sound h.housed.of_unacked a kept
  rw [hs, ha, List.nil_append, List.append_nil] at hp
  exact exists_congr fun c => and_congr_left fun _ => hp.mem_iff.symm

theorem settling_nack (s tag : Nat) : b.settling queue (.resolve s tag (.nack true)) = [] := by
  simp only [settling]
  split <;> rfl

/-! ## Calm actions -/

theorem Action.kept_of_isCalm {a : Action} (ha : a.isCalm queue) :
    a ≠ .operate (.deleteQueue queue) := by
  rintro rfl
  simp [isCalm] at ha

theorem settling_of_isCalm {a : Action} (ha : a.isCalm queue) : b.settling queue a = [] := by
  cases a with
  | resolve => cases ha
  | _ => rfl

theorem run_heldBy {actions : List Action} (ha : ∀ a ∈ actions, a.isCalm queue) (t : Nat) :
    (b.run actions).heldBy t = b.heldBy t := by
  induction actions generalizing b with
  | nil => rfl
  | cons a actions ih =>
    obtain ⟨ha, hactions⟩ := List.forall_mem_cons.mp ha
    exact (ih hactions).trans (act_heldBy ha t)

/-- In a calm run a queue goes on answering for its copies, and others have arrived later. -/
theorem Steady.calm_run (h : b.Steady queue) {actions : List Action}
    (ha : ∀ a ∈ actions, a.isCalm queue) : (b.run actions).Steady queue ∧
      (b.Answers queue n → (b.run actions).Answers queue n) ∧
      ((b.run actions).Answers queue n → b.Answers queue n ∨ b.arrivals ≤ n) := by
  induction actions generalizing b with
  | nil => exact ⟨h, id, .inl⟩
  | cons a actions ih =>
    obtain ⟨ha, hactions⟩ := List.forall_mem_cons.mp ha
    have kept := Action.kept_of_isCalm ha
    obtain ⟨hsteady, hstays, hnew⟩ := ih (h.act a kept) hactions
    refine ⟨hsteady, fun hn => hstays (h.answers kept (settling_of_isCalm ha) hn), fun hn => ?_⟩
    rcases hnew hn with hold | hlater
    · exact (answered_before h.sound hold).imp_right fun hn => Nat.le_of_eq hn.symm
    · exact .inr (Nat.le_trans (b.act_arrivals a) hlater)

/-! ## What is held and what waits -/

theorem mem_custody_of_heldBy (hm : held ∈ b.heldBy s) :
    held.copy.original ∈ b.custody held.queue := by
  rw [heldBy] at hm
  cases hs : b.sessions[s]? with
  | none => simp [hs] at hm
  | some x =>
    simp only [hs, Option.map_some, Option.getD_some] at hm
    have hunacked := mem_unacked hs hm
    exact List.mem_map_of_mem (List.mem_append_right _ (List.mem_map_of_mem hunacked))

theorem HoldsCopy.answers (h : b.HoldsCopy s tag queue n) : b.Answers queue n := by
  obtain ⟨held, hm, -, rfl, rfl⟩ := h
  exact ⟨_, mem_custody_of_heldBy hm, rfl⟩

theorem Distinct.not_held (h : b.Distinct queue) {copy : Copy} (hc : copy ∈ b.ready queue) :
    ¬b.HoldsCopy s tag queue copy.arrival := by
  rintro ⟨held, hm, -, hq, hn⟩
  rw [heldBy] at hm
  cases hs : b.sessions[s]? with
  | none => simp [hs] at hm
  | some x =>
    simp only [hs, Option.map_some, Option.getD_some] at hm
    have hunacked : held ∈ b.unacked queue := hq ▸ mem_unacked hs hm
    have hnodup := h.nodup
    simp only [custody, List.map_append, List.map_map] at hnodup
    refine (List.nodup_append.mp hnodup).2.2 copy.arrival (List.mem_map_of_mem hc) held.copy.arrival
      (List.mem_map_of_mem hunacked) hn.symm

theorem answers_of_ready {copy : Copy} (hc : copy ∈ b.ready queue) :
    b.Answers queue copy.arrival :=
  ⟨copy.original, List.mem_map_of_mem (List.mem_append_left _ hc), rfl⟩

theorem Sound.holdsCopy_iff (h : b.Sound) (hm : held ∈ b.heldBy s) :
    b.HoldsCopy s held.tag queue n ↔ held.queue = queue ∧ held.copy.arrival = n := by
  constructor
  · rintro ⟨other, ho, htag, hq, hn⟩
    rw [heldBy] at hm ho
    cases hs : b.sessions[s]? with
    | none => simp [hs] at hm
    | some x =>
      simp only [hs, Option.map_some, Option.getD_some] at hm ho
      have hnodup : (x.unacked.map (·.tag)).Nodup :=
        (h.session hs).ordered.imp fun hlt => Nat.ne_of_lt hlt
      obtain rfl := List.inj_on_of_nodup_map hnodup ho hm htag
      exact ⟨hq, hn⟩
  · rintro ⟨hq, hn⟩
    exact ⟨held, hm, rfl, hq, hn⟩

/-- What is accepted is resolved for good, and nothing else is. -/
theorem Distinct.accepted (h : b.Distinct queue) (hr : b.resolve s tag .ack = .ok b') :
    b'.Answers queue n ↔ b.Answers queue n ∧ ¬b.HoldsCopy s tag queue n := by
  obtain ⟨x, held, hs, -, hfind, hb'⟩ := resolve_eq_ok hr
  obtain rfl : held.tag = tag := by simpa using List.find?_some hfind
  have hm : held ∈ b.heldBy s := by
    rw [heldBy_eq hs]
    exact List.mem_of_find?_eq_some hfind
  have hp : (b.custody queue).Perm ((if held.queue = queue then [held.copy.original] else []) ++
      b'.custody queue) := hb' ▸ custody_release h.sound hs hfind queue
  rw [h.sound.holdsCopy_iff hm]
  by_cases hq : held.queue = queue
  · -- The copy that was held is no more, and it was there once.
    rw [if_pos hq] at hp
    have hnodup := (hp.map (·.arrival)).nodup_iff.mp h.nodup
    rw [List.singleton_append, List.map_cons, List.nodup_cons] at hnodup
    constructor
    · rintro ⟨c, hc, rfl⟩
      refine ⟨⟨c, hp.mem_iff.mpr (List.mem_append_right _ hc), rfl⟩, fun hheld => hnodup.1 ?_⟩
      exact List.mem_map.mpr ⟨c, hc, hheld.2.symm⟩
    · rintro ⟨⟨c, hc, rfl⟩, hother⟩
      rcases List.mem_append.mp (hp.mem_iff.mp hc) with hone | hc
      · obtain rfl := List.mem_singleton.mp hone
        exact absurd ⟨hq, rfl⟩ hother
      · exact ⟨c, hc, rfl⟩
  · rw [if_neg hq, List.nil_append] at hp
    have hsame : b'.Answers queue n ↔ b.Answers queue n :=
      exists_congr fun c => and_congr_left fun _ => hp.mem_iff.symm
    rw [hsame]
    exact (and_iff_left fun hheld => hq hheld.1).symm

end CargoEvents.Broker
