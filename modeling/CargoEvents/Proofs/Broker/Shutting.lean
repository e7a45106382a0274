import CargoEvents.Proofs.Broker.Custody

/-! # Sessions that close

A session that closes gives back all it holds, in front of what waits, and stays closed and
empty for good. Until then it goes on holding what nobody resolves.
-/
namespace CargoEvents.Broker

/-- The session is closed and holds nothing. -/
def Shut (b : Broker) (s : Nat) : Prop :=
  ∃ x, b.sessions[s]? = some x ∧ x.isOpen = false ∧ x.unacked = []

variable {b b' : Broker} {s : Nat}

theorem Shut.of_eq (h : b.Shut s) (hs : b'.sessions = b.sessions) : b'.Shut s := by
  unfold Shut
  rw [hs]
  exact h

theorem Shut.modify (h : b.Shut s) {t : Nat} {f : Session → Session}
    (hs : b'.sessions = b.sessions.modify t f)
    (hf : ∀ x, b.sessions[t]? = some x → x.isOpen = false → x.unacked = [] →
      (f x).isOpen = false ∧ (f x).unacked = []) : b'.Shut s := by
  obtain ⟨x, hx, hclosed, hempty⟩ := h
  by_cases hts : t = s
  · subst hts
    refine ⟨f x, ?_, hf x hx hclosed hempty⟩
    rw [hs, List.getElem?_modify, hx]
    simp
  · refine ⟨x, ?_, hclosed, hempty⟩
    rw [hs, List.getElem?_modify, hx]
    simp [hts]

theorem Shut.act (h : b.Shut s) (a : Action) : (b.act a).Shut s := by
  generalize hb : b.act a = b'
  have he : Effect b a b' := hb ▸ b.act_effect a
  -- An open session is another one.
  have hopen {t : Nat} {x : Session} {f : Session → Session} (hx : b.sessions[t]? = some x)
      (ho : x.isOpen) (hs : b'.sessions = b.sessions.modify t f) : b'.Shut s := by
    refine h.modify hs fun y hy hclosed _ => ?_
    obtain rfl : x = y := Option.some.inj (hx.symm.trans hy)
    rw [ho] at hclosed
    cases hclosed
  cases he with
  | refused | exchangeDeclared | queueDeclared | bound | published | faulted => exact h.of_eq rfl
  | opened =>
    obtain ⟨x, hx, hshut⟩ := h
    exact ⟨x, (List.getElem?_append_left (List.getElem?_eq_some_iff.mp hx).1).trans hx, hshut⟩
  | qosSet => exact h.modify rfl fun x _ hclosed hempty => ⟨hclosed, hempty⟩
  | handedOut hx ho => exact hopen hx ho rfl
  | settled hx ho => exact hopen hx ho rfl
  | returned hx ho => exact hopen hx ho rfl
  | shut hx ho => exact hopen hx ho (f := Session.shut) (by simp [signal, Broker.onSession])
  | operated o => cases o <;> exact h.of_eq rfl

theorem Shut.run (h : b.Shut s) (actions : List Action) : (b.run actions).Shut s := by
  induction actions generalizing b with
  | nil => exact h
  | cons a actions ih => exact ih (h.act a)

theorem Shut.resolve (h : b.Shut s) (tag : Nat) (how : Resolution) :
    b.act (.resolve s tag how) = b := by
  obtain ⟨x, hx, hclosed, -⟩ := h
  simp [Broker.act, Broker.resolve, hx, hclosed, after]

/-! ## Closing -/

theorem Sound.shut_closeSession (h : b.Sound) {x : Session} (hs : b.sessions[s]? = some x) :
    (b.closeSession s).Shut s := by
  unfold closeSession
  rw [hs]
  by_cases ho : x.isOpen
  · have hsessions : (giveBackAll (b.onSession s Session.shut) x.unacked).sessions =
        b.sessions.modify s Session.shut := by
      simp [Broker.onSession]
    simp only [ho, if_true]
    refine ⟨x.shut, ?_, rfl, rfl⟩
    change (giveBackAll (b.onSession s Session.shut) x.unacked).sessions[s]? = _
    rw [hsessions, List.getElem?_modify, hs]
    simp
  · have hclosed : x.isOpen = false := Bool.eq_false_iff.mpr ho
    simp only [hclosed]
    exact ⟨x, hs, hclosed, (h.session hs).closed hclosed⟩

def putBack (b : Broker) (s : Nat) (queue : String) : List Copy :=
  match b.sessions[s]? with
  | none => []
  | some x => (x.unacked.filter (·.queue == queue)).map (·.copy.marked)

/-- What the session held stands in front of what waited. -/
theorem Sound.ready_closeSession (h : b.Sound) (s : Nat) {queue : String}
    (hq : b.queues.contains queue) :
    (b.closeSession s).ready queue = b.putBack s queue ++ b.ready queue := by
  unfold closeSession putBack
  cases hs : b.sessions[s]? with
  | none => rfl
  | some x =>
    by_cases ho : x.isOpen
    · simp only [ho, if_true]
      exact ready_giveBackAll (b := b.onSession s Session.shut) fun _ _ _ => hq
    · have hclosed : x.isOpen = false := Bool.eq_false_iff.mpr ho
      simp [hclosed, (h.session hs).closed hclosed]

/-! ## Holding -/

/-- The session holds a delivery under the tag, unless it is closed. -/
def HoldsOpen (b : Broker) (s tag : Nat) : Prop :=
  ∃ x, b.sessions[s]? = some x ∧ (x.isOpen → ∃ held ∈ x.unacked, held.tag = tag)

variable {tag : Nat}

theorem HoldsOpen.of_eq (h : b.HoldsOpen s tag) (hs : b'.sessions = b.sessions) :
    b'.HoldsOpen s tag := by
  unfold HoldsOpen
  rw [hs]
  exact h

theorem HoldsOpen.modify (h : b.HoldsOpen s tag) {t : Nat} {f : Session → Session}
    (hs : b'.sessions = b.sessions.modify t f)
    (hf : t = s → ∀ x, (f x).isOpen →
      x.isOpen ∧ ∀ held ∈ x.unacked, held.tag = tag → held ∈ (f x).unacked) :
    b'.HoldsOpen s tag := by
  obtain ⟨x, hx, hheld⟩ := h
  by_cases hts : t = s
  · refine ⟨f x, ?_, fun ho => ?_⟩
    · rw [hs, List.getElem?_modify, hx]
      simp [hts]
    · obtain ⟨ho, hkeep⟩ := hf hts x ho
      obtain ⟨held, hm, htag⟩ := hheld ho
      exact ⟨held, hkeep held hm htag, htag⟩
  · refine ⟨x, ?_, hheld⟩
    rw [hs, List.getElem?_modify, hx]
    simp [hts]

theorem HoldsOpen.release (h : b.HoldsOpen s tag) {t other : Nat}
    (hs : b'.sessions = b.sessions.modify t (·.release other)) (hne : t = s → other ≠ tag) :
    b'.HoldsOpen s tag := by
  refine h.modify hs fun hts x ho => ⟨ho, fun held hm htag => ?_⟩
  have hne := hne hts
  refine List.mem_filter.mpr ⟨hm, ?_⟩
  simp only [bne_iff_ne, ne_eq]
  omega

theorem HoldsOpen.act (h : b.HoldsOpen s tag) {a : Action}
    (ha : ∀ how, a ≠ .resolve s tag how) : (b.act a).HoldsOpen s tag := by
  generalize hb : b.act a = b'
  have he : Effect b a b' := hb ▸ b.act_effect a
  cases he with
  | refused | exchangeDeclared | queueDeclared | bound | published | faulted => exact h.of_eq rfl
  | opened =>
    obtain ⟨x, hx, hheld⟩ := h
    exact ⟨x, (List.getElem?_append_left (List.getElem?_eq_some_iff.mp hx).1).trans hx, hheld⟩
  | qosSet => exact h.modify rfl fun _ x ho => ⟨ho, fun held hm _ => hm⟩
  | handedOut =>
    exact h.modify rfl fun _ x ho => ⟨ho, fun held hm _ => List.mem_append_left _ hm⟩
  | @settled t other how =>
    refine h.release rfl ?_
    rintro rfl rfl
    exact ha how rfl
  | @returned t other =>
    refine h.release rfl ?_
    rintro rfl rfl
    exact ha (.nack true) rfl
  | @shut t x =>
    refine h.modify (f := Session.shut) (t := t) (by simp [signal, Broker.onSession]) ?_
    rintro rfl x ho
    cases ho
  | operated o => cases o <;> exact h.of_eq rfl

theorem HoldsOpen.run (h : b.HoldsOpen s tag) {actions : List Action}
    (ha : ∀ a ∈ actions, ∀ how, a ≠ .resolve s tag how) : (b.run actions).HoldsOpen s tag := by
  induction actions generalizing b with
  | nil => exact h
  | cons a actions ih =>
    obtain ⟨ha, hactions⟩ := List.forall_mem_cons.mp ha
    exact ih (h.act ha) hactions

theorem HoldsOpen.resolve (h : b.HoldsOpen s tag) (hs : b.isOpen s) (how : Resolution) :
    ∃ b', b.resolve s tag how = .ok b' := by
  obtain ⟨x, hx, ho⟩ := isOpen_iff.mp hs
  obtain ⟨y, hy, hheld⟩ := h
  obtain rfl : x = y := Option.some.inj (hx.symm.trans hy)
  obtain ⟨held, hm, htag⟩ := hheld ho
  obtain ⟨first, hfirst⟩ := Option.isSome_iff_exists.mp
    (List.find?_isSome (p := (·.tag == tag)).mpr ⟨held, hm, by simp [htag]⟩)
  simp only [Broker.resolve, hx, ho, hfirst]
  exact ⟨_, rfl⟩

theorem holdsOpen_handOut {x : Session} (hs : b.sessions[s]? = some x) (queue : String)
    (tag : Nat) (copy : Copy) : (b.handOut s queue tag copy).HoldsOpen s tag := by
  refine ⟨{ x with lastTag := tag, unacked := x.unacked ++ [{ tag, queue, copy }] }, ?_, ?_⟩
  · simp [handOut, hs]
  · intro _
    exact ⟨{ tag, queue, copy }, by simp, rfl⟩

end CargoEvents.Broker
