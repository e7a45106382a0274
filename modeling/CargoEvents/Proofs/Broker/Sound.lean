import CargoEvents.Proofs.Broker.Actions
import Mathlib.Data.List.Nodup

/-! # Invariants of the broker

Bindings name queues there are, each once; a session's deliveries stand in the order of
tags that were never given out twice; and a closed session holds none. Every run keeps
this, and what an action does to one session is bounded by `Session.Later`.
-/
namespace CargoEvents.Broker

structure Session.Sound (x : Session) : Prop where
  ordered : (x.unacked.map (·.tag)).Pairwise (· < ·)
  given : ∀ held ∈ x.unacked, held.tag ≤ x.lastTag
  closed : x.isOpen = false → x.unacked = []

structure Sound (b : Broker) : Prop where
  bound : ∀ x ∈ b.bindings, b.queues.contains x.queue
  distinct : b.bindings.Nodup
  sessions : ∀ x ∈ b.sessions, x.Sound

theorem sound_empty : Sound {} :=
  ⟨by simp, by simp, by simp⟩

theorem Sound.session {b : Broker} (h : b.Sound) {s : Nat} {x : Session}
    (hs : b.sessions[s]? = some x) : x.Sound := h.sessions x (List.mem_of_getElem? hs)

theorem forall_modify {α : Type} {l : List α} {i : Nat} {f : α → α} {P : α → Prop}
    (h : ∀ x ∈ l, P x) (hf : ∀ x, l[i]? = some x → P (f x)) : ∀ x ∈ l.modify i f, P x := by
  intro y hy
  obtain ⟨j, hj⟩ := List.mem_iff_getElem?.mp hy
  rw [List.getElem?_modify] at hj
  obtain ⟨x, hx, rfl⟩ := Option.map_eq_some_iff.mp hj
  by_cases hij : i = j
  · subst hij
    simpa using hf x hx
  · simpa [hij] using h x (List.mem_of_getElem? hx)

/-! ## Giving back -/

@[simp] theorem giveBack_sessions (b : Broker) (held : Held) :
    (b.giveBack held).sessions = b.sessions := rfl

@[simp] theorem giveBack_bindings (b : Broker) (held : Held) :
    (b.giveBack held).bindings = b.bindings := rfl

@[simp] theorem giveBack_contains (b : Broker) (held : Held) (queue : String) :
    (b.giveBack held).queues.contains queue = b.queues.contains queue := by
  simp [giveBack]

@[simp] theorem giveBackAll_cons (b : Broker) (held : Held) (helds : List Held) :
    b.giveBackAll (held :: helds) = (b.giveBackAll helds).giveBack held := rfl

theorem giveBackAll_eq (b : Broker) (helds : List Held) :
    b.giveBackAll helds = { b with queues := (b.giveBackAll helds).queues } := by
  induction helds with
  | nil => rfl
  | cons held helds ih =>
    exact congrArg (fun c => { c with queues := (b.giveBackAll (held :: helds)).queues }) ih

@[simp] theorem giveBackAll_sessions (b : Broker) (helds : List Held) :
    (b.giveBackAll helds).sessions = b.sessions := by
  rw [giveBackAll_eq]

@[simp] theorem giveBackAll_bindings (b : Broker) (helds : List Held) :
    (b.giveBackAll helds).bindings = b.bindings := by
  rw [giveBackAll_eq]

@[simp] theorem giveBackAll_contains (b : Broker) (helds : List Held) (queue : String) :
    (b.giveBackAll helds).queues.contains queue = b.queues.contains queue := by
  induction helds with
  | nil => rfl
  | cons held helds ih => simpa using ih

/-! ## Sessions -/

theorem Session.Sound.setPrefetch {x : Session} (h : x.Sound) (n : Nat) :
    Session.Sound { x with prefetch := n } := ⟨h.ordered, h.given, h.closed⟩

theorem Session.Sound.release {x : Session} (h : x.Sound) (tag : Nat) : (x.release tag).Sound := by
  have hsub : (x.release tag).unacked.Sublist x.unacked := List.filter_sublist
  refine ⟨h.ordered.sublist (hsub.map _), fun held hm => h.given held (hsub.subset hm), ?_⟩
  intro hc
  simp [Session.release, h.closed hc]

theorem Session.Sound.shut (x : Session) : x.shut.Sound :=
  ⟨by simp [Session.shut], by simp [Session.shut], fun _ => rfl⟩

theorem Session.Sound.hold {x : Session} (h : x.Sound) (ho : x.isOpen) (queue : String)
    (copy : Copy) :
    Session.Sound { x with
      lastTag := x.lastTag + 1
      unacked := x.unacked ++ [{ tag := x.lastTag + 1, queue, copy }] } := by
  refine ⟨?_, ?_, ?_⟩
  · simp only [List.map_append, List.map_cons, List.map_nil]
    refine List.pairwise_append.mpr ⟨h.ordered, by simp, ?_⟩
    intro tag ht new hn
    obtain ⟨held, hm, rfl⟩ := List.mem_map.mp ht
    have := h.given held hm
    simp only [List.mem_singleton] at hn
    omega
  · intro held hm
    rcases List.mem_append.mp hm with hm | hm
    · have := h.given held hm
      dsimp only
      omega
    · simp only [List.mem_singleton] at hm
      subst hm
      exact Nat.le_refl _
  · intro hc
    simp [ho] at hc

theorem Session.sound_new : Session.Sound {} := ⟨by simp, by simp, by simp⟩

/-! ## Runs -/

theorem Sound.onSession {b : Broker} (h : b.Sound) {s : Nat} {f : Session → Session}
    (hf : ∀ x, b.sessions[s]? = some x → (f x).Sound) : (b.onSession s f).Sound :=
  ⟨h.bound, h.distinct, forall_modify h.sessions hf⟩

theorem Sound.operate {b : Broker} (h : b.Sound) (o : Operation) : (b.operate o).Sound := by
  cases o with
  | inject exchange key typeTag body =>
    refine ⟨fun x hx => ?_, h.distinct, h.sessions⟩
    simpa [Broker.operate, inject, signal, route] using h.bound x hx
  | deleteQueue name =>
    refine ⟨fun x hx => ?_, h.distinct.filter _, h.sessions⟩
    obtain ⟨hx, hne⟩ := List.mem_filter.mp hx
    simp only [Broker.operate, deleteQueue, signal, Table.contains_erase, hne, h.bound x hx]
    rfl
  | cancelConsumers => exact ⟨h.bound, h.distinct, h.sessions⟩
  | failDeclarations reason => exact ⟨h.bound, h.distinct, h.sessions⟩
  | failPublishes reason => exact ⟨h.bound, h.distinct, h.sessions⟩
  | failNextDelivery reason => exact ⟨h.bound, h.distinct, h.sessions⟩

theorem Sound.act {b : Broker} (h : b.Sound) (a : Action) : (b.act a).Sound := by
  generalize hb : b.act a = b'
  have he : Effect b a b' := hb ▸ b.act_effect a
  cases he with
  | refused => exact h
  | opened =>
    refine ⟨h.bound, h.distinct, fun x hx => ?_⟩
    rcases List.mem_append.mp hx with hx | hx
    · exact h.sessions x hx
    · simp only [List.mem_singleton] at hx
      subst hx
      exact Session.sound_new
  | exchangeDeclared => exact ⟨h.bound, h.distinct, h.sessions⟩
  | queueDeclared =>
    refine ⟨fun x hx => ?_, h.distinct, h.sessions⟩
    simp [h.bound x hx]
  | qosSet => exact h.onSession fun x hx => (h.session hx).setPrefetch _
  | bound hs hx hq =>
    refine ⟨fun x hm => ?_, List.Nodup.insert h.distinct, h.sessions⟩
    rcases List.mem_insert_iff.mp hm with rfl | hm
    · exact hq
    · exact h.bound x hm
  | published =>
    refine ⟨fun x hx => ?_, h.distinct, h.sessions⟩
    simpa [signal, route] using h.bound x hx
  | faulted => exact ⟨h.bound, h.distinct, h.sessions⟩
  | @handedOut st x copy rest hs ho hx hr =>
    refine ⟨fun y hy => ?_, h.distinct, forall_modify h.sessions fun y hy => ?_⟩
    · simpa [handOut] using h.bound y hy
    · obtain rfl : x = y := Option.some.inj (hs.symm.trans hy)
      exact (h.session hs).hold ho _ _
  | @settled s tag =>
    have hr := h.onSession (f := (·.release tag)) fun y (hy : b.sessions[s]? = some y) =>
      (h.session hy).release tag
    exact ⟨hr.bound, hr.distinct, hr.sessions⟩
  | @returned s tag x held =>
    have hr := h.onSession (f := (·.release tag)) fun y (hy : b.sessions[s]? = some y) =>
      (h.session hy).release tag
    refine ⟨fun y hy => ?_, hr.distinct, hr.sessions⟩
    exact (giveBack_contains ..).trans (hr.bound y hy)
  | @shut s x =>
    have hr := h.onSession (f := Session.shut) fun y (_ : b.sessions[s]? = some y) =>
      Session.Sound.shut y
    refine ⟨fun y hy => ?_, ?_, ?_⟩
    · have hy : y ∈ b.bindings := by simpa [signal, Broker.onSession] using hy
      exact (giveBackAll_contains ..).trans (hr.bound y hy)
    · simpa [signal] using hr.distinct
    · simpa [signal] using hr.sessions
  | operated o => exact h.operate o

theorem Sound.run {b : Broker} (h : b.Sound) (actions : List Action) : (b.run actions).Sound := by
  induction actions generalizing b with
  | nil => exact h
  | cons a actions ih => exact ih (h.act a)

/-! ## What becomes of a session -/

/-- Tags are given out in order, so what a session holds under an old tag it held before. -/
structure Session.Later (x y : Session) : Prop where
  lastTag_le : x.lastTag ≤ y.lastTag
  held : ∀ held ∈ y.unacked, held ∈ x.unacked ∨ x.lastTag < held.tag

theorem Session.Later.refl (x : Session) : x.Later x := ⟨Nat.le_refl _, fun _ h => .inl h⟩

theorem Session.Later.trans {x y z : Session} (hxy : x.Later y) (hyz : y.Later z) : x.Later z := by
  refine ⟨Nat.le_trans hxy.lastTag_le hyz.lastTag_le, fun held hm => ?_⟩
  rcases hyz.held held hm with hm | hlt
  · exact hxy.held held hm
  · exact .inr (Nat.lt_of_le_of_lt hxy.lastTag_le hlt)

theorem Session.Later.release (x : Session) (tag : Nat) : x.Later (x.release tag) :=
  ⟨Nat.le_refl _, fun _ h => .inl (List.mem_filter.mp h).1⟩

theorem Session.Later.shut (x : Session) : x.Later x.shut :=
  ⟨Nat.le_refl _, fun _ h => by simp [Session.shut] at h⟩

def SessionsLater (b b' : Broker) : Prop :=
  ∀ (s : Nat) (x : Session), b.sessions[s]? = some x → ∃ y, b'.sessions[s]? = some y ∧ x.Later y

theorem SessionsLater.of_eq {b b' : Broker} (h : b'.sessions = b.sessions) : SessionsLater b b' :=
  fun _ x hx => ⟨x, h ▸ hx, .refl x⟩

theorem SessionsLater.modify {b b' : Broker} {s : Nat} {f : Session → Session}
    (h : b'.sessions = b.sessions.modify s f)
    (hf : ∀ x, b.sessions[s]? = some x → x.Later (f x)) : SessionsLater b b' := by
  intro t x hx
  rw [h, List.getElem?_modify, hx]
  by_cases hst : s = t
  · subst hst
    exact ⟨f x, by simp, hf x hx⟩
  · exact ⟨x, by simp [hst], .refl x⟩

theorem SessionsLater.length {b b' : Broker} (h : SessionsLater b b') :
    b.sessions.length ≤ b'.sessions.length := by
  by_contra hlt
  obtain ⟨y, hy, -⟩ := h b'.sessions.length _ (List.getElem?_eq_getElem (Nat.not_le.mp hlt))
  simp at hy

theorem act_later (b : Broker) (a : Action) : SessionsLater b (b.act a) := by
  generalize hb : b.act a = b'
  have he : Effect b a b' := hb ▸ b.act_effect a
  cases he with
  | refused | exchangeDeclared | queueDeclared | bound | published | faulted => exact .of_eq rfl
  | opened =>
    intro s x hx
    exact ⟨x, (List.getElem?_append_left (List.getElem?_eq_some_iff.mp hx).1).trans hx, .refl x⟩
  | qosSet => exact .modify rfl fun x _ => ⟨Nat.le_refl _, fun _ h => .inl h⟩
  | @handedOut st x copy rest hs =>
    refine .modify rfl fun y hy => ?_
    obtain rfl : x = y := Option.some.inj (hs.symm.trans hy)
    refine ⟨Nat.le_succ _, fun held hm => ?_⟩
    rcases List.mem_append.mp hm with hm | hm
    · exact .inl hm
    · simp only [List.mem_singleton] at hm
      subst hm
      exact .inr (Nat.lt_succ_self _)
  | settled => exact .modify rfl fun x _ => .release x _
  | returned => exact .modify rfl fun x _ => .release x _
  | shut => exact .modify (by simp [signal]; rfl) fun x _ => .shut x
  | operated o => cases o <;> exact .of_eq rfl

theorem run_later (b : Broker) (actions : List Action) : SessionsLater b (b.run actions) := by
  induction actions generalizing b with
  | nil => exact .of_eq rfl
  | cons a actions ih =>
    intro s x hx
    obtain ⟨y, hy, hxy⟩ := b.act_later a s x hx
    obtain ⟨z, hz, hyz⟩ := ih (b.act a) s y hy
    exact ⟨z, hz, hxy.trans hyz⟩

end CargoEvents.Broker
