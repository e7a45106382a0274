import CargoEvents.Proofs.Broker.Ledger
import CargoEvents.Proofs.Broker.Signals

/-! # What copies carry

A copy is made when its message arrives, and its number is that of the message. Whatever it
goes through after that, it carries what the message brought: all copies under one number
carry the same.
-/
namespace CargoEvents.Broker
open Wire (Bytes)

structure Content where
  routingKey : String
  typeTag : Option String
  body : Bytes
  deriving DecidableEq, Repr

def Copy.content (c : Copy) : Content where
  routingKey := c.routingKey
  typeTag := c.typeTag
  body := c.body

def Action.content? : Action → Option Content
  | .publish _ _ m => some { routingKey := m.routingKey, typeTag := tagOf m, body := m.body }
  | .operate (.inject _ key typeTag body) => some { routingKey := key, typeTag, body }
  | _ => none

def IsHeld (b : Broker) (c : Copy) : Prop :=
  ∃ (s : Nat) (x : Session) (held : Held),
    b.sessions[s]? = some x ∧ held ∈ x.unacked ∧ held.copy = c

/-- The copy waits in some queue or is held by some session. -/
def Present (b : Broker) (c : Copy) : Prop := (∃ queue, c ∈ b.ready queue) ∨ b.IsHeld c

variable {b b' : Broker} {c : Copy} {queue : String}

theorem present_of_poll {st : Stream} {d : Delivery}
    (h : (b.poll st).1 = .delivery d) :
    ∃ copy tag, b.Present copy ∧ d = copy.delivery tag := by
  have hyield := b.poll_yield st
  generalize b.poll st = polled at h hyield
  cases hyield with
  | waiting | nothing | ended | fault => cases h
  | @delivery x copy rest hs ho hx hr =>
    refine ⟨copy, x.lastTag + 1, .inl ⟨st.queue, hr ▸ List.mem_cons_self⟩, ?_⟩
    exact (Polled.delivery.inj h).symm

theorem mem_ready_giveBack {held : Held} (h : c ∈ (b.giveBack held).ready queue) :
    c ∈ b.ready queue ∨ c = held.copy.marked := by
  unfold ready giveBack at h
  rw [Table.get?_modify] at h
  unfold ready
  cases hq : b.queues.get? queue with
  | none => simp [hq] at h
  | some q =>
    rw [hq] at h
    split at h
    · rcases List.mem_cons.mp h with rfl | h
      · exact .inr rfl
      · exact .inl h
    · exact .inl h

theorem mem_ready_giveBackAll {helds : List Held} (h : c ∈ (b.giveBackAll helds).ready queue) :
    c ∈ b.ready queue ∨ ∃ held ∈ helds, c = held.copy.marked := by
  induction helds with
  | nil => exact .inl h
  | cons held helds ih =>
    rcases mem_ready_giveBack h with h | rfl
    · rcases ih h with h | ⟨other, hm, rfl⟩
      · exact .inl h
      · exact .inr ⟨other, List.mem_cons_of_mem _ hm, rfl⟩
    · exact .inr ⟨held, List.mem_cons_self, rfl⟩

theorem mem_ready_route {exchange key : String} {typeTag : Option String} {body : Bytes}
    (h : c ∈ (b.route exchange key typeTag body).ready queue) :
    c ∈ b.ready queue ∨ c = b.newCopy key typeTag body := by
  unfold ready route at h
  simp only [Table.get?_mapValues] at h
  unfold ready
  cases hq : b.queues.get? queue with
  | none => simp [hq] at h
  | some q =>
    simp only [hq, Option.map_some, Option.getD_some] at h ⊢
    split at h
    · rcases List.mem_append.mp h with h | h
      · exact .inl h
      · exact .inr (List.mem_singleton.mp h)
    · exact .inl h

theorem IsHeld.of_eq (h : b'.IsHeld c) (hs : b'.sessions = b.sessions) : b.IsHeld c := by
  unfold IsHeld at h
  rwa [hs] at h

theorem IsHeld.of_modify (h : b'.IsHeld c) {s : Nat} {f : Session → Session}
    (hs : b'.sessions = b.sessions.modify s f) {news : List Copy}
    (hf : ∀ x, ∀ held ∈ (f x).unacked, held ∈ x.unacked ∨ held.copy ∈ news) :
    b.IsHeld c ∨ c ∈ news := by
  obtain ⟨t, y, held, hy, hm, rfl⟩ := h
  rw [hs, List.getElem?_modify] at hy
  obtain ⟨x, hx, rfl⟩ := Option.map_eq_some_iff.mp hy
  by_cases hst : s = t
  · subst hst
    rw [if_pos rfl] at hm
    exact (hf x held hm).imp_left fun hm => ⟨s, x, held, hx, hm, rfl⟩
  · rw [if_neg hst] at hm
    exact .inl ⟨t, x, held, hx, hm, rfl⟩

theorem IsHeld.of_release (h : b'.IsHeld c) {s : Nat} {f : Session → Session}
    (hs : b'.sessions = b.sessions.modify s f)
    (hf : ∀ x, ∀ held ∈ (f x).unacked, held ∈ x.unacked) : b.IsHeld c := by
  have hheld : b.IsHeld c ∨ c ∈ [] := h.of_modify hs fun x held hm => .inl (hf x held hm)
  simpa using hheld

theorem Present.of_eq (h : b'.Present c) (hq : b'.queues = b.queues)
    (hs : b'.sessions = b.sessions) : b.Present c := by
  rcases h with ⟨queue, h⟩ | h
  · exact .inl ⟨queue, ready_congr hq queue ▸ h⟩
  · exact .inr (h.of_eq hs)

/-- A copy comes from one with the same number and content, or with a message that arrives. -/
inductive Stems (b : Broker) (a : Action) (b' : Broker) (c : Copy) : Prop
  | kept {c₀ : Copy} (h : b.Present c₀) (ha : c₀.arrival = c.arrival)
      (hc : c₀.content = c.content)
  | new (ha : a.content? = some c.content) (hn : c.arrival = b.arrivals)
      (hb : b'.arrivals = b.arrivals + 1)

theorem Stems.present {a : Action} (h : b.Present c) : Stems b a b' c := .kept h rfl rfl

theorem Stems.marked {a : Action} {held : Held} {s : Nat} {x : Session}
    (hs : b.sessions[s]? = some x) (hm : held ∈ x.unacked) : Stems b a b' held.copy.marked :=
  .kept (.inr ⟨s, x, held, hs, hm, rfl⟩) rfl rfl

theorem Present.stems_route {exchange key : String} {typeTag : Option String} {body : Bytes}
    {a : Action} (ha : a.content? = some { routingKey := key, typeTag, body })
    (hq : b'.queues = (b.route exchange key typeTag body).queues) (hs : b'.sessions = b.sessions)
    (hn : b'.arrivals = b.arrivals + 1) (h : b'.Present c) : Stems b a b' c := by
  rcases h with ⟨queue, h⟩ | h
  · rw [ready_congr hq] at h
    rcases mem_ready_route h with h | rfl
    · exact .present (.inl ⟨queue, h⟩)
    · exact .new ha rfl hn
  · exact .present (.inr (h.of_eq hs))

theorem Present.stems_operate (o : Operation) (h : (b.operate o).Present c) :
    Stems b (.operate o) (b.operate o) c := by
  cases o with
  | inject exchange key typeTag body => exact h.stems_route rfl rfl rfl rfl
  | deleteQueue name =>
    rcases h with ⟨queue, h⟩ | h
    · refine .present (.inl ⟨queue, ?_⟩)
      unfold ready at h ⊢
      simp only [operate, deleteQueue, signal, Table.get?_erase] at h
      split at h
      · simp at h
      · exact h
    · exact .present (.inr (h.of_eq rfl))
  | cancelConsumers | failDeclarations | failPublishes | failNextDelivery =>
    exact .present (h.of_eq rfl rfl)

theorem Present.stems {a : Action} (he : Effect b a b') (h : b'.Present c) : Stems b a b' c := by
  cases he with
  | refused => exact .present h
  | exchangeDeclared | bound | faulted => exact .present (h.of_eq rfl rfl)
  | opened =>
    rcases h with ⟨queue, h⟩ | ⟨s, x, held, hx, hm, hc⟩
    · exact .present (.inl ⟨queue, h⟩)
    · refine .present (.inr ⟨s, x, held, ?_, hm, hc⟩)
      rcases Nat.lt_or_ge s b.sessions.length with hlt | hge
      · exact (List.getElem?_append_left hlt).symm.trans hx
      · have hnew := List.mem_of_getElem? ((List.getElem?_append_right hge).symm.trans hx)
        obtain rfl := List.mem_singleton.mp hnew
        cases hm
  | queueDeclared _ hn =>
    rcases h with ⟨queue, h⟩ | h
    · exact .present (.inl ⟨queue, ready_insert hn queue ▸ h⟩)
    · exact .present (.inr (h.of_eq rfl))
  | qosSet =>
    rcases h with ⟨queue, h⟩ | h
    · exact .present (.inl ⟨queue, h⟩)
    · exact .present (.inr (h.of_release rfl fun x held hm => hm))
  | published => exact h.stems_route rfl rfl rfl rfl
  | @handedOut st x copy rest hs _ _ hr =>
    have hready : b.Present copy := .inl ⟨st.queue, hr ▸ List.mem_cons_self⟩
    rcases h with ⟨queue, h⟩ | h
    · rw [ready_handOut] at h
      split at h
      · exact .present (.inl ⟨queue, List.mem_of_mem_tail h⟩)
      · exact .present (.inl ⟨queue, h⟩)
    · have hheld : b.IsHeld c ∨ c ∈ [copy] := by
        refine h.of_modify rfl fun y held hm => ?_
        rcases List.mem_append.mp hm with hm | hm
        · exact .inl hm
        · obtain rfl := List.mem_singleton.mp hm
          exact .inr (List.mem_singleton.mpr rfl)
      rcases hheld with h | h
      · exact .present (.inr h)
      · exact .present (List.mem_singleton.mp h ▸ hready)
  | @settled s tag =>
    rcases h with ⟨queue, h⟩ | h
    · exact .present (.inl ⟨queue, h⟩)
    · exact .present (.inr (h.of_release rfl fun x held hm => (List.mem_filter.mp hm).1))
  | @returned s tag x held hs _ hh =>
    rcases h with ⟨queue, h⟩ | h
    · rcases mem_ready_giveBack h with h | rfl
      · exact .present (.inl ⟨queue, h⟩)
      · exact .marked hs (List.mem_of_find?_eq_some hh)
    · exact .present (.inr (h.of_release rfl fun x held hm => (List.mem_filter.mp hm).1))
  | @shut s x hs =>
    rcases h with ⟨queue, h⟩ | h
    · rcases mem_ready_giveBackAll h with h | ⟨held, hm, rfl⟩
      · exact .present (.inl ⟨queue, h⟩)
      · exact .marked hs hm
    · refine .present (.inr (h.of_release (s := s) (f := Session.shut) ?_ fun x held hm => ?_))
      · simp [signal, Broker.onSession]
      · cases hm
  | operated o => exact h.stems_operate o

/-! ## Runs -/

def Numbered (b : Broker) : Prop := ∀ c, b.Present c → c.arrival < b.arrivals

/-- The message under the number has arrived, and all its copies carry the content. -/
structure Carries (b : Broker) (n : Nat) (content : Content) : Prop where
  arrived : n < b.arrivals
  carried : ∀ c, b.Present c → c.arrival = n → c.content = content

theorem numbered_empty : Numbered {} := by
  rintro c (⟨queue, h⟩ | ⟨s, x, held, hx, -⟩)
  · simp [ready] at h
  · simp at hx

theorem Numbered.act (h : b.Numbered) (a : Action) : (b.act a).Numbered := by
  intro c hc
  have hle := b.act_arrivals a
  cases hc.stems (b.act_effect a) with
  | kept hc₀ ha _ =>
    have hlt := h _ hc₀
    omega
  | new _ hn hb => omega

theorem Numbered.run (h : b.Numbered) (actions : List Action) : (b.run actions).Numbered := by
  induction actions generalizing b with
  | nil => exact h
  | cons a actions ih => exact ih (h.act a)

theorem Numbered.carries (h : b.Numbered) {a : Action} {content : Content}
    (ha : a.content? = some content) (hb : b.arrivals < (b.act a).arrivals) :
    (b.act a).Carries b.arrivals content := by
  constructor
  · exact hb
  · intro c hc hn
    cases hc.stems (b.act_effect a) with
    | kept hc₀ ha₀ _ =>
      have hlt := h _ hc₀
      omega
    | new hcontent _ _ => exact Option.some.inj (hcontent.symm.trans ha)

theorem Numbered.carries_publish (h : b.Numbered) {s : Nat} {exchange : String} {m : Message}
    (hp : b.publish s exchange m = .ok b') :
    b'.Carries b.arrivals { routingKey := m.routingKey, typeTag := tagOf m, body := m.body } := by
  have hact : b.act (.publish s exchange m) = b' := by
    rw [Broker.act, hp]
    rfl
  obtain ⟨-, -, -, hb'⟩ := publish_eq_ok hp
  rw [← hact]
  refine h.carries rfl ?_
  rw [hact, hb']
  exact Nat.lt_succ_self _

theorem Carries.act {n : Nat} {content : Content} (h : b.Carries n content) (a : Action) :
    (b.act a).Carries n content := by
  constructor
  · exact Nat.lt_of_lt_of_le h.arrived (b.act_arrivals a)
  · intro c hc hn
    cases hc.stems (b.act_effect a) with
    | kept hc₀ ha hcontent => exact hcontent ▸ h.carried _ hc₀ (ha.trans hn)
    | new _ hnew _ =>
      have harrived := h.arrived
      omega

theorem Carries.run {n : Nat} {content : Content} (h : b.Carries n content)
    (actions : List Action) : (b.run actions).Carries n content := by
  induction actions generalizing b with
  | nil => exact h
  | cons a actions ih => exact ih (h.act a)

end CargoEvents.Broker
