import CargoEvents.Proofs.Broker.Lines
import Mathlib.Data.List.Infix

/-! # Limits and tags

A session counts its deliveries, over whatever streams and from whatever queues it gets them, and
the number of each is its tag. So each tag is new, and what is handed out is added to what the
session holds. A session with a limit gets nothing once it holds that many.
-/
namespace CargoEvents.Broker
open scoped List

def giving (b : Broker) (s : Nat) (a : Action) : List Delivery :=
  ((b.yielded a).toList.filter (·.1.session == s)).map (·.2)

def given (b : Broker) (s : Nat) : List Action → List Delivery
  | [] => []
  | a :: actions => b.giving s a ++ (b.act a).given s actions

/-- The tag of the last delivery that session `s` got, zero if it got none. -/
def lastTag (b : Broker) (s : Nat) : Nat := (b.sessions[s]?.map (·.lastTag)).getD 0

/-- What an action does to a session's deliveries: it may take some away, or it hands out one under
the next tag. -/
inductive Deal (b : Broker) (s : Nat) (a : Action) : Prop
  | nothing (hgive : b.giving s a = []) (htag : (b.act a).lastTag s = b.lastTag s)
      (hheld : (b.act a).heldBy s <+ b.heldBy s)
  | delivery {queue : String} {x : Session} {copy : Copy}
      (hs : b.sessions[s]? = some x) (hfull : ¬x.isFull)
      (hgive : b.giving s a = [copy.delivery (b.lastTag s + 1)])
      (htag : (b.act a).lastTag s = b.lastTag s + 1)
      (hheld : (b.act a).heldBy s =
        b.heldBy s ++ [{ tag := b.lastTag s + 1, queue, copy }])

variable {b : Broker} {s t p : Nat} {a : Action} {actions : List Action}

/-! ## One action -/

theorem lastTag_eq {x : Session} (hs : b.sessions[s]? = some x) : b.lastTag s = x.lastTag := by
  simp [lastTag, hs]

theorem lastTag_act (hp : ∀ st, a ≠ .poll st) (s : Nat) : (b.act a).lastTag s = b.lastTag s := by
  have hsame {b' : Broker} {t : Nat} {f : Session → Session}
      (h : b'.sessions = b.sessions.modify t f) (hf : ∀ x, (f x).lastTag = x.lastTag) :
      b'.lastTag s = b.lastTag s :=
    congrArg (·.getD 0) (map_modify (·.lastTag) h hf s)
  generalize hb : b.act a = b'
  have he : Effect b a b' := hb ▸ b.act_effect a
  cases he with
  | refused | exchangeDeclared | queueDeclared | bound | published => rfl
  | opened => exact getD_openSession (·.lastTag) s
  | qosSet | settled | returned => exact hsame rfl fun _ => rfl
  | shut => exact hsame (giveBackAll_sessions _ _) (by exact fun _ => rfl)
  | faulted | handedOut => exact (hp _ rfl).elim
  | operated o => cases o <;> rfl

theorem lastTag_handOut {x : Session} (hs : b.sessions[t]? = some x) (queue : String) (tag : Nat)
    (copy : Copy) (s : Nat) :
    (b.handOut t queue tag copy).lastTag s = if s = t then tag else b.lastTag s := by
  rw [lastTag, handOut, List.getElem?_modify]
  by_cases hst : s = t
  · subst hst
    simp [hs]
  · simp [hst, Ne.symm hst, lastTag]

/-- What can become of a session's deliveries. -/
theorem Sound.deal (h : b.Sound) (s : Nat) (a : Action) : b.Deal s a := by
  by_cases hp : ∃ st, a = .poll st
  · obtain ⟨st, rfl⟩ := hp
    rcases b.poll_cases st with ⟨hnone, -, hsessions⟩ | ⟨x, copy, rest, hs, hfull, -, hy, hact⟩
    · refine .nothing ?_ ?_ ?_
      · simp [giving, hnone]
      · rw [lastTag, hsessions, lastTag]
      · rw [heldBy, hsessions, heldBy]
    · have htag := lastTag_handOut hs st.queue (x.lastTag + 1) copy s
      have hheld := heldBy_handOut hs st.queue (x.lastTag + 1) copy s
      rw [← hact] at htag hheld
      by_cases hto : s = st.session
      · subst hto
        rw [if_pos rfl] at htag hheld
        rw [← lastTag_eq hs] at htag hheld hy
        exact .delivery hs hfull (by simp [giving, hy]) htag hheld
      · rw [if_neg hto] at htag
        rw [if_neg hto, List.append_nil] at hheld
        exact .nothing (by simp [giving, hy, Ne.symm hto]) htag (hheld ▸ .refl _)
  · have hp (st : Stream) : a ≠ .poll st := fun hst => hp ⟨st, hst⟩
    refine .nothing ?_ (lastTag_act hp s) (h.heldBy_act hp s)
    cases a with
    | poll st => exact (hp st rfl).elim
    | _ => rfl

/-! ## Runs -/

theorem Sound.given_tags (h : b.Sound) (s : Nat) (actions : List Action) :
    (b.given s actions).map (·.tag) =
      List.range' (b.lastTag s + 1) (b.given s actions).length := by
  induction actions generalizing b with
  | nil => rfl
  | cons a actions ih =>
    have hrest := ih (h.act a)
    rw [given]
    cases h.deal s a with
    | nothing hgive htag =>
      rw [htag] at hrest
      rw [hgive]
      exact hrest
    | delivery _ _ hgive htag =>
      rw [htag] at hrest
      rw [hgive, List.singleton_append, List.map_cons, hrest, List.length_cons, List.range'_succ]
      rfl

theorem Sound.heldBy_given (h : b.Sound) (s : Nat) (actions : List Action) :
    ((b.run actions).heldBy s).length ≤ (b.heldBy s).length + (b.given s actions).length := by
  induction actions generalizing b with
  | nil => exact Nat.le_refl _
  | cons a actions ih =>
    have hrest := ih (h.act a)
    rw [run_cons, given, List.length_append]
    cases h.deal s a with
    | nothing hgive _ hheld =>
      have hfewer := hheld.length_le
      rw [hgive]
      simp only [List.length_nil]
      omega
    | delivery _ _ hgive _ hheld =>
      rw [hheld, List.length_append] at hrest
      rw [hgive]
      simp only [List.length_singleton] at hrest ⊢
      omega

theorem given_append (b : Broker) (s : Nat) (earlier later : List Action) :
    b.given s (earlier ++ later) = b.given s earlier ++ (b.run earlier).given s later := by
  induction earlier generalizing b with
  | nil => rfl
  | cons a earlier ih => rw [List.cons_append, given, ih, given, List.append_assoc, run_cons]

theorem Sound.heldBy_poll (h : b.Sound) {st : Stream} {d : Delivery}
    (hd : (b.poll st).1 = .delivery d) : (∀ held ∈ b.heldBy st.session, held.tag < d.tag) ∧
      ∃ copy : Copy, d = copy.delivery d.tag ∧ (b.act (.poll st)).heldBy st.session =
        b.heldBy st.session ++ [{ tag := d.tag, queue := st.queue, copy }] := by
  obtain ⟨x, copy, rest, hs, -, -, rfl, hact⟩ := poll_delivery hd
  refine ⟨fun held hm => Nat.lt_succ_of_le ?_, copy, rfl, ?_⟩
  · exact (h.session hs).given held (heldBy_eq hs ▸ hm)
  · rw [hact, heldBy_handOut hs, if_pos rfl]
    rfl

/-! ## Under a limit -/

theorem isFull_iff {x : Session} (hs : b.sessions[s]? = some x) (hlimit : b.limit? s = some p)
    (hp : 0 < p) : x.isFull ↔ p ≤ (b.heldBy s).length := by
  obtain rfl : x.prefetch = p := by simpa [limit?, hs] using hlimit
  simp [Session.isFull, heldBy_eq hs, hp]

theorem Sound.limit_act (h : b.Sound) (hlimit : b.limit? s = some p) (hp : 0 < p)
    (hle : (b.heldBy s).length ≤ p) (a : Action) : ((b.act a).heldBy s).length ≤ p := by
  cases h.deal s a with
  | nothing _ _ hheld => exact Nat.le_trans hheld.length_le hle
  | delivery hs hfull _ _ hheld =>
    rw [isFull_iff hs hlimit hp, Nat.not_le] at hfull
    rw [hheld, List.length_append]
    exact hfull

theorem Sound.limit_run (h : b.Sound) (hp : 0 < p) (hle : (b.heldBy s).length ≤ p)
    (hlimit : ∀ mid, mid <+: actions → (b.run mid).limit? s = some p) :
    ((b.run actions).heldBy s).length ≤ p := by
  induction actions generalizing b with
  | nil => exact hle
  | cons a actions ih =>
    have hfirst := h.limit_act (hlimit [] List.nil_prefix) hp hle a
    exact ih (h.act a) hfirst fun mid hmid =>
      hlimit (a :: mid) (List.cons_prefix_cons.mpr ⟨rfl, hmid⟩)

theorem poll_at_limit {st : Stream} (hlimit : b.limit? st.session = some p) (hp : 0 < p)
    (hfull : (b.heldBy st.session).length = p) :
    (∀ d, (b.poll st).1 ≠ .delivery d) ∧ (b.act (.poll st)).queues = b.queues ∧
      (b.act (.poll st)).sessions = b.sessions := by
  have hfull {x : Session} (hs : b.sessions[st.session]? = some x) : x.isFull :=
    (isFull_iff hs hlimit hp).mpr (Nat.le_of_eq hfull.symm)
  refine ⟨fun d hd => ?_, ?_⟩
  · obtain ⟨x, copy, rest, hs, hroom, -⟩ := poll_delivery hd
    exact hroom (hfull hs)
  · rcases b.poll_cases st with ⟨-, hsame⟩ | ⟨x, copy, rest, hs, hroom, -⟩
    · exact hsame
    · exact (hroom (hfull hs)).elim

theorem heldBy_fresh {before mid : List Action} (fresh : given {} s before = [])
    (hmid : mid <+: before) : (run {} mid).heldBy s = [] := by
  obtain ⟨rest, rfl⟩ := hmid
  rw [given_append] at fresh
  have hle := sound_empty.heldBy_given s mid
  rw [(List.append_eq_nil_iff.mp fresh).1] at hle
  exact List.length_eq_zero_iff.mp (Nat.le_zero.mp hle)

/-- Any run, and a session that had the limit `p` from a time on when it had got nothing yet. It
never holds more than `p` deliveries, in all; while it holds `p`, no stream of it takes anything
from any queue. Its deliveries have the tags 1, 2, 3 and so on, whatever streams and queues they
came from, and one more is added to those it holds, under a tag that is above theirs. -/
theorem limited_and_numbered (before after : List Action) {s p : Nat} (hp : 0 < p)
    (fresh : given {} s before = [])
    (limit : ∀ mid, mid <+: after → (run {} (before ++ mid)).limit? s = some p) :
    let actions := before ++ after
    let b := run {} actions
    (∀ mid, mid <+: actions → ((run {} mid).heldBy s).length ≤ p) ∧
    (∀ st, st.session = s → (b.heldBy s).length = p →
      (∀ d, (b.poll st).1 ≠ .delivery d) ∧ (b.act (.poll st)).queues = b.queues ∧
        (b.act (.poll st)).sessions = b.sessions) ∧
    (given {} s actions).map (·.tag) = List.range' 1 (given {} s actions).length ∧
    ∀ st d, st.session = s → (b.poll st).1 = .delivery d →
      (∀ held ∈ b.heldBy s, held.tag < d.tag) ∧
      ∃ copy : Copy, d = copy.delivery d.tag ∧ (b.act (.poll st)).heldBy s =
        b.heldBy s ++ [{ tag := d.tag, queue := st.queue, copy }] := by
  intro actions b
  refine ⟨fun mid hmid => ?_, ?_, sound_empty.given_tags s actions, ?_⟩
  · rcases List.prefix_or_prefix_of_prefix hmid (List.prefix_append before after) with
      hearly | ⟨later, rfl⟩
    · simp [heldBy_fresh fresh hearly]
    · have hlater := (List.prefix_append_right_inj before).mp hmid
      have hbefore : (run {} before).Sound := sound_empty.run before
      rw [run_append]
      refine hbefore.limit_run hp (by simp [heldBy_fresh fresh (List.prefix_refl before)]) ?_
      intro mid hpre
      rw [← run_append]
      exact limit mid (hpre.trans hlater)
  · rintro st rfl hfull
    exact poll_at_limit (limit after (List.prefix_refl after)) hp hfull
  · rintro st d rfl hd
    exact (sound_empty.run actions).heldBy_poll hd

def limitedToTwo : List Action :=
  [.openSession, .declareExchange 0 { name := "x" }, .declareQueue 0 { name := "p" },
    .declareQueue 0 { name := "q" }, .bindQueue 0 "p" "x" "k", .bindQueue 0 "q" "x" "k",
    .operate (.inject "x" "k" none [1]), .operate (.inject "x" "k" none [2]),
    .setQos 0 { prefetchCount := 2 }]

/-- The session takes from both queues, and then no more until a delivery is put back, its
consumers are cancelled and it consumes again. -/
def takenFromTwo : List Action :=
  [.poll { session := 0, queue := "p", epoch := 0 },
    .poll { session := 0, queue := "q", epoch := 0 },
    .poll { session := 0, queue := "q", epoch := 0 }, .resolve 0 1 (.nack true),
    .operate .cancelConsumers, .consume 0 "p", .poll { session := 0, queue := "p", epoch := 1 }]

theorem limited_and_numbered_two :
    given {} 0 limitedToTwo = [] ∧
    (∀ mid, mid <+: limitedToTwo ++ takenFromTwo → ((run {} mid).heldBy 0).length ≤ 2) ∧
    (given {} 0 (limitedToTwo ++ takenFromTwo)).map (·.tag) = [1, 2, 3] ∧
    let b := run {} (limitedToTwo ++ takenFromTwo)
    (b.act (.poll { session := 0, queue := "q", epoch := 1 })).queues = b.queues ∧
      (b.ready "q").length = 1 := by
  have fresh : given {} 0 limitedToTwo = [] := by decide +kernel
  have limit : ∀ mid, mid <+: takenFromTwo → (run {} (limitedToTwo ++ mid)).limit? 0 = some 2 := by
    intro mid hmid
    have hall : ∀ mid ∈ takenFromTwo.inits, (run {} (limitedToTwo ++ mid)).limit? 0 = some 2 := by
      decide +kernel
    exact hall mid ((List.mem_inits ..).mpr hmid)
  obtain ⟨hbound, hfull, htags, -⟩ :=
    limited_and_numbered limitedToTwo takenFromTwo Nat.two_pos fresh limit
  refine ⟨fresh, hbound, htags.trans (by decide +kernel), (hfull _ rfl ?_).2.1, ?_⟩ <;>
    decide +kernel

end CargoEvents.Broker
