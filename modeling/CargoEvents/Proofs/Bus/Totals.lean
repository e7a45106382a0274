import CargoEvents.Proofs.Bus.Metering
import Mathlib.Algebra.BigOperators.Group.Finset.Basic

/-! # What the counters add up to

A delivery is counted once, and the run of its handler before that. So the counters tell what was
taken, but for what dispatchers have in hand and for what was lost to panics.
-/
namespace CargoEvents
variable {H : Type} (g : Nat → Bool) (kind : String)

/-! What was done by a bus that is in the group `g`. -/
namespace Entry

def observes (o : Observation) : Entry H → Bool
  | observed i o' => g i && o' == o
  | _ => false

def pulls : Entry H → Bool
  | pulled i _ d => g i && d.kind == kind
  | _ => false

def panics : Entry H → Bool
  | panicked i _ d => g i && d.kind == kind
  | _ => false

/-- It called its session to publish a message, which was accepted or not. -/
def announces (accepted : Bool) : Entry H → Bool
  | called i (.publish _ key) refusal => g i && key == kind && refusal.isNone == accepted
  | _ => false

end Entry

def Deed.isFault : Nat × Nat × Deed H → Bool
  | (i, _, .fault _) => g i
  | _ => false

def Deed.isUnroutable : Nat × Nat × Deed H → Bool
  | (i, _, .taken d none) => g i && d.kind == kind
  | _ => false

namespace Position

/-- The delivery at hand is of the kind, and not counted yet. -/
def due : Position H → Nat
  | handling d .. | acknowledging d | pausing d (.undecodable _) | pausing d (.failed ..) =>
    if d.kind = kind then 1 else 0
  | pausing _ .unroutable | pulling | ended => 0

/-- Of such a delivery, the run of the handler is counted. -/
def ran : Position H → Nat
  | acknowledging d | pausing d (.undecodable _) | pausing d (.failed ..) =>
    if d.kind = kind then 1 else 0
  | handling .. | pausing _ .unroutable | pulling | ended => 0

theorem due_of_rests {p : Position H} (h : p.delivery? = none) : p.due kind = 0 := by
  cases p with
  | pulling | ended => rfl
  | handling | acknowledging | pausing => cases h

theorem ran_of_rests {p : Position H} (h : p.delivery? = none) : p.ran kind = 0 := by
  cases p with
  | pulling | ended => rfl
  | handling | acknowledging | pausing => cases h

end Position

theorem Observation.mem_counts {os : List Observation} {o : Observation} {n : Nat} :
    (o, n) ∈ counts os ↔ n = os.count o ∧ n ≠ 0 := by
  simp only [counts, List.mem_map, List.mem_eraseDups, Prod.mk.injEq]
  constructor
  · rintro ⟨o, ho, rfl, rfl⟩
    exact ⟨rfl, (List.count_pos_iff.mpr ho).ne'⟩
  · rintro ⟨rfl, hn⟩
    exact ⟨o, List.count_pos_iff.mp (Nat.pos_of_ne_zero hn), rfl, rfl⟩

namespace Network
variable {s t : Network H} {i j k l : Nat} {bus : Bus H} {p p' : Position H}
  {deed : Option (Deed H)} {es : List (Entry H)}

def counted (s : Network H) (o : Observation) : Nat := s.history.countP (Entry.observes g o)

def pulledOf (s : Network H) : Nat := s.history.countP (Entry.pulls g kind)

def panickedOn (s : Network H) : Nat := s.history.countP (Entry.panics g kind)

def announcedAs (s : Network H) (accepted : Bool) : Nat :=
  s.history.countP (Entry.announces g kind accepted)

theorem countP_history {q : Entry H → Bool} (hq : ∀ e, q e → e.isMetered) (s : Network H) :
    s.history.countP q = s.meters.countP q := by
  rw [meters, told, List.countP_filterMap, List.countP_reverse]
  refine List.countP_congr fun e _ => ?_
  cases he : q e with
  | true => simp [Entry.metered?, hq e he, he]
  | false => cases hm : e.isMetered <;> simp [Entry.metered?, hm, he]

theorem countP_append {q : Entry H → Bool} (hq : ∀ e, q e → e.isMetered)
    (hm : t.meters = s.meters ++ es) :
    t.history.countP q = s.history.countP q + es.countP q := by
  rw [countP_history hq, countP_history hq, hm, List.countP_append]

/-! ## One step -/

theorem accept_cases (registry : Registry H) (d : Broker.Delivery) :
    registry.get? d.kind = none ∧
      registry.accept d = (.pausing d .unroutable, [.delivery d.kind .unroutable]) ∨
    ∃ r, registry.get? d.kind = some r ∧
      ((∃ e, registry.accept d = (.pausing d (.undecodable e), [.handlerRun d.kind])) ∨
        ∃ e, registry.accept d = (.handling d r e, [])) := by
  unfold Registry.accept
  cases hr : registry.get? d.kind with
  | none => exact .inl ⟨rfl, rfl⟩
  | some r =>
    refine .inr ⟨r, rfl, ?_⟩
    cases hdecode : r.decode d.body with
    | error e => exact .inl ⟨e, by simp only [hdecode]⟩
    | ok e => exact .inr ⟨e, by simp only [hdecode]⟩

/-- A delivery that comes into hand is counted when it leaves it. -/
theorem Counts.balance (h : Counts bus i k p deed p' es) :
    es.countP (Entry.pulls g kind) + (if g i then p.due kind else 0) =
      es.countP (Entry.observes g (.delivery kind .ack)) +
      es.countP (Entry.observes g (.delivery kind .nack)) +
      es.countP (Entry.observes g (.delivery kind .unroutable)) +
      es.countP (Entry.panics g kind) + (if g i then p'.due kind else 0) ∧
    es.countP (Entry.observes g (.handlerRun kind)) + (if g i then p.ran kind else 0) =
      es.countP (Entry.observes g (.delivery kind .ack)) +
      es.countP (Entry.observes g (.delivery kind .nack)) + (if g i then p'.ran kind else 0) := by
  cases hg : g i <;> cases h with
  | stopped => exact ⟨rfl, rfl⟩
  | looked polled =>
    cases polled with
    | pending | ended => exact ⟨rfl, rfl⟩
    | fault e => simp [yields, received, Entry.pulls, Entry.observes, Entry.panics]
    | delivery d =>
      rcases accept_cases bus.registry d with ⟨-, h⟩ | ⟨r, -, ⟨e, h⟩ | ⟨e, h⟩⟩ <;>
        by_cases hk : d.kind = kind <;>
        simp [yields, received, h, hg, hk, Entry.pulls, Entry.observes, Entry.panics, Position.due,
          Position.ran]
  | returned d r e result =>
    cases result <;> by_cases hk : d.kind = kind <;>
      simp [Position.afterRun, hg, hk, Entry.pulls, Entry.observes, Entry.panics, Position.due,
        Position.ran]
  | panicked d | accepted d =>
    by_cases hk : d.kind = kind <;>
      simp [hg, hk, Entry.pulls, Entry.observes, Entry.panics, Position.due, Position.ran]
  | gaveBack d v =>
    cases v <;> by_cases hk : d.kind = kind <;>
      simp [Verdict.observed, hg, hk, Entry.pulls, Entry.observes, Entry.panics, Position.due,
        Position.ran]

theorem Counts.deeds (h : Counts bus i k p deed p' es) :
    es.countP (Entry.observes g (.delivery kind .unroutable)) =
      (deed.map fun deed => (i, k, deed)).toList.countP (Deed.isUnroutable g kind) ∧
    es.countP (Entry.observes g .transportError) =
      (deed.map fun deed => (i, k, deed)).toList.countP (Deed.isFault g) := by
  cases h with
  | stopped | returned | panicked | accepted =>
    simp [Entry.observes, Deed.isUnroutable, Deed.isFault]
  | looked polled =>
    cases polled with
    | pending | ended => exact ⟨rfl, rfl⟩
    | fault e =>
      cases hg : g i <;>
        simp [met?, yields, hg, Entry.observes, Deed.isUnroutable, Deed.isFault]
    | delivery d =>
      rcases accept_cases bus.registry d with ⟨hr, h⟩ | ⟨r, hr, ⟨e, h⟩ | ⟨e, h⟩⟩ <;>
        simp [met?, yields, h, hr, Entry.observes, Deed.isUnroutable, Deed.isFault, List.countP_cons]
  | gaveBack d v =>
    cases v <;> simp [Verdict.observed, Entry.observes, Deed.isUnroutable, Deed.isFault]

theorem Counts.announces (h : Counts bus i k p deed p' es) :
    es.countP (Entry.observes g (.published kind)) = es.countP (Entry.announces g kind true) ∧
    es.countP (Entry.observes g (.publishError kind)) = es.countP (Entry.announces g kind false) := by
  cases h with
  | stopped | returned | panicked | accepted => simp [Entry.observes, Entry.announces]
  | looked polled =>
    cases polled with
    | pending | ended => exact ⟨rfl, rfl⟩
    | fault e => simp [yields, Entry.observes, Entry.announces]
    | delivery d =>
      rcases accept_cases bus.registry d with ⟨hr, h⟩ | ⟨r, hr, ⟨e, h⟩ | ⟨e, h⟩⟩ <;>
        simp [yields, h, Entry.observes, Entry.announces]
  | gaveBack d v => cases v <;> simp [Verdict.observed, Entry.observes, Entry.announces]

theorem Publishing.announces (h : Publishing es) :
    es.countP (Entry.observes g (.published kind)) = es.countP (Entry.announces g kind true) ∧
    es.countP (Entry.observes g (.publishError kind)) = es.countP (Entry.announces g kind false) := by
  cases h with
  | nothing => exact ⟨rfl, rfl⟩
  | message j exchange key refusal =>
    cases refusal <;> simp [Entry.observes, Entry.announces, List.countP_cons]

theorem Publishing.apart (h : Publishing es) :
    es.countP (Entry.pulls g kind) = 0 ∧ es.countP (Entry.panics g kind) = 0 ∧
    ∀ o, (∀ key, o ≠ .published key ∧ o ≠ .publishError key) →
      es.countP (Entry.observes g o) = 0 := by
  cases h with
  | nothing => exact ⟨rfl, rfl, fun _ _ => rfl⟩
  | message j exchange key refusal =>
    refine ⟨by simp [Entry.pulls], by simp [Entry.panics], fun o ho => ?_⟩
    obtain ⟨hpublished, hrejected⟩ := ho key
    cases refusal <;> simp [Entry.observes, hpublished.symm, hrejected.symm]

/-! ## What is in hand -/

def Covers (S : Finset (Nat × Nat)) (s : Network H) : Prop :=
  ∀ j l, s.position? j l ≠ none → (j, l) ∈ S

/-- What a dispatcher of the group weighs at its position. -/
def weight (s : Network H) (w : Position H → Nat) (x : Nat × Nat) : Nat :=
  if g x.1 then (s.position? x.1 x.2).elim 0 w else 0

theorem sum_weight_moved {w : Position H → Nat} {S : Finset (Nat × Nat)} (hS : (i, k) ∈ S)
    (hold : s.position? i k = some p)
    (hp : ∀ j l, t.position? j l = if j = i ∧ l = k then some p' else s.position? j l) :
    ∑ x ∈ S, t.weight g w x + (if g i then w p else 0) =
      ∑ x ∈ S, s.weight g w x + if g i then w p' else 0 := by
  -- Only the summand of the dispatcher that moves changes.
  have hothers : ∑ x ∈ S.erase (i, k), t.weight g w x = ∑ x ∈ S.erase (i, k), s.weight g w x := by
    refine Finset.sum_congr rfl fun x hx => ?_
    have hne : ¬(x.1 = i ∧ x.2 = k) := fun h => Finset.ne_of_mem_erase hx (Prod.ext h.1 h.2)
    rw [weight, weight, hp, if_neg hne]
  have hs : s.weight g w (i, k) = if g i then w p else 0 := by simp [weight, hold]
  have ht : t.weight g w (i, k) = if g i then w p' else 0 := by simp [weight, hp]
  rw [← Finset.sum_erase_add S _ hS, ← Finset.sum_erase_add S _ hS, hothers, hs, ht]
  omega

theorem weight_aside {w : Position H → Nat} (hw : w .pulling = 0)
    (hp : ∀ j l, t.position? j l = s.position? j l ∨
      s.position? j l = none ∧ t.position? j l = some .pulling) (x : Nat × Nat) :
    t.weight g w x = s.weight g w x := by
  rcases hp x.1 x.2 with h | ⟨hs, ht⟩
  · rw [weight, weight, h]
  · simp [weight, hs, ht, hw]

/-! ## Totals -/

/-- The counters of a network that met the deeds `ds`. -/
structure Totals (ds : List (Nat × Nat × Deed H)) (s : Network H) : Prop where
  unroutable : s.counted g (.delivery kind .unroutable) = ds.countP (Deed.isUnroutable g kind)
  faults : s.counted g .transportError = ds.countP (Deed.isFault g)
  accepted : s.counted g (.published kind) = s.announcedAs g kind true
  rejected : s.counted g (.publishError kind) = s.announcedAs g kind false
  settled (S : Finset (Nat × Nat)) (hS : Covers S s) :
    s.pulledOf g kind = s.counted g (.delivery kind .ack) + s.counted g (.delivery kind .nack) +
      s.counted g (.delivery kind .unroutable) + s.panickedOn g kind +
      ∑ x ∈ S, s.weight g (Position.due kind) x
  runs (S : Finset (Nat × Nat)) (hS : Covers S s) :
    s.counted g (.handlerRun kind) = s.counted g (.delivery kind .ack) +
      s.counted g (.delivery kind .nack) + ∑ x ∈ S, s.weight g (Position.ran kind) x

theorem counted_append (hm : t.meters = s.meters ++ es) (o : Observation) :
    t.counted g o = s.counted g o + es.countP (Entry.observes g o) := by
  refine countP_append (fun e he => ?_) hm
  cases e with
  | observed => rfl
  | _ => cases he

theorem pulledOf_append (hm : t.meters = s.meters ++ es) :
    t.pulledOf g kind = s.pulledOf g kind + es.countP (Entry.pulls g kind) := by
  refine countP_append (fun e he => ?_) hm
  cases e with
  | pulled => rfl
  | _ => cases he

theorem panickedOn_append (hm : t.meters = s.meters ++ es) :
    t.panickedOn g kind = s.panickedOn g kind + es.countP (Entry.panics g kind) := by
  refine countP_append (fun e he => ?_) hm
  cases e with
  | panicked => rfl
  | _ => cases he

theorem announcedAs_append (hm : t.meters = s.meters ++ es) (accepted : Bool) :
    t.announcedAs g kind accepted =
      s.announcedAs g kind accepted + es.countP (Entry.announces g kind accepted) := by
  refine countP_append (fun e he => ?_) hm
  unfold Entry.announces at he
  split at he
  · rfl
  · cases he

variable {g kind} {ds : List (Nat × Nat × Deed H)}

theorem Totals.aside (h : Totals g kind ds s) (hes : Publishing es)
    (hm : t.meters = s.meters ++ es) (hp : ∀ j l, t.position? j l = s.position? j l ∨
      s.position? j l = none ∧ t.position? j l = some .pulling) : Totals g kind ds t := by
  obtain ⟨hpublished, hrejected⟩ := hes.announces g kind
  obtain ⟨hpulls, hpanics, hothers⟩ := hes.apart g kind
  have hsame (o : Observation) (ho : ∀ key, o ≠ .published key ∧ o ≠ .publishError key) :
      t.counted g o = s.counted g o := by rw [counted_append g hm, hothers o ho, Nat.add_zero]
  have hdelivery (outcome : Outcome) : t.counted g (.delivery kind outcome) =
      s.counted g (.delivery kind outcome) := hsame _ (by simp)
  have hcovers {S : Finset (Nat × Nat)} (hS : Covers S t) : Covers S s := by
    intro j l hs
    rcases hp j l with h | ⟨hnone, -⟩
    · exact hS j l (h ▸ hs)
    · exact absurd hnone hs
  have hweight {w : Position H → Nat} (hw : w .pulling = 0) (S : Finset (Nat × Nat)) :
      ∑ x ∈ S, t.weight g w x = ∑ x ∈ S, s.weight g w x :=
    Finset.sum_congr rfl fun x _ => weight_aside g hw hp x
  refine ⟨?_, ?_, ?_, ?_, fun S hS => ?_, fun S hS => ?_⟩
  · rw [hdelivery, h.unroutable]
  · rw [hsame _ (by simp), h.faults]
  · rw [counted_append g hm, announcedAs_append g kind hm, h.accepted, hpublished]
  · rw [counted_append g hm, announcedAs_append g kind hm, h.rejected, hrejected]
  · rw [pulledOf_append g kind hm, panickedOn_append g kind hm, hpulls, hpanics, hdelivery, hdelivery,
      hdelivery, hweight rfl]
    exact h.settled S (hcovers hS)
  · rw [hsame _ (by simp), hdelivery, hdelivery, hweight rfl]
    exact h.runs S (hcovers hS)

theorem Totals.moved (h : Totals g kind ds s) (hcounts : Counts bus i k p deed p' es)
    (hold : s.position? i k = some p) (hm : t.meters = s.meters ++ es)
    (hp : ∀ j l, t.position? j l = if j = i ∧ l = k then some p' else s.position? j l) :
    Totals g kind (ds ++ (deed.map fun deed => (i, k, deed)).toList) t := by
  obtain ⟨hbalance, hruns⟩ := hcounts.balance g kind
  obtain ⟨hunroutable, hfaults⟩ := hcounts.deeds g kind
  obtain ⟨hpublished, hrejected⟩ := hcounts.announces g kind
  have hcounted := counted_append g hm
  have hcovers {S : Finset (Nat × Nat)} (hS : Covers S t) : (i, k) ∈ S ∧ Covers S s := by
    refine ⟨hS i k (by simp [hp]), fun j l hs => hS j l ?_⟩
    rw [hp]
    split <;> simp [hs]
  refine ⟨?_, ?_, ?_, ?_, fun S hS => ?_, fun S hS => ?_⟩
  · rw [hcounted, h.unroutable, hunroutable, List.countP_append]
  · rw [hcounted, h.faults, hfaults, List.countP_append]
  · rw [hcounted, announcedAs_append g kind hm, h.accepted, hpublished]
  · rw [hcounted, announcedAs_append g kind hm, h.rejected, hrejected]
  · obtain ⟨hik, hold'⟩ := hcovers hS
    have hsum := sum_weight_moved (w := Position.due kind) g hik hold hp
    have hbefore := h.settled S hold'
    rw [pulledOf_append g kind hm, panickedOn_append g kind hm, hcounted, hcounted, hcounted]
    omega
  · obtain ⟨hik, hold'⟩ := hcovers hS
    have hsum := sum_weight_moved (w := Position.ran kind) g hik hold hp
    have hbefore := h.runs S hold'
    rw [hcounted, hcounted, hcounted]
    omega

theorem Totals.step {x : Happening H} (h : Totals g kind ds s) (hmetered : Metered s x t) :
    Totals g kind (ds ++ (s.deed? x).toList) t := by
  cases hmetered with
  | aside hdeed hp hes hm =>
    rw [hdeed, Option.toList_none, List.append_nil]
    exact h.aside hes hm hp
  | moved hcounts hdeed hold hp hm =>
    rw [hdeed]
    exact h.moved hcounts hold hm hp

theorem totals_empty : Totals g kind [] ({} : Network H) := by
  have hweight (w : Position H → Nat) (S : Finset (Nat × Nat)) :
      ∑ x ∈ S, ({} : Network H).weight g w x = 0 :=
    Finset.sum_eq_zero fun x _ => ite_self 0
  refine ⟨rfl, rfl, rfl, rfl, fun S _ => ?_, fun S _ => ?_⟩ <;> rw [hweight] <;> rfl

theorem counted_all (s : Network H) (o : Observation) :
    s.counted (fun _ => true) o = s.observed.count o := by
  rw [observed, since, Nat.sub_zero, List.take_length, List.count, List.countP_filterMap,
    List.countP_reverse]
  refine List.countP_congr fun e _ => ?_
  cases e <;> simp [Entry.observes]

theorem exists_covers (s : Network H) : ∃ S, Covers S s := by
  refine ⟨(Finset.range s.buses.length).biUnion fun j =>
    (Finset.range ((s.buses[j]?.map (·.dispatchers.length)).getD 0)).image (Prod.mk j),
    fun j l h => ?_⟩
  rw [position?_eq] at h
  cases hb : s.buses[j]? with
  | none => simp [hb] at h
  | some b =>
    have hl : l < b.dispatchers.length := by
      rw [← not_le, ← List.getElem?_eq_none_iff]
      exact fun hnone => h (by simp [hb, hnone])
    have hj := (List.getElem?_eq_some_iff.mp hb).1
    refine Finset.mem_biUnion.mpr ⟨j, Finset.mem_range.mpr hj, Finset.mem_image_of_mem _ ?_⟩
    rw [hb]
    exact Finset.mem_range.mpr hl

/-- The dispatchers of the group have nothing in hand. -/
def Rests (g : Nat → Bool) (s : Network H) : Prop :=
  ∀ i k p, g i → s.position? i k = some p → p.delivery? = none

theorem rests_of_forall (h : ∀ b ∈ s.buses, ∀ d ∈ b.dispatchers, d.position.delivery? = none) :
    Rests g s := by
  intro i k p _ hp
  rw [position?_eq, Option.bind_eq_some_iff] at hp
  obtain ⟨b, hb, hp⟩ := hp
  obtain ⟨d, hd, rfl⟩ := Option.map_eq_some_iff.mp hp
  exact h b (List.mem_of_getElem? hb) d (List.mem_of_getElem? hd)

theorem Rests.sum_weight {w : Position H → Nat} (h : Rests g s)
    (hw : ∀ p : Position H, p.delivery? = none → w p = 0) (S : Finset (Nat × Nat)) :
    ∑ x ∈ S, s.weight g w x = 0 := by
  refine Finset.sum_eq_zero fun x _ => ?_
  unfold weight
  split
  · rename_i hg
    cases hp : s.position? x.1 x.2 with
    | none => rfl
    | some p => exact hw p (h x.1 x.2 p hg hp)
  · rfl

end Network

namespace Floor
open Network
variable {f : Floor H}

def deeds (f : Floor H) : List (Happening H) → List (Nat × Nat × Deed H)
  | [] => []
  | x :: xs => (f.network.deed? x).toList ++ (f.happen x).deeds xs

variable {g kind}

theorem Sound.totals (h : f.Sound) {ds : List (Nat × Nat × Deed H)}
    (ht : Totals g kind ds f.network) (xs : List (Happening H)) :
    Totals g kind (ds ++ f.deeds xs) (f.run xs).network := by
  induction xs generalizing f ds with
  | nil => simpa [deeds] using ht
  | cons x xs ih =>
    rw [deeds, ← List.append_assoc]
    exact ih (h.happen x) (ht.step (h.metered x))

/-- The counters tell the deliveries of each kind apart without a rest. Exported is what all buses of
a process counted. Whatever buses are looked at, one or all of them: unroutable deliveries are those that no handler was found for when they
were taken, errors of streams and calls that publish are counted one by one, and once nothing is in
hand, every delivery is counted with one outcome, unless the handler panicked on it, and every one
that a handler was found for with a run. -/
theorem deliveries_partitioned (xs : List (Happening H)) (g : Nat → Bool) (kind : String) :
    let s := (run {} xs).network
    let ds := deeds ({} : Floor H) xs
    (∀ o n, (o, n) ∈ Observation.counts s.observed ↔
      n = s.counted (fun _ => true) o ∧ n ≠ 0) ∧
    s.counted g (.delivery kind .unroutable) = ds.countP (Deed.isUnroutable g kind) ∧
    s.counted g .transportError = ds.countP (Deed.isFault g) ∧
    s.counted g (.published kind) = s.announcedAs g kind true ∧
    s.counted g (.publishError kind) = s.announcedAs g kind false ∧
    (Rests g s →
      s.counted g (.delivery kind .ack) + s.counted g (.delivery kind .nack) +
        s.counted g (.delivery kind .unroutable) + s.panickedOn g kind = s.pulledOf g kind ∧
      s.counted g (.handlerRun kind) =
        s.counted g (.delivery kind .ack) + s.counted g (.delivery kind .nack)) ∧
    ((∀ i k d, g i → .panicked i k d ∉ s.history) → s.panickedOn g kind = 0) := by
  intro s ds
  have htotals : Totals g kind ds s := sound_empty.totals totals_empty xs
  refine ⟨fun o n => ?_, htotals.unroutable, htotals.faults, htotals.accepted, htotals.rejected,
    fun hrests => ?_, fun hpanics => ?_⟩
  · rw [Observation.mem_counts, s.counted_all]
  · obtain ⟨S, hS⟩ := s.exists_covers
    have hsettled := htotals.settled S hS
    have hruns := htotals.runs S hS
    rw [hrests.sum_weight fun p => p.due_of_rests kind] at hsettled
    rw [hrests.sum_weight fun p => p.ran_of_rests kind] at hruns
    exact ⟨hsettled.symm, hruns⟩
  · refine List.countP_eq_zero.mpr fun e he hp => ?_
    cases e with
    | panicked i k d => exact hpanics i k d (Bool.and_eq_true_iff.mp hp).1 he
    | _ => cases hp

/-- A delivery comes before its handler is registered and goes back. When it comes again the handler
succeeds, and the next one cannot be decoded. -/
theorem deliveries_partitioned_late :
    let xs : List (Happening Nat) := [.other (.build { service := "s" } .receiver []),
      .call 0 (.subscribe .newCargoBooked 1), .proceed 0, .proceed 0, .call 0 .start] ++
      List.replicate 4 (.proceed 1) ++
      [.call 0 (.publish (.newCargoBooked {})), .proceed 2, .proceed 2, .other (.pull 0 0),
        .proceed 0, .other (.resume 0 0), .other (.pull 0 0), .other (.complete 0 0 (.ok ())),
        .other (.acknowledge 0 0),
        .other (.beside (.operate (.inject "shipping" EventKind.newCargoBooked.name none [0x0a]))),
        .other (.pull 0 0), .other (.resume 0 0)]
    let s := (run {} xs).network
    let g (i : Nat) := i == 0
    let kind := EventKind.newCargoBooked.name
    Rests g s ∧ (∀ i k d, g i → .panicked i k d ∉ s.history) ∧
    [Outcome.ack, .nack, .unroutable].map (fun outcome => s.counted g (.delivery kind outcome)) =
      [1, 1, 1] ∧
    s.counted g (.delivery kind .ack) + s.counted g (.delivery kind .nack) +
      s.counted g (.delivery kind .unroutable) + s.panickedOn g kind = s.pulledOf g kind ∧
    s.counted g (.handlerRun kind) =
      s.counted g (.delivery kind .ack) + s.counted g (.delivery kind .nack) ∧
    s.panickedOn g kind = 0 := by
  intro xs s g kind
  have hrests : Rests g s := rests_of_forall (by decide +kernel)
  have hcalm : ∀ e ∈ s.history, (match e with | .panicked .. => true | _ => false) = false := by
    decide +kernel
  have hpanics (i k : Nat) (d : Broker.Delivery) (_ : g i) : .panicked i k d ∉ s.history :=
    fun he => absurd (hcalm _ he) (by simp)
  obtain ⟨-, -, -, -, -, hsettled, hnone⟩ := deliveries_partitioned xs g kind
  obtain ⟨htotal, hruns⟩ := hsettled hrests
  exact ⟨hrests, hpanics, by decide +kernel, htotal, hruns, hnone hpanics⟩

end Floor
end CargoEvents
