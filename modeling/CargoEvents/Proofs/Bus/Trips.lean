import CargoEvents.Proofs.Bus.Handovers
import Mathlib.Data.List.Induction

/-! # Where a copy has been

Buses that share a queue hand its copies back and forth. What is told of copies that change hands
says for each copy where it is and how often it came back (`Trip`), and the broker agrees
(`Tracked`): a session holds the copy if and only if it was handed out to the session's bus and
neither came back nor was accepted since.
-/
namespace CargoEvents
variable {H : Type}

inductive Place
  | waiting
  /-- Bus `i` has it, as the delivery with this tag. -/
  | held (i tag : Nat)
  | accepted
  deriving DecidableEq

/-- Whether the call gives back the delivery with the tag: it resolves it and has it requeued, or
closes the session. -/
def SessionCall.givesBack (tag : Nat) : SessionCall → Bool
  | .nack other requeue => other == tag && requeue
  | .close => true
  | _ => false

theorem SessionCall.ne_ack {c : SessionCall} {tag : Nat} (h : c.givesBack tag) (other : Nat) :
    c ≠ .ack other := by
  rintro rfl
  cases h

namespace Entry

def isHandout (shares : Nat → Bool) (n : Nat) : Entry H → Bool
  | .pulled i _ d => shares i && d.arrival == n
  | _ => false

def isInvocation (shares : Nat → Bool) (n : Nat) : Entry H → Bool
  | .entered i _ d .. => shares i && d.arrival == n
  | _ => false

end Entry

/-- How often a copy was handed out and came back, and where it is now. -/
structure Trip where
  place : Place := .waiting
  handouts : Nat := 0
  comebacks : Nat := 0

namespace Trip

def answered (t : Trip) (i : Nat) (c : SessionCall) : Trip :=
  match t.place with
  | .held j tag =>
    if j ≠ i then t
    else if c.givesBack tag then { t with place := .waiting, comebacks := t.comebacks + 1 }
    else if c = .ack tag then { t with place := .accepted }
    else t
  | .waiting | .accepted => t

def after (shares : Nat → Bool) (n : Nat) (t : Trip) : Entry H → Trip
  | .pulled i _ d =>
    if shares i && d.arrival == n then
      { t with place := .held i d.tag, handouts := t.handouts + 1 }
    else t
  | .called i c none => t.answered i c
  | _ => t

def along (shares : Nat → Bool) (n : Nat) (word : List (Entry H)) : Trip :=
  word.foldl (after shares n) {}

variable {shares : Nat → Bool} {n i j tag : Nat} {t : Trip} {c : SessionCall} {e : Entry H}
  {word es : List (Entry H)}

@[simp] theorem along_concat (word : List (Entry H)) (e : Entry H) :
    along shares n (word ++ [e]) = (along shares n word).after shares n e :=
  List.foldl_concat ..

theorem answered_held : (t.answered i c).place = .held j tag ↔
    t.place = .held j tag ∧ ¬(j = i ∧ (c.givesBack tag ∨ c = .ack tag)) := by
  unfold answered
  cases hp : t.place with
  | waiting | accepted => simp [hp]
  | held k other =>
    by_cases hki : k = i
    · subst hki
      by_cases hback : c.givesBack other
      · simp only [hback, if_true]
        grind
      · by_cases hack : c = .ack other <;> simp [hback, hack] <;> grind
    · dsimp only
      grind

theorem answered_accepted : (t.answered i c).place = .accepted ↔
    t.place = .accepted ∨ ∃ tag, t.place = .held i tag ∧ c = .ack tag := by
  unfold answered
  cases hp : t.place with
  | waiting | accepted => simp [hp]
  | held k other =>
    by_cases hki : k = i
    · subst hki
      by_cases hback : c.givesBack other
      · have hack := c.ne_ack hback
        simp only [hback, if_true]
        grind
      · by_cases hack : c = .ack other <;> simp [hback, hack] <;> grind
    · dsimp only
      grind

theorem answered_handouts (t : Trip) (i : Nat) (c : SessionCall) :
    (t.answered i c).handouts = t.handouts := by
  unfold answered
  split
  · split
    · rfl
    · split
      · rfl
      · split <;> rfl
  · rfl
  · rfl

theorem answered_comebacks (hc : ∀ tag, t.place = .held i tag → ¬c.givesBack tag) :
    (t.answered i c).comebacks = t.comebacks := by
  unfold answered
  cases hp : t.place with
  | waiting | accepted => rfl
  | held j tag =>
    dsimp only
    split
    · rfl
    · rename_i hji
      rw [if_neg (hc tag (not_not.mp hji ▸ hp))]
      split <;> rfl

theorem waits_of (hheld : ∀ i tag, t.place ≠ .held i tag) (haccepted : t.place ≠ .accepted) :
    t.place = .waiting := by
  cases hp : t.place with
  | waiting => rfl
  | held i tag => exact absurd hp (hheld i tag)
  | accepted => exact absurd hp haccepted

theorem shares_of_held (h : (along shares n word).place = .held i tag) : shares i := by
  induction word using List.reverseRecOn with
  | nil => cases h
  | append_singleton word e ih =>
    rw [along_concat] at h
    cases e with
    | pulled j k d =>
      simp only [after] at h
      split at h
      · rename_i hx
        cases h
        exact (Bool.and_eq_true_iff.mp hx).1
      · exact ih h
    | called j c refusal =>
      cases refusal with
      | none => exact ih (answered_held.mp h).1
      | some e => exact ih h
    | entered | left | panicked | observed | reported | logged => exact ih h

def Ignores (shares : Nat → Bool) (n : Nat) (e : Entry H) : Prop :=
  e.isHandout shares n = false ∧ ∀ t : Trip, t.after shares n e = t

theorem along_append_of_ignores (h : ∀ e ∈ es, Ignores shares n e) :
    along shares n (word ++ es) = along shares n word := by
  induction es using List.reverseRecOn with
  | nil => rw [List.append_nil]
  | append_singleton es e ih =>
    obtain ⟨hes, he⟩ := List.forall_mem_append.mp h
    rw [← List.append_assoc, along_concat, ih hes]
    exact (he e (List.mem_singleton_self e)).2 _

/-- The copy is handed out only while it waits. -/
def HandedInTurn (shares : Nat → Bool) (n : Nat) (word : List (Entry H)) : Prop :=
  ∀ before e, before ++ [e] <+: word → e.isHandout shares n →
    (along shares n before).place = .waiting

theorem HandedInTurn.concat (h : HandedInTurn shares n word)
    (he : e.isHandout shares n → (along shares n word).place = .waiting) :
    HandedInTurn shares n (word ++ [e]) := by
  intro before x hstart hx
  rcases List.prefix_concat_iff.mp hstart with heq | hstart
  · obtain ⟨rfl, hxe⟩ := List.append_inj' heq rfl
    exact he (List.singleton_inj.mp hxe ▸ hx)
  · exact h before x hstart hx

theorem HandedInTurn.append (h : HandedInTurn shares n word)
    (hes : ∀ e ∈ es, Ignores shares n e) : HandedInTurn shares n (word ++ es) := by
  induction es using List.reverseRecOn with
  | nil => rwa [List.append_nil]
  | append_singleton es e ih =>
    obtain ⟨hes, he⟩ := List.forall_mem_append.mp hes
    rw [← List.append_assoc]
    refine (ih hes).concat fun hx => ?_
    rw [(he e (List.mem_singleton_self e)).1] at hx
    cases hx

theorem HandedInTurn.of_prefix (h : HandedInTurn shares n word) {word' : List (Entry H)}
    (hp : word' <+: word) : HandedInTurn shares n word' :=
  fun before e hb => h before e (hb.trans hp)

theorem answered_count (t : Trip) (i : Nat) (c : SessionCall)
    (h : t.handouts = t.comebacks + if t.place = .waiting then 0 else 1) :
    (t.answered i c).handouts = (t.answered i c).comebacks +
      if (t.answered i c).place = .waiting then 0 else 1 := by
  unfold answered
  cases hp : t.place with
  | waiting | accepted => simpa [hp] using h
  | held k tag =>
    rw [hp] at h
    dsimp only
    split
    · simpa [hp] using h
    · split
      · simpa using h
      · split
        · simpa using h
        · simpa [hp] using h

/-- Each time a copy was handed out it had come back before, or it is the last time. -/
theorem HandedInTurn.handouts (h : HandedInTurn shares n word) :
    (along shares n word).handouts = (along shares n word).comebacks +
      if (along shares n word).place = .waiting then 0 else 1 := by
  induction word using List.reverseRecOn with
  | nil => rfl
  | append_singleton word e ih =>
    have ih := ih (h.of_prefix (List.prefix_append ..))
    rw [along_concat]
    generalize ht : along shares n word = t at ih
    cases e with
    | pulled i k d =>
      simp only [after]
      split
      · rename_i hx
        have hwaits := h word (.pulled i k d) (List.prefix_refl _) hx
        rw [ht] at hwaits
        rw [hwaits] at ih
        simpa using ih
      · exact ih
    | called i c refusal =>
      cases refusal with
      | none => exact answered_count t i c ih
      | some e => exact ih
    | entered | left | panicked | observed | reported | logged => exact ih

theorem answered_stays {d : Broker.Delivery}
    (hp : t.place = .held j d.tag ∨ t.place = .accepted) (hc : j = i → ¬c.givesBack d.tag) :
    (t.answered i c).place = .held j d.tag ∨ (t.answered i c).place = .accepted := by
  unfold answered
  rcases hp with hp | hp
  · rw [hp]
    dsimp only
    split
    · exact .inl hp
    · rename_i hji
      rw [if_neg (hc (not_not.mp hji))]
      split
      · exact .inr rfl
      · exact .inl hp
  · rw [hp]
    exact .inr hp

/-- Until it comes back, a copy that was handed out is held or accepted. -/
theorem HandedInTurn.stays (h : HandedInTurn shares n word) {k : Nat} {d : Broker.Delivery}
    {before : List (Entry H)} (hx : (Entry.pulled (H := H) i k d).isHandout shares n)
    (hstart : before ++ .pulled i k d :: es <+: word)
    (hback : ∀ c, .called i c none ∈ es → ¬c.givesBack d.tag) :
    (along shares n (before ++ .pulled i k d :: es)).place = .held i d.tag ∨
      (along shares n (before ++ .pulled i k d :: es)).place = .accepted := by
  induction es using List.reverseRecOn with
  | nil =>
    left
    rw [along_concat]
    exact congrArg Trip.place (if_pos hx)
  | append_singleton es e ih =>
    have hconcat : before ++ .pulled i k d :: (es ++ [e]) = before ++ .pulled i k d :: es ++ [e] := by
      simp
    rw [hconcat] at hstart ⊢
    have hstays := ih ((List.prefix_append ..).trans hstart) fun c hc =>
      hback c (List.mem_append_left _ hc)
    rw [along_concat]
    cases e with
    | pulled j l d' =>
      simp only [after]
      split
      · -- It would have been handed out again.
        rename_i hy
        have hwaits := h _ _ hstart hy
        rw [hwaits] at hstays
        rcases hstays with hstays | hstays <;> cases hstays
      · exact hstays
    | called j c refusal =>
      cases refusal with
      | none =>
        refine answered_stays hstays ?_
        rintro rfl
        exact hback c (List.mem_append_right _ (List.mem_singleton_self _))
      | some e => exact hstays
    | entered | left | panicked | observed | reported | logged => exact hstays

/-- Between two times that a copy is handed out it comes back from the first. -/
theorem HandedInTurn.came_back (h : HandedInTurn shares n word)
    {before between later : List (Entry H)} {x y : Entry H}
    (hword : word = before ++ x :: (between ++ y :: later)) (hx : x.isHandout shares n)
    (hy : y.isHandout shares n) : ∃ i k d, x = .pulled i k d ∧
      ∃ c, .called i c none ∈ between ∧ c.givesBack d.tag := by
  cases x with
  | pulled i k d =>
    refine ⟨i, k, d, rfl, ?_⟩
    by_contra hnone
    have hstart : before ++ .pulled i k d :: between ++ [y] <+: word := ⟨later, by simp [hword]⟩
    have hwaits := h _ _ hstart hy
    have hstays := h.stays hx ((List.prefix_append ..).trans hstart) fun c hc hback =>
      hnone ⟨c, hc, hback⟩
    rw [hwaits] at hstays
    rcases hstays with hstays | hstays <;> cases hstays
  | entered | left | panicked | called | observed | reported | logged => cases hx

end Trip
end CargoEvents
