import CargoEvents.Proofs.Broker.Cancelling
import CargoEvents.Proofs.Broker.Signals
import CargoEvents.Proofs.Broker.Standing
import Mathlib.Data.List.Infix
import Mathlib.Data.List.Induction

/-! # Streams that end

A stream serves its consumer until all consumers are cancelled or its session closes, and from then
on it ends whenever it is polled and leaves the broker alone. To streams that are opened later a
cancellation makes no difference: all that they yield is what they would yield if the older ones had
not been cancelled but were just polled no more.
-/
namespace CargoEvents.Broker

/-- The stream is neither cancelled nor is its session closed. -/
def Serves (b : Broker) (st : Stream) : Prop := b.epoch = st.epoch ∧ b.isOpen st.session

def Action.Ends (a : Action) (st : Stream) : Prop :=
  a = .operate .cancelConsumers ∨ a = .closeSession st.session

def opens (b : Broker) : Action → Option Stream
  | .consume s queue => (b.consume s queue).toOption
  | _ => none

/-- The broker and the streams that were opened on it, in the order of opening, as they are now. -/
structure Consumers where
  broker : Broker := {}
  streams : List Stream := []

namespace Consumers

/-- A stream is polled by its number; everything else is an action of a session or an operator. -/
inductive Step
  | poll (i : Nat)
  | ask (a : Action) (apart : ∀ st, a ≠ .poll st := by simp)

def Step.cancel : Step := .ask (.operate .cancelConsumers)

def Step.spares (n : Nat) : Step → Bool
  | .poll i => n ≤ i
  | .ask .. => true

def Step.Ends (st : Stream) : Step → Prop
  | .poll _ => False
  | .ask a _ => a.Ends st

def step (c : Consumers) : Step → Consumers
  | .ask a _ => ⟨c.broker.act a, c.streams ++ (c.broker.opens a).toList⟩
  | .poll i => match c.streams[i]? with
    | none => c
    | some st => ⟨(c.broker.poll st).2.2, c.streams.set i (c.broker.poll st).2.1⟩

def run (c : Consumers) (steps : List Step) : Consumers := steps.foldl step c

def yields (c : Consumers) (i : Nat) : Option Polled :=
  c.streams[i]?.map fun st => (c.broker.poll st).1

/-- What the streams yield in a run, each item with the number of its stream. -/
def items (c : Consumers) : List Step → List (Nat × Polled)
  | [] => []
  | .poll i :: steps => (c.yields i).toList.map (i, ·) ++ (c.step (.poll i)).items steps
  | .ask a apart :: steps => (c.step (.ask a apart)).items steps

def answers (c : Consumers) (i : Nat) (steps : List Step) : List Polled :=
  ((c.items steps).filter (·.1 == i)).map (·.2)

/-- After stream `i` was opened in the run, all consumers were cancelled or its session closed. -/
def EndedIn (steps : List Step) (i : Nat) : Prop :=
  ∃ earlier step st, earlier ++ [step] <+: steps ∧ (run {} earlier).streams[i]? = some st ∧
    step.Ends st

end Consumers

variable {b : Broker} {s : Nat} {a : Action} {st : Stream}

/-! ## What ends a stream -/

theorem epoch_act (b : Broker) (a : Action) : (b.act a).epoch =
    if a = .operate .cancelConsumers then b.epoch + 1 else b.epoch := by
  generalize hb : b.act a = b'
  have he : Effect b a b' := hb ▸ b.act_effect a
  cases he with
  | refused =>
    split
    · rename_i ha
      subst ha
      exact congrArg Broker.epoch hb.symm
    · rfl
  | @shut s x =>
    change (giveBackAll (b.onSession s Session.shut) x.unacked).epoch = b.epoch
    rw [giveBackAll_eq]
    rfl
  | operated o => cases o <;> rfl
  | _ => rfl

theorem isOpen_closeSession (b : Broker) (s : Nat) : (b.closeSession s).isOpen s = false := by
  unfold closeSession
  cases hs : b.sessions[s]? with
  | none => simp [isOpen, hs]
  | some x =>
    by_cases ho : x.isOpen
    · simp only [ho, if_true]
      change (giveBackAll (b.onSession s Session.shut) x.unacked).isOpen s = false
      rw [isOpen, giveBackAll_sessions]
      simp [onSession, hs, Session.shut]
    · simp [ho, isOpen, hs]

theorem isOpen_act (hs : s < b.sessions.length) :
    (b.act a).isOpen s ↔ b.isOpen s ∧ a ≠ .closeSession s := by
  by_cases ha : a = .closeSession s
  · subst ha
    simp [act, isOpen_closeSession]
  · suffices (b.act a).isOpen s = b.isOpen s by simp [this, ha]
    generalize hb : b.act a = b'
    have he : Effect b a b' := hb ▸ b.act_effect a
    refine isOpen_congr ?_
    cases he with
    | refused | exchangeDeclared | queueDeclared | bound | published | faulted => rfl
    | opened => rw [openSession, List.getElem?_append_left hs]
    | qosSet | handedOut | settled | returned => exact map_modify _ rfl (by exact fun _ => rfl) s
    | @shut t x =>
      have hts : t ≠ s := fun h => ha (h ▸ rfl)
      change (giveBackAll (b.onSession t Session.shut) x.unacked).sessions[s]?.map _ = _
      rw [giveBackAll_sessions]
      simp [onSession, hts]
    | operated o => cases o <;> rfl

theorem length_act (b : Broker) (a : Action) : b.sessions.length ≤ (b.act a).sessions.length :=
  (b.act_later a).length

/-- How a stream stands to the broker it was opened on. A stream that served nobody any more would
not have gone on waiting. -/
structure Stream.Fits (st : Stream) (b : Broker) : Prop where
  known : st.session < b.sessions.length
  epoch : st.epoch ≤ b.epoch
  waited : ∀ n, st.waitedAt = some n → n ≤ b.signals
  waits : st.waitedAt = some b.signals → b.Serves st

theorem Stream.Fits.serves_act (h : st.Fits b) (a : Action) :
    (b.act a).Serves st ↔ b.Serves st ∧ ¬a.Ends st := by
  have hepoch := b.epoch_act a
  have hle := h.epoch
  simp only [Serves, isOpen_act h.known, Action.Ends, not_or]
  split at hepoch
  · rename_i ha
    refine iff_of_false (fun hs => ?_) fun hs => hs.2.1 ha
    omega
  · rename_i ha
    rw [hepoch]
    exact ⟨fun hs => ⟨⟨hs.1, hs.2.1⟩, ha, hs.2.2⟩, fun hs => ⟨hs.1.1, hs.1.2, hs.2.2⟩⟩

theorem Serves.signals_lt (hs : b.Serves st) (ha : a.Ends st) : b.signals < (b.act a).signals := by
  rcases ha with rfl | rfl
  · exact Nat.lt_succ_self _
  · obtain ⟨x, hx, ho⟩ := isOpen_iff.mp hs.2
    simp only [act, closeSession, hx, ho, if_true]
    change b.signals < (giveBackAll (b.onSession st.session Session.shut) x.unacked).signals + 1
    rw [giveBackAll_signals]
    exact Nat.lt_succ_self _

theorem Stream.Fits.act (h : st.Fits b) (a : Action) : st.Fits (b.act a) := by
  have hsignals := b.act_signals a
  refine ⟨Nat.lt_of_lt_of_le h.known (b.length_act a), ?_, fun n hn => ?_, fun hw => ?_⟩
  · rw [epoch_act]
    exact Nat.le_trans h.epoch (by split <;> omega)
  · exact Nat.le_trans (h.waited n hn) hsignals
  · have hle := h.waited _ hw
    have hsame : (b.act a).signals = b.signals := Nat.le_antisymm hle hsignals
    have hserves : b.Serves st := h.waits (hsame ▸ hw)
    refine (h.serves_act a).mpr ⟨hserves, fun ha => ?_⟩
    have hlt := hserves.signals_lt ha
    omega

/-! ## What a stream yields -/

theorem look_of_not_serves (hs : ¬b.Serves st) : b.look st = (.ended, b) := by
  unfold look
  cases hx : b.sessions[st.session]? with
  | none => rfl
  | some x =>
    have hends : b.epoch ≠ st.epoch ∨ ¬x.isOpen := by
      simpa [Serves, isOpen, hx, imp_iff_not_or] using hs
    simp only [if_pos hends]

theorem Stream.Fits.poll_ended (h : st.Fits b) (hs : ¬b.Serves st) :
    b.poll st = (.ended, { st with waitedAt := none }, b) := by
  have hw : st.waitedAt ≠ some b.signals := fun hw => hs (h.waits hw)
  simp only [poll, if_neg hw, look_of_not_serves hs]

theorem poll_ne_ended (hs : b.Serves st) : (b.poll st).1 ≠ .ended := by
  obtain ⟨x, hx, ho⟩ := isOpen_iff.mp hs.2
  have hends : ¬(b.epoch ≠ st.epoch ∨ ¬x.isOpen) := by simp [hs.1, ho]
  unfold poll
  split
  · simp
  · have hlook : (b.look st).1 ≠ .ended := by
      simp only [look, hx, if_neg hends]
      split
      · simp
      · split <;> simp
      · simp
    split
    · simp
    · rename_i hpolled
      rwa [hpolled] at hlook

theorem Stream.Fits.yields_ended (h : st.Fits b) : (b.poll st).1 = .ended ↔ ¬b.Serves st := by
  refine ⟨fun hended hs => poll_ne_ended hs hended, fun hs => ?_⟩
  rw [h.poll_ended hs]

theorem poll_stream (b : Broker) (st : Stream) :
    ∃ waitedAt, (b.poll st).2.1 = { st with waitedAt } := by
  unfold poll
  split
  · exact ⟨st.waitedAt, rfl⟩
  · split <;> exact ⟨_, rfl⟩

theorem waitedAt_poll (b : Broker) (st : Stream) : (b.poll st).2.1.waitedAt = none ∨
    (b.poll st).2.1.waitedAt = some b.signals := by
  have hyield := b.poll_yield st
  generalize b.poll st = polled at hyield ⊢
  cases hyield with
  | waiting hw => exact .inr hw
  | nothing => exact .inr rfl
  | ended | fault | delivery => exact .inl rfl

theorem Stream.Fits.poll (h : st.Fits b) : (b.poll st).2.1.Fits (b.act (.poll st)) := by
  have hafter := h.act (.poll st)
  have hwaited := b.waitedAt_poll st
  obtain ⟨waitedAt, hst⟩ := b.poll_stream st
  rw [hst] at hwaited ⊢
  refine ⟨hafter.known, hafter.epoch, fun n hn => ?_, fun hw => ?_⟩
  · obtain rfl : n = b.signals := by
      rcases hwaited with hnone | hsome
      · cases hnone.symm.trans hn
      · exact Option.some.inj (hn.symm.trans hsome)
    exact b.act_signals _
  · by_contra hs
    have hends : ¬b.Serves st := by
      intro hserves
      exact hs ((h.serves_act (.poll st)).mpr ⟨hserves, by rintro (hp | hp) <;> cases hp⟩)
    rw [h.poll_ended hends] at hst
    cases (congrArg Stream.waitedAt hst).trans hw

/-! ## Streams in a run -/

theorem opens_fits (h : b.opens a = some st) : st.Fits b ∧ b.Serves st := by
  cases a with
  | consume s queue =>
    simp only [opens, consume] at h
    split at h
    · cases h
    · rename_i hs
      split at h
      · cases h
        have hopen : b.isOpen s := by simpa using hs
        obtain ⟨x, hx, -⟩ := isOpen_iff.mp hopen
        have hlt := (List.getElem?_eq_some_iff.mp hx).1
        exact ⟨⟨hlt, Nat.le_refl _, by simp, by simp⟩, rfl, hopen⟩
      · cases h
  | _ => cases h

theorem opens_spares (h : b.opens a = some st) (st' : Stream) : ¬a.Ends st' := by
  cases a with
  | consume s queue => rintro (ha | ha) <;> cases ha
  | _ => cases h

theorem opens_cancelled (b : Broker) (a : Action) :
    b.cancelConsumers.opens a = (b.opens a).map Stream.renewed := by
  cases a with
  | consume s queue =>
    simp only [opens, consume_cancelled]
    cases b.consume s queue <;> rfl
  | _ => rfl

namespace Consumers
variable {c : Consumers} {steps : List Step} {i : Nat}

theorem run_append (c : Consumers) (xs ys : List Step) : c.run (xs ++ ys) = (c.run xs).run ys :=
  List.foldl_append ..

theorem items_append (c : Consumers) (xs ys : List Step) :
    c.items (xs ++ ys) = c.items xs ++ (c.run xs).items ys := by
  induction xs generalizing c with
  | nil => rfl
  | cons step xs ih =>
    cases step with
    | ask a apart => exact ih _
    | poll i =>
      rw [List.cons_append, items, items, ih, List.append_assoc]
      rfl

theorem answers_append (c : Consumers) (i : Nat) (xs ys : List Step) :
    c.answers i (xs ++ ys) = c.answers i xs ++ (c.run xs).answers i ys := by
  simp only [answers, items_append, List.filter_append, List.map_append]

theorem answers_poll (c : Consumers) (i : Nat) (steps : List Step) :
    c.answers i (.poll i :: steps) =
      (c.yields i).toList ++ (c.step (.poll i)).answers i steps := by
  rw [answers, items, List.filter_append, List.map_append]
  cases c.yields i <;> simp [answers]

theorem exists_stream (hi : i < c.streams.length) : ∃ st, c.streams[i]? = some st :=
  ⟨_, List.getElem?_eq_getElem hi⟩

def Sound (c : Consumers) : Prop := ∀ st ∈ c.streams, st.Fits c.broker

theorem Sound.fits (h : c.Sound) (hi : c.streams[i]? = some st) : st.Fits c.broker :=
  h st (List.mem_of_getElem? hi)

theorem Sound.step (h : c.Sound) (step : Step) : (c.step step).Sound := by
  intro st hst
  cases step with
  | ask a apart =>
    rcases List.mem_append.mp hst with hold | hnew
    · exact (h st hold).act a
    · exact (opens_fits (Option.mem_toList.mp hnew)).1.act a
  | poll i =>
    simp only [Consumers.step] at hst ⊢
    cases hi : c.streams[i]? with
    | none =>
      rw [hi] at hst
      exact h st hst
    | some polled =>
      rw [hi] at hst
      rcases List.mem_or_eq_of_mem_set hst with hold | rfl
      · exact (h st hold).act (.poll polled)
      · exact (h.fits hi).poll

theorem Sound.run (h : c.Sound) (steps : List Step) : (c.run steps).Sound := by
  induction steps generalizing c with
  | nil => exact h
  | cons step steps ih => exact ih (h.step step)

theorem sound_run (steps : List Step) : (run {} steps).Sound :=
  Sound.run (fun _ h => absurd h List.not_mem_nil) steps

theorem streams_step (hi : c.streams[i]? = some st) (step : Step) :
    ∃ waitedAt, (c.step step).streams[i]? = some { st with waitedAt } := by
  cases step with
  | ask a apart =>
    exact ⟨st.waitedAt, (List.getElem?_append_left (List.getElem?_eq_some_iff.mp hi).1).trans hi⟩
  | poll j =>
    simp only [Consumers.step]
    cases hj : c.streams[j]? with
    | none => exact ⟨st.waitedAt, hi⟩
    | some polled =>
      by_cases hij : j = i
      · subst hij
        obtain rfl : st = polled := Option.some.inj (hi.symm.trans hj)
        obtain ⟨waitedAt, hst⟩ := c.broker.poll_stream st
        refine ⟨waitedAt, ?_⟩
        rw [← hst, List.getElem?_set_self (List.getElem?_eq_some_iff.mp hi).1]
      · exact ⟨st.waitedAt, (List.getElem?_set_ne hij).trans hi⟩

theorem streams_run (hi : c.streams[i]? = some st) (steps : List Step) :
    ∃ waitedAt, (c.run steps).streams[i]? = some { st with waitedAt } := by
  induction steps generalizing c st with
  | nil => exact ⟨st.waitedAt, hi⟩
  | cons step steps ih =>
    obtain ⟨waitedAt, hstep⟩ := streams_step hi step
    obtain ⟨later, hrun⟩ := ih hstep
    exact ⟨later, hrun⟩

theorem length_poll (c : Consumers) (i : Nat) :
    (c.step (.poll i)).streams.length = c.streams.length := by
  simp only [Consumers.step]
  cases c.streams[i]? with
  | none => rfl
  | some st => exact List.length_set

theorem length_step (c : Consumers) (step : Step) :
    c.streams.length ≤ (c.step step).streams.length := by
  cases step with
  | ask a apart => simp [Consumers.step]
  | poll i => exact Nat.le_of_eq (c.length_poll i).symm

theorem length_run (c : Consumers) (steps : List Step) :
    c.streams.length ≤ (c.run steps).streams.length := by
  induction steps generalizing c with
  | nil => exact Nat.le_refl _
  | cons step steps ih => exact Nat.le_trans (c.length_step step) (ih _)

theorem length_run_of_no_consume {steps : List Step}
    (h : ∀ t queue, .ask (.consume t queue) ∉ steps) :
    (c.run steps).streams.length = c.streams.length := by
  induction steps generalizing c with
  | nil => rfl
  | cons step steps ih =>
    have hstep : (c.step step).streams.length = c.streams.length := by
      cases step with
      | poll i => exact c.length_poll i
      | ask a apart =>
        cases a with
        | consume t queue => exact (h t queue List.mem_cons_self).elim
        | _ => simp [Consumers.step, opens]
    exact (ih fun t queue hm => h t queue (List.mem_cons_of_mem _ hm)).trans hstep

theorem sessions_step (c : Consumers) (step : Step) :
    c.broker.sessions.length ≤ (c.step step).broker.sessions.length := by
  cases step with
  | ask a apart => exact c.broker.length_act a
  | poll i =>
    simp only [Consumers.step]
    cases c.streams[i]? with
    | none => exact Nat.le_refl _
    | some st => exact c.broker.length_act (.poll st)

theorem sessions_run (c : Consumers) (steps : List Step) :
    c.broker.sessions.length ≤ (c.run steps).broker.sessions.length := by
  induction steps generalizing c with
  | nil => exact Nat.le_refl _
  | cons step steps ih => exact Nat.le_trans (c.sessions_step step) (ih _)

theorem serves_step (h : st.Fits c.broker) (step : Step) :
    (c.step step).broker.Serves st ↔ c.broker.Serves st ∧ ¬step.Ends st := by
  cases step with
  | ask a apart => exact h.serves_act a
  | poll j =>
    simp only [Consumers.step, Step.Ends, not_false_eq_true, and_true]
    cases c.streams[j]? with
    | none => exact Iff.rfl
    | some polled =>
      refine (h.serves_act (.poll polled)).trans (and_iff_left ?_)
      rintro (hp | hp) <;> cases hp

theorem endedIn_concat {step : Step} : EndedIn (steps ++ [step]) i ↔
    EndedIn steps i ∨ ∃ st, (run {} steps).streams[i]? = some st ∧ step.Ends st := by
  constructor
  · rintro ⟨earlier, last, st, hpre, hi, hends⟩
    rcases List.prefix_concat_iff.mp hpre with hlast | hpre
    · obtain ⟨rfl, hx⟩ := List.append_inj' hlast rfl
      obtain rfl := List.singleton_inj.mp hx
      exact .inr ⟨st, hi, hends⟩
    · exact .inl ⟨earlier, last, st, hpre, hi, hends⟩
  · rintro (⟨earlier, last, st, hpre, hi, hends⟩ | ⟨st, hi, hends⟩)
    · exact ⟨earlier, last, st, hpre.trans (List.prefix_append ..), hi, hends⟩
    · exact ⟨steps, step, st, List.prefix_refl _, hi, hends⟩

theorem EndedIn.lt (h : EndedIn steps i) : i < (run {} steps).streams.length := by
  obtain ⟨earlier, last, st, ⟨later, rfl⟩, hi, -⟩ := h
  rw [List.append_assoc, run_append]
  exact Nat.lt_of_lt_of_le (List.getElem?_eq_some_iff.mp hi).1 (length_run ..)

/-- A stream serves as long as nothing ended it after it was opened. -/
theorem serves_iff (hi : (run {} steps).streams[i]? = some st) :
    (run {} steps).broker.Serves st ↔ ¬EndedIn steps i := by
  induction steps using List.reverseRecOn generalizing st with
  | nil => simp [run] at hi
  | append_singleton steps step ih =>
    rw [endedIn_concat, not_or]
    rw [run_append] at hi ⊢
    change ((run {} steps).step step).streams[i]? = some st at hi
    change ((run {} steps).step step).broker.Serves st ↔ _
    cases hold : (run {} steps).streams[i]? with
    | some old =>
      obtain ⟨waitedAt, hst⟩ := streams_step hold step
      obtain rfl := Option.some.inj (hst.symm.trans hi)
      have hserves : ((run {} steps).step step).broker.Serves { old with waitedAt } ↔
          (run {} steps).broker.Serves old ∧ ¬step.Ends old :=
        serves_step ((sound_run steps).fits hold) step
      simp [hserves, ih hold]
    | none =>
      -- It has only just been opened.
      have hlt : ¬i < (run {} steps).streams.length :=
        Nat.not_lt.mpr (List.getElem?_eq_none_iff.mp hold)
      refine iff_of_true ?_ ⟨fun hended => hlt hended.lt, by simp⟩
      cases step with
      | ask a apart =>
        change ((run {} steps).streams ++ Option.toList _)[i]? = some st at hi
        rw [List.getElem?_append_right (Nat.not_lt.mp hlt)] at hi
        have hopens := Option.mem_toList.mp (List.mem_of_getElem? hi)
        obtain ⟨hfits, hserves⟩ := opens_fits hopens
        exact (hfits.serves_act a).mpr ⟨hserves, opens_spares hopens st⟩
      | poll j =>
        refine absurd ?_ hlt
        rw [← length_poll]
        exact (List.getElem?_eq_some_iff.mp hi).1

end Consumers
end CargoEvents.Broker
