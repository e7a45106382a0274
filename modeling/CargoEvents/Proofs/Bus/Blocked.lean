import CargoEvents.Proofs.Bus.Retry

/-! # Blocked queues

What is given back stands at the head of its queue again. A copy whose handler fails on it
whenever it runs therefore keeps all others from being attempted.
-/
namespace CargoEvents.Network
variable {H σ : Type}
open Broker (Copy)

/-- The stages of an attempt at a copy on whose event the handler of `r` fails. -/
inductive Stuck (i k : Nat) (registry : Registry H) (queue : String) (r : Registration H)
    (e : Event) : Network H → Prop
  | waiting {s : Network H} {tag : Nat} {copy : Copy} {ready : List Copy}
      (serving : Serving registry queue i k s .pulling tag [] (copy :: ready))
      (found : registry.get? copy.kind = some r) (decodes : r.decode copy.body = .ok e) :
      Stuck i k registry queue r e s
  | running {s : Network H} {tag : Nat} {copy : Copy} {ready : List Copy}
      (serving : Serving registry queue i k s (.handling (copy.delivery tag) r e) tag
        [{ tag, queue, copy }] ready)
      (found : registry.get? copy.kind = some r) (decodes : r.decode copy.body = .ok e) :
      Stuck i k registry queue r e s
  | failed {s : Network H} {tag : Nat} {copy : Copy} {ready : List Copy} {key : String}
      {error : HandlerError}
      (serving : Serving registry queue i k s
        (.pausing (copy.delivery tag) (.failed key error)) tag [{ tag, queue, copy }] ready)
      (found : registry.get? copy.kind = some r) (decodes : r.decode copy.body = .ok e) :
      Stuck i k registry queue r e s

variable {run : H → Event → Call HandlerError σ Unit} {i k : Nat} {registry : Registry H}
  {queue : String} {r : Registration H} {e : Event} {hopeless : σ → Prop} {t : σ} {s : Network H}

theorem Stuck.turn (fails : ∀ t, hopeless t → ∃ error t',
      run r.handler e t = (.error error, t') ∧ hopeless t')
    (h : Stuck i k registry queue r e s) (ht : hopeless t) :
    ∃ s' t', turn run i k (s, t) = (s', t') ∧ Stuck i k registry queue r e s' ∧ hopeless t' := by
  cases h with
  | waiting serving found decodes =>
    exact ⟨_, t, serving.turn_pulling, .running (serving.pull found decodes).1 found decodes, ht⟩
  | running serving found decodes =>
    obtain ⟨error, t', hrun, ht'⟩ := fails t ht
    refine ⟨_, t', ?_, .failed (serving.complete (.error error)).1 found decodes, ht'⟩
    rw [serving.turn_handling, hrun]
  | failed serving found decodes =>
    exact ⟨_, t, serving.turn_pausing, .waiting serving.resume.1 found decodes, ht⟩

theorem Stuck.busy (h : Stuck i k registry queue r e s) : s.Busy i k queue := by
  cases h with
  | waiting serving => exact serving.busy_of_ready
  | running serving | failed serving => exact serving.busy_of_held

theorem Stuck.play (fails : ∀ t, hopeless t → ∃ error t',
      run r.handler e t = (.error error, t') ∧ hopeless t')
    (h : Stuck i k registry queue r e s) (ht : hopeless t) (n : Nat) :
    (Network.play run i k (s, t) (.replicate n .turn)).1.Busy i k queue := by
  induction n generalizing s t with
  | zero => exact h.busy
  | succ n ih =>
    obtain ⟨s', t', hturn, hstuck, ht'⟩ := h.turn fails ht
    rw [List.replicate_succ]
    change (Network.play run i k (Network.turn run i k (s, t)) (.replicate n .turn)).1.Busy i k queue
    rw [hturn]
    exact ih hstuck ht'

/-! ## Turns and nothing else -/

theorem turns_replicate (n : Nat) : turns (.replicate n (.turn : Tick H)) = n := by
  simp [turns, List.countP_replicate, Tick.isTurn]

theorem added_replicate (state : Network H × σ) (n : Nat) :
    added run i k queue state (.replicate n .turn) = [] := by
  induction n generalizing state with
  | zero => rfl
  | succ n ih => exact ih _

theorem play_append (state : Network H × σ) (xs ys : List (Tick H)) :
    play run i k state (xs ++ ys) = play run i k (play run i k state xs) ys :=
  List.foldl_append ..

theorem Stage.play_replicate {told : List (Entry H)} {u : σ} {came : List Copy} {n : Nat}
    {state : Network H × σ} (h : Stage run i k registry queue told u n came state) {m : Nat}
    (hm : m ≤ n) :
    Stage run i k registry queue told u (n - m) came
      (Network.play run i k state (.replicate m .turn)) := by
  have hnone (a : Act H) (ha : .act a ∈ List.replicate m (.turn : Tick H)) : a.announces := by
    cases List.eq_of_mem_replicate ha
  have hplay := h.play (.replicate m .turn) hnone (by rwa [turns_replicate])
  rwa [turns_replicate, added_replicate, List.append_nil] at hplay

variable {tag : Nat} {jobs : List (Job H)} {u : σ}

theorem Serving.work_off {came : List Copy}
    (h : Serving registry queue i k s .pulling tag [] (jobs.map (·.copy) ++ came))
    (fits : ∀ j ∈ jobs, j.Fits registry) (work : Work run t jobs u) :
    let later := Network.play run i k (s, t) (.replicate (3 * (plan tag jobs).length) .turn)
    (∃ tag, Serving registry queue i k later.1 .pulling tag [] came) ∧
    later.1.log i k = s.log i k ++ (plan tag jobs).flatMap (Attempt.log i k) ∧ later.2 = u := by
  have hstage := Stage.between h fits work rfl
  have hplay := hstage.play_replicate (Nat.le_refl _)
  rw [Nat.sub_self] at hplay
  exact hplay.done

/-- A copy on which its handler fails blocks the queue once it is at the head. -/
theorem Serving.blocked {copy : Copy} {ready : List Copy}
    (h : Serving registry queue i k s .pulling tag [] (jobs.map (·.copy) ++ copy :: ready))
    (fits : ∀ j ∈ jobs, j.Fits registry) (work : Work run t jobs u)
    (found : registry.get? copy.kind = some r) (decodes : r.decode copy.body = .ok e)
    (fails : ∀ t, hopeless t → ∃ error t',
      run r.handler e t = (.error error, t') ∧ hopeless t') (hu : hopeless u) (n : Nat) :
    (Network.play run i k (s, t) (.replicate n .turn)).1.Busy i k queue := by
  -- While turns of the plan are left there is something to do, and after them it is the copy.
  rcases Nat.lt_or_ge n (3 * (plan tag jobs).length) with hn | hn
  · have hplay := (Stage.between h fits work rfl).play_replicate (Nat.le_of_lt hn)
    obtain ⟨m, hm⟩ := Nat.exists_eq_succ_of_ne_zero (Nat.sub_ne_zero_of_lt hn)
    rw [hm] at hplay
    exact hplay.busy
  · obtain ⟨m, rfl⟩ := Nat.exists_eq_add_of_le hn
    obtain ⟨⟨tag', hserving⟩, -, hstate⟩ := h.work_off fits work
    rw [List.replicate_add, play_append]
    exact (Stuck.waiting hserving found decodes).play fails (hstate.symm ▸ hu) m

end CargoEvents.Network
