import CargoEvents.Proofs.Bus.Turns

/-! # Retrying

A copy whose handler fails goes back to the head of its queue and is attempted again before
any other, until the handler succeeds. The plan of attempts for what waits is therefore
known beforehand, and a dispatcher that nothing disturbs carries it out in three turns an
attempt, whatever is announced meanwhile.
-/
namespace CargoEvents.Network
variable {H σ : Type}
open Broker (Copy)

structure Job (H : Type) where
  copy : Copy
  registration : Registration H
  event : Event
  /-- What the runs of the handler before the one that succeeds fail with. -/
  failures : List HandlerError

structure Job.Fits (registry : Registry H) (j : Job H) : Prop where
  found : registry.get? j.copy.kind = some j.registration
  decodes : j.registration.decode j.copy.body = .ok j.event

structure Attempt (H : Type) where
  copy : Copy
  registration : Registration H
  event : Event
  result : Except HandlerError Unit

/-- The copy as it waits is attempted first, and marked as redelivered after each failure. -/
def Job.attempts (j : Job H) : List (Attempt H) :=
  ((j.copy :: .replicate j.failures.length j.copy.marked).zip
    (j.failures.map .error ++ [.ok ()])).map fun (copy, result) =>
      { copy, registration := j.registration, event := j.event, result }

/-- The attempts for what waits, each with the tag of its delivery. -/
def plan (tag : Nat) (jobs : List (Job H)) : List (Attempt H × Nat) :=
  (jobs.flatMap Job.attempts).zipIdx (tag + 1)

def Attempt.ending (i : Nat) : Attempt H × Nat → List (Entry H)
  | ({ result := .ok _, .. }, tag) => [.called i (.ack tag) none]
  | ({ registration, result := .error e, .. }, tag) =>
    [.called i (.nack tag true) none, .reported i (.handlerFailed registration.routingKey tag e)]

def Attempt.log (i k : Nat) (a : Attempt H × Nat) : List (Entry H) :=
  let d := a.1.copy.delivery a.2
  [.pulled i k d, .entered i k d a.1.registration a.1.event, .left i k d a.1.result] ++
    Attempt.ending i a

def Job.first (j : Job H) : Attempt H where
  copy := j.copy
  registration := j.registration
  event := j.event
  result := match j.failures with
    | [] => .ok ()
    | e :: _ => .error e

def Job.rest (j : Job H) : List (Job H) :=
  match j.failures with
  | [] => []
  | _ :: later => [{ j with copy := j.copy.marked, failures := later }]

/-- Run on one job after the other from state `t`, each as often as it fails and once more,
the handlers get to state `u`. -/
inductive Work (run : H → Event → Call HandlerError σ Unit) : σ → List (Job H) → σ → Prop
  | done (t : σ) : Work run t [] t
  | attempt {t t' u : σ} {j : Job H} {jobs : List (Job H)}
      (ran : run j.registration.handler j.event t = (j.first.result, t'))
      (later : Work run t' (j.rest ++ jobs) u) : Work run t (j :: jobs) u

theorem Job.attempts_eq (j : Job H) :
    j.attempts = j.first :: j.rest.flatMap Job.attempts := by
  obtain ⟨copy, registration, event, failures⟩ := j
  cases failures with
  | nil => rfl
  | cons e later => simp [attempts, first, rest, List.replicate_succ, Copy.marked]

theorem plan_cons (tag : Nat) (j : Job H) (jobs : List (Job H)) :
    plan tag (j :: jobs) = (j.first, tag + 1) :: plan (tag + 1) (j.rest ++ jobs) := by
  simp only [plan, List.flatMap_cons, j.attempts_eq, List.cons_append, List.zipIdx_cons,
    List.flatMap_append]

theorem plan_length (tag : Nat) (jobs : List (Job H)) :
    (plan tag jobs).length = jobs.length + (jobs.flatMap (·.failures)).length := by
  rw [plan, List.length_zipIdx]
  induction jobs with
  | nil => rfl
  | cons j jobs ih =>
    have hj : j.attempts.length = j.failures.length + 1 := by simp [Job.attempts]
    rw [List.flatMap_cons, List.length_append, ih, hj, List.flatMap_cons, List.length_append,
      List.length_cons]
    omega

theorem Job.Fits.rest {registry : Registry H} {j : Job H} (h : j.Fits registry) :
    ∀ j' ∈ j.rest, j'.Fits registry := by
  intro j' hj'
  unfold Job.rest at hj'
  split at hj'
  · simp at hj'
  · obtain rfl := List.mem_singleton.mp hj'
    exact ⟨h.found, h.decodes⟩

/-! ## Stages of an attempt -/

section Stages
variable (run : H → Event → Call HandlerError σ Unit) (i k : Nat) (registry : Registry H)
  (queue : String) (told : List (Entry H)) (u : σ)

/-- A dispatcher with so many turns to go through its plan: between two attempts, with the
handler running, or with the delivery to be resolved. `came` was announced meanwhile, and in
the end `told` has been logged and the handlers are in state `u`. -/
inductive Stage : Nat → List Copy → Network H × σ → Prop
  | between {s : Network H} {t : σ} {tag : Nat} {jobs : List (Job H)} {came : List Copy}
      (serving : Serving registry queue i k s .pulling tag [] (jobs.map (·.copy) ++ came))
      (fits : ∀ j ∈ jobs, j.Fits registry) (work : Work run t jobs u)
      (log : s.log i k ++ (plan tag jobs).flatMap (Attempt.log i k) = told) :
      Stage (3 * (plan tag jobs).length) came (s, t)
  | running {s : Network H} {t : σ} {tag : Nat} {j : Job H} {jobs : List (Job H)}
      {came : List Copy}
      (serving : Serving registry queue i k s
        (.handling (j.copy.delivery tag) j.registration j.event) tag
        [{ tag, queue, copy := j.copy }] (jobs.map (·.copy) ++ came))
      (fits : ∀ j' ∈ j :: jobs, j'.Fits registry) (work : Work run t (j :: jobs) u)
      (log : s.log i k ++ (.left i k (j.copy.delivery tag) j.first.result ::
        Attempt.ending i (j.first, tag) ++
          (plan tag (j.rest ++ jobs)).flatMap (Attempt.log i k)) = told) :
      Stage (3 * (plan tag (j.rest ++ jobs)).length + 2) came (s, t)
  | resolving {s : Network H} {t : σ} {tag : Nat} {j : Job H} {jobs : List (Job H)}
      {came : List Copy}
      (serving : Serving registry queue i k s
        (.afterRun (j.copy.delivery tag) j.registration j.first.result) tag
        [{ tag, queue, copy := j.copy }] (jobs.map (·.copy) ++ came))
      (fits : ∀ j' ∈ j.rest ++ jobs, j'.Fits registry) (work : Work run t (j.rest ++ jobs) u)
      (log : s.log i k ++ (Attempt.ending i (j.first, tag) ++
        (plan tag (j.rest ++ jobs)).flatMap (Attempt.log i k)) = told) :
      Stage (3 * (plan tag (j.rest ++ jobs)).length + 1) came (s, t)

end Stages

variable {run : H → Event → Call HandlerError σ Unit} {i k : Nat} {registry : Registry H}
  {queue : String} {told : List (Entry H)} {u t : σ} {s : Network H} {came : List Copy}
  {tag : Nat} {held : List Broker.Held} {ready : List Copy}

theorem Serving.turn_pulling (h : Serving registry queue i k s .pulling tag held ready) :
    turn run i k (s, t) = (s.pull i k, t) := by
  obtain ⟨-, bus, st, x, hu, -⟩ := h
  simp only [turn, hu.dispatcher]

theorem Serving.turn_handling {d : Broker.Delivery} {r : Registration H} {e : Event}
    (h : Serving registry queue i k s (.handling d r e) tag held ready) :
    turn run i k (s, t) =
      (s.complete i k (run r.handler e t).1, (run r.handler e t).2) := by
  obtain ⟨-, bus, st, x, hu, -⟩ := h
  simp only [turn, hu.dispatcher]

theorem Serving.turn_acknowledging {d : Broker.Delivery}
    (h : Serving registry queue i k s (.acknowledging d) tag held ready) :
    turn run i k (s, t) = (s.acknowledge i k, t) := by
  obtain ⟨-, bus, st, x, hu, -⟩ := h
  simp only [turn, hu.dispatcher]

theorem Serving.turn_pausing {d : Broker.Delivery} {v : Verdict}
    (h : Serving registry queue i k s (.pausing d v) tag held ready) :
    turn run i k (s, t) = (s.resume i k, t) := by
  obtain ⟨-, bus, st, x, hu, -⟩ := h
  simp only [turn, hu.dispatcher]

/-- With one turn the dispatcher gets from each stage to the next. -/
theorem Stage.turn {n : Nat} (h : Stage run i k registry queue told u (n + 1) came (s, t)) :
    Stage run i k registry queue told u n came (turn run i k (s, t)) := by
  generalize hn : n + 1 = m at h
  cases h with
  | @between _ _ tag jobs _ serving fits work log =>
    cases work with
    | done => simp [plan] at hn
    | @attempt _ t' _ j jobs ran later =>
      rw [serving.turn_pulling]
      have hj := fits j List.mem_cons_self
      obtain ⟨hserving, hlog⟩ := serving.pull hj.found hj.decodes
      rw [plan_cons, List.length_cons] at hn
      obtain rfl : n = 3 * (plan (tag + 1) (j.rest ++ jobs)).length + 2 := by omega
      refine .running hserving fits (.attempt ran later) ?_
      rw [plan_cons] at log
      rw [hlog, ← log]
      simp [Attempt.log, Job.first]
  | @running _ _ tag j jobs _ serving fits work log =>
    cases work with
    | @attempt _ t' _ _ _ ran later =>
      rw [serving.turn_handling, ran]
      obtain ⟨hserving, hlog⟩ := serving.complete j.first.result
      obtain rfl : n = 3 * (plan tag (j.rest ++ jobs)).length + 1 := by omega
      refine .resolving hserving (fun j' hj' => ?_) later ?_
      · rcases List.mem_append.mp hj' with hj' | hj'
        · exact (fits j List.mem_cons_self).rest j' hj'
        · exact fits j' (List.mem_cons_of_mem _ hj')
      · rw [hlog, ← log]
        simp
  | @resolving _ _ tag j jobs _ serving fits work log =>
    obtain rfl : n = 3 * (plan tag (j.rest ++ jobs)).length := by omega
    -- Only now it matters whether the attempt failed and what is left of the job.
    obtain ⟨copy, r, e, failures⟩ := j
    cases failures with
    | nil =>
      rw [serving.turn_acknowledging]
      obtain ⟨hserving, hlog⟩ := serving.acknowledge
      refine .between hserving fits work ?_
      rw [hlog, ← log, List.append_assoc]
      rfl
    | cons error later =>
      rw [serving.turn_pausing]
      obtain ⟨hserving, hlog⟩ := serving.resume
      refine .between hserving fits work ?_
      rw [hlog, ← log, List.append_assoc]
      rfl

theorem Stage.announced {n : Nat} (h : Stage run i k registry queue told u n came (s, t))
    {a : Act H} (ha : a.announces) :
    Stage run i k registry queue told u n
      (came ++ ((s.perform a).broker.ready queue).drop (s.broker.ready queue).length)
      (s.perform a, t) := by
  cases h with
  | between serving fits work log =>
    obtain ⟨hserving, hlog⟩ := serving.announced ha
    rw [List.append_assoc] at hserving
    exact .between hserving fits work (hlog ▸ log)
  | running serving fits work log =>
    obtain ⟨hserving, hlog⟩ := serving.announced ha
    rw [List.append_assoc] at hserving
    exact .running hserving fits work (hlog ▸ log)
  | resolving serving fits work log =>
    obtain ⟨hserving, hlog⟩ := serving.announced ha
    rw [List.append_assoc] at hserving
    exact .resolving hserving fits work (hlog ▸ log)

theorem Stage.busy {n : Nat} (h : Stage run i k registry queue told u (n + 1) came (s, t)) :
    s.Busy i k queue := by
  generalize hn : n + 1 = m at h
  cases h with
  | @between _ _ tag jobs _ serving fits work log =>
    cases jobs with
    | nil => simp [plan] at hn
    | cons j jobs => exact serving.busy_of_ready
  | running serving | resolving serving => exact serving.busy_of_held

theorem Stage.done (h : Stage run i k registry queue told u 0 came (s, t)) :
    (∃ tag, Serving registry queue i k s .pulling tag [] came) ∧ s.log i k = told ∧ t = u := by
  generalize hn : 0 = m at h
  cases h with
  | @between _ _ tag jobs _ serving fits work log =>
    cases work with
    | done => exact ⟨⟨tag, serving⟩, by simpa [plan] using log, rfl⟩
    | attempt ran later =>
      rw [plan_cons, List.length_cons] at hn
      omega
  | running | resolving => omega

/-! ## Whole runs -/

/-- What may happen next: the dispatcher has a turn, or there is an act. -/
inductive Tick (H : Type)
  | turn
  | act (a : Act H)

def tick (run : H → Event → Call HandlerError σ Unit) (i k : Nat) (state : Network H × σ) :
    Tick H → Network H × σ
  | .turn => turn run i k state
  | .act a => (state.1.perform a, state.2)

def play (run : H → Event → Call HandlerError σ Unit) (i k : Nat) (state : Network H × σ)
    (ticks : List (Tick H)) : Network H × σ := ticks.foldl (tick run i k) state

def Tick.isTurn : Tick H → Bool
  | turn => true
  | act _ => false

def turns (ticks : List (Tick H)) : Nat := ticks.countP Tick.isTurn

/-- The copies that acts put behind what waited in the queue. -/
def added (run : H → Event → Call HandlerError σ Unit) (i k : Nat) (queue : String)
    (state : Network H × σ) : List (Tick H) → List Copy
  | [] => []
  | .turn :: ticks => added run i k queue (turn run i k state) ticks
  | .act a :: ticks =>
    ((state.1.perform a).broker.ready queue).drop (state.1.broker.ready queue).length ++
      added run i k queue (state.1.perform a, state.2) ticks

theorem Stage.play {n : Nat} {state : Network H × σ}
    (h : Stage run i k registry queue told u n came state) (ticks : List (Tick H))
    (announced : ∀ a, .act a ∈ ticks → a.announces) (hn : turns ticks ≤ n) :
    Stage run i k registry queue told u (n - turns ticks)
      (came ++ added run i k queue state ticks) (Network.play run i k state ticks) := by
  induction ticks generalizing n came state with
  | nil => simpa [added, turns, Network.play] using h
  | cons x ticks ih =>
    have hrest : ∀ a, .act a ∈ ticks → a.announces := fun a ha =>
      announced a (List.mem_cons_of_mem _ ha)
    obtain ⟨s, t⟩ := state
    cases x with
    | turn =>
      have hturns : turns (.turn :: ticks) = turns ticks + 1 := List.countP_cons_of_pos rfl
      obtain ⟨m, rfl⟩ : ∃ m, n = m + 1 := ⟨n - 1, by omega⟩
      have hplay := ih h.turn hrest (by omega)
      rw [hturns, Nat.add_sub_add_right]
      exact hplay
    | act a =>
      have hturns : turns (.act a :: ticks) = turns ticks := List.countP_cons_of_neg nofun
      have hplay := ih (h.announced (announced a List.mem_cons_self)) hrest (by omega)
      rw [List.append_assoc] at hplay
      rw [hturns]
      exact hplay

/-- Retrying. Let the dispatcher of a bus that nothing disturbs stand between deliveries while
its session holds none, let `jobs` wait in its queue, and let each handler fail as often as
its job says before it succeeds. Once the dispatcher has had three turns for each attempt
of the plan, and not before, all of this is gone from the queue, and what was logged is the
plan. Messages announced meanwhile wait behind the jobs and change nothing of it. -/
theorem retried_in_order (acts : List (Act H)) {bus : Bus H} {st : Broker.Stream}
    {x : Broker.Session}
    (undisturbed : Undisturbed (Network.run {} acts) i k bus { stream := st } x)
    (free : x.unacked = []) (jobs : List (Job H))
    (waiting : (Network.run {} acts).broker.ready bus.config.topology.queue.name =
      jobs.map (·.copy))
    (fits : ∀ j ∈ jobs, j.Fits bus.registry) (work : Work run t jobs u)
    (ticks : List (Tick H)) (announced : ∀ a, .act a ∈ ticks → a.announces) :
    let s := Network.run {} acts
    let queue := bus.config.topology.queue.name
    let attempts := jobs.length + (jobs.flatMap (·.failures)).length
    let later := play run i k (s, t) ticks
    (plan x.lastTag jobs).length = attempts ∧
    (turns ticks < 3 * attempts → later.1.Busy i k queue) ∧
    (turns ticks = 3 * attempts →
      later.1.log i k = s.log i k ++ (plan x.lastTag jobs).flatMap (Attempt.log i k) ∧
      later.1.broker.ready queue = added run i k queue (s, t) ticks ∧ later.2 = u ∧
      ∃ bus' st' x', Undisturbed later.1 i k bus' { stream := st' } x' ∧ x'.unacked = []) := by
  intro s queue attempts later
  have hlength : (plan x.lastTag jobs).length = attempts := plan_length ..
  have hserving := undisturbed.serving
  rw [free, waiting, ← List.append_nil (jobs.map _)] at hserving
  have hstart : Stage run i k bus.registry queue
      (s.log i k ++ (plan x.lastTag jobs).flatMap (Attempt.log i k)) u (3 * attempts) [] (s, t) :=
    hlength ▸ .between hserving fits work rfl
  refine ⟨hlength, fun hfew => ?_, fun hall => ?_⟩
  · have hlater := hstart.play ticks announced (Nat.le_of_lt hfew)
    obtain ⟨n, hn⟩ := Nat.exists_eq_succ_of_ne_zero (Nat.sub_ne_zero_of_lt hfew)
    rw [hn] at hlater
    exact hlater.busy
  · have hlater := hstart.play ticks announced (Nat.le_of_eq hall)
    rw [hall, Nat.sub_self, List.nil_append] at hlater
    obtain ⟨⟨tag, hserving⟩, hlog, hu⟩ := hlater.done
    have hready := hserving.ready_eq
    obtain ⟨-, bus', st', x', hu', -, -, -, hfree, -⟩ := hserving
    exact ⟨hlog, hready, hu, bus', st', x', hu', hfree⟩

/-- A booking whose handler fails once, while another is announced. -/
theorem retried_in_order_once :
    let acts : List (Act Unit) := [.build { service := "s" } .receiver [],
      .subscribe 0 .newCargoBooked (), .start 0,
      .beside (.operate (.inject defaultExchange "NewCargoBooked" none []))]
    let flaky : Unit → Event → Call HandlerError Nat Unit := fun _ _ n =>
      match n with
      | 0 => (.ok (), 0)
      | n + 1 => (.error (.rejected "busy"), n)
    let job : Job Unit := {
      copy := { arrival := 0, routingKey := "NewCargoBooked", typeTag := none, body := [] }
      registration := { kind := .newCargoBooked, handler := () }
      event := .newCargoBooked {}
      failures := [.rejected "busy"] }
    let ticks : List (Tick Unit) := [.turn, .turn, .act (.publish 0 (.newCargoBooked {})), .turn,
      .turn, .turn, .turn]
    let s := Network.run {} acts
    let later := play flaky 0 0 (s, 1) ticks
    later.1.log 0 0 = s.log 0 0 ++ (plan 0 [job]).flatMap (Attempt.log 0 0) ∧
    (later.1.broker.ready "s.queue").map (·.arrival) = [1] := by
  intro acts flaky job ticks s later
  let st : Broker.Stream := { session := 0, queue := "s.queue", epoch := 0 }
  let bus : Bus Unit := {
    config := { service := "s" }
    session := 0
    registry := ({} : Registry Unit).insert .newCargoBooked ()
    state := .consuming
    changes := 1
    dispatchers := [{ stream := st }] }
  have undisturbed : Undisturbed s 0 0 bus { stream := st } { prefetch := 1 } :=
    ⟨rfl, rfl, rfl, rfl, rfl, rfl, rfl, rfl⟩
  have fits : ∀ j ∈ [job], j.Fits bus.registry :=
    List.forall_mem_singleton.mpr ⟨rfl, rfl⟩
  have work : Work flaky 1 [job] 0 := .attempt rfl (.attempt rfl (.done 0))
  have announced : ∀ a, Tick.act a ∈ ticks → a.announces := by
    intro a ha
    simp only [ticks, List.mem_cons, List.not_mem_nil, reduceCtorEq, false_or, or_false,
      Tick.act.injEq] at ha
    exact ha ▸ rfl
  have h := retried_in_order acts undisturbed rfl [job] rfl fits work ticks announced
  obtain ⟨hlog, hready, -⟩ := h.2.2 rfl
  refine ⟨hlog, ?_⟩
  decide +kernel
end CargoEvents.Network
