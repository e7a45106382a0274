import CargoEvents.Proofs.Broker.Ledger
import CargoEvents.Proofs.Bus.Sound

/-! # Delivery at least once

A copy that was routed to a queue stays in its custody until a handler of its kind has
returned on what its body decodes to. Only the acknowledgement after that takes it away.
-/
namespace CargoEvents

namespace Broker

/-- The action leaves the queue and resolves nothing for good. -/
structure Action.Keeps (queue : String) (a : Action) : Prop where
  leaves : a ≠ .operate (.deleteQueue queue)
  returns : ∀ s tag how, a = .resolve s tag how → how = .nack true

theorem Action.keeps_of_isCall {a : Action} (h : a.isCall) (queue : String) : a.Keeps queue := by
  refine ⟨?_, ?_⟩
  · rintro rfl
    simp [isCall] at h
  · rintro s tag how rfl
    simp [isCall] at h

theorem Action.keeps_poll (st : Stream) (queue : String) : (Action.poll st).Keeps queue :=
  ⟨nofun, nofun⟩

theorem settling_eq_nil {b : Broker} {queue : String} {a : Action} (h : a.Keeps queue) :
    b.settling queue a = [] := by
  cases a with
  | resolve s tag how =>
    have hn := h.returns s tag how rfl
    simp only [settling, hn, if_true]
    split <;> rfl
  | _ => rfl

theorem mem_custody_act {b : Broker} (h : b.Sound) {queue : String} (hq : b.Housed queue)
    {a : Action} (ha : a.Keeps queue) {c : Copy} (hc : c ∈ b.custody queue) :
    c ∈ (b.act a).custody queue := by
  have hp := act_custody h hq.of_unacked a ha.leaves
  rw [settling_eq_nil ha, List.nil_append] at hp
  exact hp.mem_iff.mp (List.mem_append_left _ hc)

theorem mem_custody_run {b : Broker} (h : b.Sound) {queue : String} (hq : b.Housed queue)
    {actions : List Action} (ha : ∀ a ∈ actions, a.Keeps queue) {c : Copy}
    (hc : c ∈ b.custody queue) : c ∈ (b.run actions).custody queue := by
  induction actions generalizing b with
  | nil => exact hc
  | cons a actions ih =>
    obtain ⟨ha, hactions⟩ := List.forall_mem_cons.mp ha
    exact ih (h.act a) (hq.act h a ha.leaves) hactions (mem_custody_act h hq ha hc)

theorem mem_custody_resolve {b : Broker} (h : b.Sound) {queue : String} (hq : b.Housed queue)
    (s tag : Nat) (how : Resolution) {c : Copy} (hc : c ∈ b.custody queue) :
    c ∈ (b.act (.resolve s tag how)).custody queue ∨ ∃ x held, b.sessions[s]? = some x ∧
      held ∈ x.unacked ∧ held.tag = tag ∧ held.queue = queue ∧ held.copy.original = c := by
  have hp := act_custody h hq.of_unacked (.resolve s tag how) nofun
  rcases List.mem_append.mp (hp.mem_iff.mp (List.mem_append_left _ hc)) with hs | hs
  · right
    simp only [settling] at hs
    split at hs
    · split at hs
      · simp at hs
      · unfold heldUnder at hs
        split at hs
        · rename_i held hheld
          obtain ⟨x, hx, hfind⟩ := Option.bind_eq_some_iff.mp hheld
          split at hs
          · rename_i hqueue
            refine ⟨x, held, hx, List.mem_of_find?_eq_some hfind, ?_, hqueue, ?_⟩
            · simpa using List.find?_some hfind
            · exact (List.mem_singleton.mp hs).symm
          · simp at hs
        · simp at hs
    · simp at hs
  · exact .inl hs

theorem Housed.run {b : Broker} {queue : String} (hq : b.Housed queue) (h : b.Sound)
    (actions : List Action) (kept : ∀ a ∈ actions, a ≠ .operate (.deleteQueue queue)) :
    (b.run actions).Housed queue := by
  induction actions generalizing b with
  | nil => exact hq
  | cons a actions ih =>
    obtain ⟨ha, hactions⟩ := List.forall_mem_cons.mp kept
    exact ih (hq.act h a ha) (h.act a) hactions

theorem custody_nodup (queue : String) (actions : List Action)
    (kept : ∀ a ∈ actions, a ≠ .operate (.deleteQueue queue)) :
    (((run {} actions).custody queue).map (·.arrival)).Nodup := by
  have hp := (ledger_balance sound_empty (housed_empty queue) actions kept).map (·.arrival)
  have hrouted : ((ledger {} queue actions).routed.map (·.arrival)).Nodup :=
    (ledger_numbers {} queue actions).1.imp fun h => Nat.ne_of_lt h
  have hall := hp.nodup_iff.mp (by simpa [custody, ready, unacked] using hrouted)
  rw [List.map_append] at hall
  exact (List.nodup_append.mp hall).2.1

end Broker

namespace Network
variable {H : Type}
open Broker (Action Copy)

/-- Whether the act leaves the queue, and resolves no delivery past the dispatchers. -/
def Act.isFair (queue : String) : Act H → Bool
  | .beside (.operate (.deleteQueue name)) => name != queue
  | .beside (.resolve ..) => false
  | _ => true

theorem Act.keeps_of_isFair {queue : String} {a : Action}
    (h : (Act.beside a : Act H).isFair queue) : a.Keeps queue := by
  refine ⟨?_, ?_⟩
  · rintro rfl
    simp [isFair] at h
  · rintro s tag how rfl
    simp [isFair] at h

/-- Only a dispatcher that acknowledges has the broker resolve a delivery for good. -/
theorem perform_asked (s : Network H) {queue : String} {a : Act H} (ha : a.isFair queue) :
    (∃ actions, (s.perform a).broker = s.broker.run actions ∧ ∀ x ∈ actions, x.Keeps queue) ∨
    ∃ i k bus st d, s.dispatcher? i k = some (bus, { stream := st, position := .acknowledging d }) ∧
      (s.perform a).broker = s.broker.act (.resolve bus.session d.tag .ack) := by
  generalize hs : s.perform a = s'
  have he : Effect s a s' := hs ▸ s.perform_effect a
  have hquiet {t : Network H} (h : s.Quiet t) :
      ∃ actions, t.broker = s.broker.run actions ∧ ∀ x ∈ actions, x.Keeps queue := by
    obtain ⟨actions, hb, hcalls⟩ := h.broker
    exact ⟨actions, hb, fun x hx => Action.keeps_of_isCall (hcalls x hx) queue⟩
  have hone {b' : Broker} (x : Action) (hb : b' = s.broker.act x) (hx : x.Keeps queue) :
      ∃ actions, b' = s.broker.run actions ∧ ∀ x ∈ actions, x.Keeps queue :=
    ⟨[x], hb, List.forall_mem_singleton.mpr hx⟩
  cases he with
  | quiet h => exact .inl (hquiet h)
  | @subscribed _ _ _ t h => exact .inl (hquiet (t := t) h)
  | @started _ _ _ t h => exact .inl (hquiet (t := t) h.quiet)
  | beside x => exact .inl (hone x rfl (Act.keeps_of_isFair ha))
  | @moved _ i k bus st _ _ _ _ _ _ hd hm hmoved =>
    rw [hmoved.broker]
    cases hm with
    | stopped | completed | panicked | unacknowledged | unresumed =>
      exact .inl ⟨[], rfl, by simp⟩
    | looked _ hy => exact .inl (hone (.poll st) (congrArg (·.2.2) hy).symm (Action.keeps_poll st queue))
    | acknowledged d => exact .inr ⟨i, k, bus, st, d, hd, rfl⟩
    | resumed d v =>
      refine .inl (hone _ rfl ⟨nofun, fun _ _ _ hx => ?_⟩)
      cases hx
      rfl

theorem run_asked (acts : List (Act H)) {queue : String} (ha : ∀ a ∈ acts, a.isFair queue)
    (s : Network H) : ∃ actions, (s.run acts).broker = s.broker.run actions ∧
      ∀ x ∈ actions, x ≠ .operate (.deleteQueue queue) := by
  induction acts generalizing s with
  | nil => exact ⟨[], rfl, by simp⟩
  | cons a acts ih =>
    obtain ⟨ha, hacts⟩ := List.forall_mem_cons.mp ha
    obtain ⟨ys, hy, hys⟩ := ih hacts (s.perform a)
    obtain ⟨xs, hx, hxs⟩ : ∃ actions, (s.perform a).broker = s.broker.run actions ∧
        ∀ x ∈ actions, x ≠ .operate (.deleteQueue queue) := by
      rcases s.perform_asked ha with ⟨xs, hx, hkeeps⟩ | ⟨i, k, bus, st, d, -, hx⟩
      · exact ⟨xs, hx, fun x hm => (hkeeps x hm).leaves⟩
      · exact ⟨[.resolve bus.session d.tag .ack], hx, List.forall_mem_singleton.mpr nofun⟩
    refine ⟨xs ++ ys, by rw [run_cons, hy, hx, Broker.run_append], fun x hm => ?_⟩
    exact (List.mem_append.mp hm).elim (hxs x) (hys x)

/-- At the end of this run a dispatcher on the queue has just noted that the handler that
was subscribed for the copy's kind returned on the event its body decodes to. -/
def Returned (acts : List (Act H)) (queue : String) (c : Copy) : Prop :=
  ∃ i k bus st r e, ∃ (copy : Copy) (tag : Nat), copy.original = c.original ∧
    (run {} acts).dispatcher? i k =
      some (bus, { stream := st, position := .acknowledging (copy.delivery tag) }) ∧
    bus.config.topology.queue.name = queue ∧
    .subscribe i r.kind r.handler ∈ acts ∧
    r.kind.name = eventKind c.typeTag c.routingKey ∧ r.decode c.body = .ok e ∧
    [.pulled i k (copy.delivery tag), .entered i k (copy.delivery tag) r e,
      .left i k (copy.delivery tag) (.ok ())] <:+ (run {} acts).diary i k

/-- The handler returned at the end of this run or earlier. -/
def Handled (acts : List (Act H)) (queue : String) (c : Copy) : Prop :=
  ∃ before, before <+: acts ∧ Returned before queue c

theorem Handled.mono {xs ys : List (Act H)} {queue : String} {c : Copy} (h : Handled xs queue c)
    (hp : xs <+: ys) : Handled ys queue c := by
  obtain ⟨before, hb, h⟩ := h
  exact ⟨before, hb.trans hp, h⟩

theorem sound_run (acts : List (Act H)) :
    Sound (fun i r => .subscribe i r.kind r.handler ∈ acts) (run {} acts) :=
  (sound_empty _).run acts fun _ _ _ h => h

/-- A copy leaves the custody of a queue by being handled, and in no other way. -/
theorem custody_perform (acts : List (Act H)) {queue : String} (ha : ∀ a ∈ acts, a.isFair queue)
    {a : Act H} (hfair : a.isFair queue) {c : Copy}
    (hc : c.original ∈ (run {} acts).broker.custody queue) :
    c.original ∈ ((run {} acts).perform a).broker.custody queue ∨ Returned acts queue c := by
  have hsound := sound_run acts
  obtain ⟨actions, hrun, hkept⟩ := run_asked acts ha {}
  have hhoused : (run {} acts).broker.Housed queue := by
    rw [hrun]
    exact (Broker.housed_empty queue).run Broker.sound_empty actions hkept
  rcases (run {} acts).perform_asked hfair with ⟨xs, hx, hkeeps⟩ | ⟨i, k, bus, st, d, hd, hx⟩
  · left
    rw [hx]
    exact Broker.mem_custody_run hsound.broker hhoused hkeeps hc
  · rw [hx]
    refine (Broker.mem_custody_resolve hsound.broker hhoused bus.session d.tag .ack hc).imp_right ?_
    rintro ⟨x, held, hs, hm, htag, hqueue, horiginal⟩
    have hdisp := hsound.dispatchers i k bus _ hd
    obtain ⟨r, e, hknown, hsuits, hdiary⟩ := hdisp.noted
    obtain ⟨y, hy, -, hlent⟩ := hdisp.lent d rfl
    obtain rfl : x = y := Option.some.inj (hs.symm.trans (hdisp.session ▸ hy))
    obtain ⟨hq, rfl⟩ := hlent held hm htag
    have hbody : held.copy.body = c.body := congrArg (·.body) horiginal
    have hkey : held.copy.routingKey = c.routingKey := congrArg (·.routingKey) horiginal
    have htype : held.copy.typeTag = c.typeTag := congrArg (·.typeTag) horiginal
    refine ⟨i, k, bus, st, r, e, held.copy, held.tag, horiginal, hd, ?_, hknown, ?_, ?_, hdiary⟩
    · rw [← hdisp.queue, ← hq, hqueue]
    · rw [← hkey, ← htype]
      exact hsuits.kind
    · rw [← hbody]
      exact hsuits.decodes

theorem kept_or_handled (before after : List (Act H)) {queue : String}
    (fair : ∀ a ∈ before ++ after, a.isFair queue) {c : Copy}
    (hc : c.original ∈ (run {} before).broker.custody queue ∨ Handled before queue c) :
    c.original ∈ (run {} (before ++ after)).broker.custody queue ∨
      Handled (before ++ after) queue c := by
  -- Being handled refers to a beginning of the run, which stays one when acts follow.
  induction after generalizing before with
  | nil => simpa using hc
  | cons a after ih =>
    have happend : before ++ a :: after = before ++ [a] ++ after := by simp
    rw [happend] at fair ⊢
    refine ih (before ++ [a]) fair ?_
    have hlast : run {} (before ++ [a]) = (run {} before).perform a := run_append ..
    rcases hc with hc | hc
    · have hstep := custody_perform before (fun x hx => fair x (by simp [hx]))
        (fair a (by simp)) hc
      rw [hlast]
      exact hstep.imp_right fun h => ⟨before, List.prefix_append .., h⟩
    · exact .inr (hc.mono (List.prefix_append ..))

/-- At least once. In a run in which the queue is not deleted and only dispatchers resolve
deliveries, whatever handlers, callers and the broker do, a copy that was routed to the
queue at some moment waits in it or is held by an open session, once, or a handler for its
kind has returned on the event its body decodes to. -/
theorem delivered_at_least_once (before after : List (Act H)) (queue : String)
    (fair : ∀ a ∈ before ++ after, a.isFair queue) (c : Copy)
    (routed : c ∈ (run {} before).broker.ready queue) :
    let s := run {} (before ++ after)
    (c.original ∈ s.broker.custody queue ∨ Handled (before ++ after) queue c) ∧
    ((s.broker.custody queue).map (·.arrival)).Nodup ∧
    ∀ x ∈ s.broker.sessions, x.isOpen = false → x.unacked = [] := by
  intro s
  refine ⟨kept_or_handled before after fair (.inl ?_), ?_, ?_⟩
  · exact List.mem_map_of_mem (List.mem_append_left _ routed)
  · obtain ⟨actions, hrun, hkept⟩ := run_asked (before ++ after) fair {}
    have hs : s.broker = Broker.run {} actions := hrun
    rw [hs]
    exact Broker.custody_nodup queue actions hkept
  · intro x hx
    exact ((sound_run (before ++ after)).broker.sessions x hx).closed

/-- A booking that was handled and acknowledged before its bus closed. -/
theorem delivered_at_least_once_acknowledged :
    let before : List (Act Unit) := [.build { service := "s" } .receiver [],
      .subscribe 0 .newCargoBooked (),
      .beside (.operate (.inject defaultExchange "NewCargoBooked" none []))]
    let after : List (Act Unit) := [.start 0, .pull 0 0, .complete 0 0 (.ok ()), .acknowledge 0 0,
      .beginClose 0]
    let c : Copy := { arrival := 0, routingKey := "NewCargoBooked", typeTag := none, body := [] }
    (∀ a ∈ before ++ after, a.isFair "s.queue") ∧ c ∈ (run {} before).broker.ready "s.queue" ∧
    (run {} (before ++ after)).broker.custody "s.queue" = [] ∧
    Handled (before ++ after) "s.queue" c := by
  intro before after c
  have fair : ∀ a ∈ before ++ after, a.isFair "s.queue" := by decide
  have routed : c ∈ (run {} before).broker.ready "s.queue" := by decide +kernel
  have gone : (run {} (before ++ after)).broker.custody "s.queue" = [] := by decide +kernel
  refine ⟨fair, routed, gone, ?_⟩
  refine (delivered_at_least_once before after "s.queue" fair c routed).1.resolve_left ?_
  simp [gone]

end Network
end CargoEvents
