import CargoEvents.Proofs.Broker.Shutting
import CargoEvents.Proofs.Broker.Standing

/-! # What a closing session gives back

A session that closes goes through its deliveries from the last tag to the first and puts each
back to the head of its queue, so they end up in the order of their tags. Tags are distinct: it
makes no difference in which order the deliveries were listed before they are sorted.
-/
namespace CargoEvents.Broker

/-- Puts back what is listed, the last tag first. -/
def giveBackSorted (b : Broker) (listed : List Held) : Broker :=
  (listed.mergeSort fun x y => y.tag ≤ x.tag).foldl giveBack b

variable {b : Broker} {s : Nat} {x : Session} {listed : List Held}

/-- However the deliveries of a session are listed, sorting them gives the one list from the last
tag to the first. -/
theorem Session.Sound.sorted_listing (h : x.Sound) (hp : listed.Perm x.unacked) :
    (listed.mergeSort fun x y => y.tag ≤ x.tag) = x.unacked.reverse := by
  have hsorted : (listed.mergeSort fun x y => y.tag ≤ x.tag).Pairwise fun x y =>
      decide (y.tag ≤ x.tag) :=
    listed.pairwise_mergeSort
      (fun u v w huv hvw => by simp only [decide_eq_true_eq] at *; omega)
      (fun u v => by simp only [Bool.or_eq_true, decide_eq_true_eq]; omega)
  refine List.Perm.eq_of_pairwise (fun u v hu hv huv hvu => ?_) hsorted ?_ ?_
  · -- Deliveries of a session with the same tag are the same.
    have hnodup : (x.unacked.map (·.tag)).Nodup := h.ordered.imp fun hlt => Nat.ne_of_lt hlt
    have hu : u ∈ x.unacked := hp.mem_iff.mp (List.mem_mergeSort.mp hu)
    refine List.inj_on_of_nodup_map hnodup hu (List.mem_reverse.mp hv) ?_
    simp only [decide_eq_true_eq] at huv hvu
    exact Nat.le_antisymm hvu huv
  · refine List.pairwise_reverse.mpr ((List.pairwise_map.mp h.ordered).imp fun hlt => ?_)
    exact decide_eq_true (Nat.le_of_lt hlt)
  · exact ((listed.mergeSort_perm _).trans hp).trans x.unacked.reverse_perm.symm

theorem Session.Sound.giveBackSorted_eq (h : x.Sound) (hp : listed.Perm x.unacked) (b : Broker) :
    b.giveBackSorted listed = b.giveBackAll x.unacked := by
  rw [giveBackSorted, h.sorted_listing hp, List.foldl_reverse, giveBackAll]

theorem closeSession_eq (hs : b.sessions[s]? = some x) (ho : x.isOpen) :
    b.closeSession s = signal ((b.onSession s Session.shut).giveBackAll x.unacked) := by
  simp only [closeSession, hs, ho, if_true]
  rfl

theorem giveBackAll_others (b : Broker) (helds : List Held) :
    { b.giveBackAll helds with queues := b.queues } = b := by
  rw [giveBackAll_eq]

theorem modify_shut (hs : b.sessions[s]? = some x) :
    b.sessions.modify s Session.shut = b.sessions.set s x.shut := by
  obtain ⟨hlt, rfl⟩ := List.getElem?_eq_some_iff.mp hs
  refine List.ext_getElem? fun t => ?_
  rw [List.getElem?_modify, List.getElem?_set]
  by_cases hts : s = t
  · subst hts
    simp [hlt]
  · simp [hts]

theorem Shut.closeSession (h : b.Shut s) : b.closeSession s = b := by
  obtain ⟨x, hs, hclosed, -⟩ := h
  simp [Broker.closeSession, hs, hclosed]

/-- After any run, an open session that closes. In every queue there is, the deliveries of the
session that came from it, in the order of their tags and marked as redelivered, stand in front of
what waited. The session is closed and holds nothing, and but for this, the queues' contents and
the signal to consumers, nothing has changed. Whatever the order in which the deliveries are gone
through before they are sorted, the outcome is the same, and so it is if the session is closed once
more. -/
theorem closing_returns_in_order (actions : List Action) {s : Nat} {x : Session}
    (hs : (run {} actions).sessions[s]? = some x) (ho : x.isOpen) :
    let b := run {} actions
    let c := b.closeSession s
    (∀ queue, b.queues.contains queue →
      let returned := x.unacked.filter (·.queue == queue)
      (returned.map (·.tag)).Pairwise (· < ·) ∧
        c.ready queue = returned.map (·.copy.marked) ++ b.ready queue) ∧
    (∀ queue, c.queue? queue = b.queue? queue) ∧
    c.sessions = b.sessions.set s { x with isOpen := false, unacked := [] } ∧
    { c with queues := b.queues, sessions := b.sessions, signals := b.signals } = b ∧
    (∀ listed, listed.Perm x.unacked →
      signal ((b.onSession s Session.shut).giveBackSorted listed) = c) ∧
    c.closeSession s = c := by
  intro b c
  have hb : b.Sound := sound_empty.run actions
  have hx : x.Sound := hb.session hs
  have hc : c = signal ((b.onSession s Session.shut).giveBackAll x.unacked) := closeSession_eq hs ho
  refine ⟨fun queue hq => ⟨?_, ?_⟩, fun queue => ?_, ?_, ?_, fun listed hp => ?_, ?_⟩
  · exact hx.ordered.sublist (List.filter_sublist.map _)
  · have hready := hb.ready_closeSession s hq
    rwa [putBack, hs] at hready
  · rw [hc]
    exact queue?_giveBackAll ..
  · rw [hc]
    exact (giveBackAll_sessions ..).trans (modify_shut hs)
  · have hothers := giveBackAll_others (b.onSession s Session.shut) x.unacked
    rw [hc]
    exact congrArg (fun d => { d with sessions := b.sessions, signals := b.signals }) hothers
  · rw [hc, hx.giveBackSorted_eq hp]
  · exact (hb.shut_closeSession hs).closeSession

/-- Four deliveries, two from each of two queues, one of them accepted, and a message that arrives
later. -/
def heldFromTwo : List Action :=
  [.openSession, .declareExchange 0 { name := "x" }, .declareQueue 0 { name := "p" },
    .declareQueue 0 { name := "q" }, .bindQueue 0 "p" "x" "k", .bindQueue 0 "q" "x" "k",
    .operate (.inject "x" "k" none [1]), .operate (.inject "x" "k" none [2]),
    .poll { session := 0, queue := "q", epoch := 0 },
    .poll { session := 0, queue := "p", epoch := 0 },
    .poll { session := 0, queue := "q", epoch := 0 },
    .poll { session := 0, queue := "p", epoch := 0 }, .resolve 0 2 .ack,
    .operate (.inject "x" "k" none [3])]

/-- What was handed out from each queue stands in front of what arrived later. -/
theorem closing_returns_in_order_two :
    let b := run {} heldFromTwo
    ∃ x, b.sessions[0]? = some x ∧ x.isOpen ∧ x.unacked.map (·.tag) = [1, 3, 4] ∧
      ((b.closeSession 0).ready "q").map (·.arrival) = [0, 1, 2] ∧
      ((b.closeSession 0).ready "p").map (·.arrival) = [1, 2] ∧
      signal ((b.onSession 0 Session.shut).giveBackSorted x.unacked.reverse) =
        b.closeSession 0 := by
  intro b
  obtain ⟨x, hx⟩ : ∃ x, b.sessions[0]? = some x := ⟨_, rfl⟩
  have ho : x.isOpen := by
    cases hx
    rfl
  have htags : x.unacked.map (·.tag) = [1, 3, 4] := by
    cases hx
    rfl
  obtain ⟨hready, -, -, -, hlisted, -⟩ := closing_returns_in_order heldFromTwo hx ho
  refine ⟨x, hx, ho, htags, ?_, ?_, hlisted _ x.unacked.reverse_perm⟩
  · rw [(hready "q" (by decide)).2]
    cases hx
    decide +kernel
  · rw [(hready "p" (by decide)).2]
    cases hx
    decide +kernel

end CargoEvents.Broker
