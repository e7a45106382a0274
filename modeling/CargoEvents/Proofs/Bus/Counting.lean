import CargoEvents.Proofs.Bus.Handovers
import Mathlib.Data.List.Induction

/-! # What counts as acknowledged

A dispatcher counts a delivery as acknowledged once its call has come back, whatever the broker
says. So calls are counted, those that were refused as well (`Tallied`). What was accepted is gone
from its queue for good; what was refused stays as it was, and goes back when the session closes.
-/
namespace CargoEvents
variable {H : Type}

namespace Entry

/-- Whether bus `i` counts a delivery as acknowledged. -/
def countsAck (i : Nat) : Entry H → Bool
  | .observed j (.delivery _ .ack) => j == i
  | _ => false

/-- The tag of a delivery that bus `i` acknowledged, with success or without. -/
def ack? (i : Nat) (accepted : Bool) : Entry H → Option Nat
  | .called j (.ack tag) refusal =>
    if j = i ∧ refusal.isNone = accepted then some tag else none
  | _ => none

end Entry

namespace Network
variable {s t : Network H} {i k : Nat} {bus : Bus H} {es : List (Entry H)}
open Broker (Polled Resolution Stream)

def ackCount (s : Network H) (i : Nat) : Nat := s.history.countP (Entry.countsAck i)

/-- The tags of the deliveries that bus `i` acknowledged, with success or without. -/
def acks (s : Network H) (i : Nat) (accepted : Bool) : List Nat := s.told (Entry.ack? i accepted)

theorem isPassage_of_countsAck {e : Entry H} (h : e.countsAck i) : e.isPassage := by
  unfold Entry.countsAck at h
  split at h
  · rfl
  · cases h

theorem ackCount_append (hp : t.passages = s.passages ++ es) (i : Nat) :
    t.ackCount i = s.ackCount i + es.countP (Entry.countsAck i) := by
  have hpassages (s : Network H) : s.ackCount i = s.passages.countP (Entry.countsAck i) := by
    rw [passages, List.countP_filter, ackCount, ← List.countP_reverse]
    refine List.countP_congr fun e _ => ?_
    rw [Bool.and_eq_true, iff_self_and]
    exact isPassage_of_countsAck
  rw [hpassages, hpassages, hp, List.countP_append]

theorem ack?_of_not_isPassage {e : Entry H} (h : ¬e.isPassage) (i : Nat) (accepted : Bool) :
    e.ack? i accepted = none := by
  unfold Entry.ack?
  split
  · exact absurd rfl h
  · rfl

theorem acks_append (hp : t.passages = s.passages ++ es) (i : Nat) (accepted : Bool) :
    t.acks i accepted = s.acks i accepted ++ es.filterMap (Entry.ack? i accepted) := by
  have hpassages (s : Network H) :
      s.acks i accepted = s.passages.filterMap (Entry.ack? i accepted) := by
    rw [passages, List.filterMap_filter]
    refine List.filterMap_congr fun e _ => ?_
    split
    · rfl
    · rename_i he
      exact ack?_of_not_isPassage he i accepted
  rw [hpassages, hpassages, hp, List.filterMap_append]

theorem received_ack?_none (registry : Registry H) (j l : Nat) (polled : Polled) {e : Entry H}
    (he : e ∈ (received registry j l polled).2) :
    e.countsAck i = false ∧ ∀ accepted, e.ack? i accepted = none := by
  cases polled with
  | pending | ended | fault => cases he
  | delivery d =>
    rcases List.mem_cons.mp he with rfl | he
    · exact ⟨rfl, fun _ => rfl⟩
    · generalize (registry.accept d).1 = p at he
      cases p with
      | handling =>
        obtain rfl := List.mem_singleton.mp he
        exact ⟨rfl, fun _ => rfl⟩
      | pulling | acknowledging | pausing | ended => cases he

/-- What an act has to do with the deliveries that bus `i` acknowledges. -/
inductive Acknowledges (s : Network H) (a : Act H) (t : Network H) (i : Nat) : Prop
  | nothing {es : List (Entry H)} (hp : t.passages = s.passages ++ es)
      (hes : ∀ e ∈ es, e.countsAck i = false ∧ ∀ accepted, e.ack? i accepted = none)
  | one {k : Nat} {bus : Bus H} {st : Stream} {d : Broker.Delivery} {refusal : Option BrokerError}
      (ha : a = .acknowledge i k)
      (hd : s.dispatcher? i k = some (bus, { stream := st, position := .acknowledging d }))
      (hanswered : Answered bus (.ack d.tag) s.broker (·.resolve bus.session d.tag .ack) refusal
        t.broker)
      (hp : t.passages = s.passages ++
        [.called i (.ack d.tag) refusal, .observed i (.delivery d.kind .ack)])

theorem perform_acknowledges (s : Network H) (a : Act H) (i : Nat) :
    Acknowledges s a (s.perform a) i := by
  have hsame {t : Network H} (hp : t.passages = s.passages) : Acknowledges s a t i :=
    .nothing (hp.trans (List.append_nil _).symm) (by simp)
  by_cases hbeside : ∃ x, a = .beside x
  · obtain ⟨x, rfl⟩ := hbeside
    exact hsame rfl
  have ha : a.isShared "" := by
    cases a with
    | beside x => exact absurd ⟨x, rfl⟩ hbeside
    | _ => rfl
  cases s.perform_handover ha with
  | calm h => exact hsame h.passages
  | @looked j l bus _ _ polled _ _ _ hp =>
    exact .nothing hp fun e he => received_ack?_none bus.registry j l polled he
  | closed _ _ _ hp => exact .nothing hp (by simp [Entry.countsAck, Entry.ack?])
  | @resolved j l bus st p d how os refusal hd hr hanswered hp =>
    cases hr with
    | givesBack =>
      exact .nothing hp (by simp [SessionCall.ofResolution, Entry.countsAck, Entry.ack?])
    | acknowledges =>
      by_cases hji : j = i
      · subst hji
        exact .one rfl hd hanswered hp
      · exact .nothing hp (by simp [SessionCall.ofResolution, Entry.countsAck, Entry.ack?, hji])

/-! ## What was accepted -/

/-- The delivery that bus `i` got under the tag was taken from its queue for good. -/
def Removed (s : Network H) (i tag : Nat) : Prop :=
  ∃ bus k d, s.buses[i]? = some bus ∧ .pulled i k d ∈ s.history ∧ d.tag = tag ∧
    s.broker.Gone bus.config.topology.queue.name d.arrival ∧
    ∀ later, ¬(s.broker.run later).Holds bus.session tag

theorem history_perform (s : Network H) (a : Act H) {e : Entry H} (he : e.isPassage)
    (h : e ∈ s.history) : e ∈ (s.perform a).history := by
  have hpassages (t : Network H) : e ∈ t.passages ↔ e ∈ t.history := by simp [passages, he]
  rw [← hpassages] at h ⊢
  cases s.perform_acknowledges a 0 with
  | nothing hp => exact hp ▸ List.mem_append_left _ h
  | one _ _ _ hp => exact hp ▸ List.mem_append_left _ h

theorem Removed.perform {tag : Nat} (h : s.Removed i tag) (hs : s.broker.Sound) (a : Act H) :
    (s.perform a).Removed i tag := by
  obtain ⟨bus, k, d, hb, hpulled, htag, hgone, hholds⟩ := h
  obtain ⟨bus', hb', helder⟩ := s.elder_perform a hb
  obtain ⟨actions, hbroker⟩ := s.perform_broker a
  refine ⟨bus', k, d, hb', s.history_perform a rfl hpulled, htag, ?_, fun later => ?_⟩
  · rw [hbroker, helder.config]
    exact hgone.run hs actions
  · rw [hbroker, helder.session, ← Broker.run_append]
    exact hholds (actions ++ later)

theorem Reached.holdsCopy (hr : Reached s) {e : Dispatcher H} {d : Broker.Delivery}
    (hd : s.dispatcher? i k = some (bus, e)) (hp : e.position.delivery? = some d)
    (hholds : s.broker.Holds bus.session d.tag) :
    s.broker.HoldsCopy bus.session d.tag bus.config.topology.queue.name d.arrival := by
  obtain ⟨x, hx, held, hm, htag⟩ := hholds
  have hdisp := hr.sound.dispatchers i k bus e hd
  obtain ⟨y, hy, -, hlent⟩ := hdisp.lent d hp
  rw [hdisp.session, hx] at hy
  obtain rfl := Option.some.inj hy
  obtain ⟨hqueue, hcopy⟩ := hlent held hm htag
  refine ⟨held, Broker.heldBy_eq hx ▸ hm, htag, hqueue.trans hdisp.queue, ?_⟩
  rw [← hcopy]
  rfl

theorem Reached.pulled (hr : Reached s) {st : Stream} {d : Broker.Delivery}
    (hd : s.dispatcher? i k = some (bus, { stream := st, position := .acknowledging d })) :
    .pulled i k d ∈ s.history := by
  obtain ⟨r, e, -, -, hlast⟩ := (hr.sound.dispatchers i k bus _ hd).noted
  obtain ⟨x, hx, hby⟩ := mem_told.mp (hlast.subset List.mem_cons_self)
  exact eq_of_by hby ▸ hx

theorem holds_of_resolve {b b' : Broker} {session tag : Nat} {how : Resolution}
    (h : b.resolve session tag how = .ok b') : b.Holds session tag := by
  obtain ⟨x, held, hs, -, hfind, -⟩ := Broker.resolve_eq_ok h
  exact ⟨x, hs, held, List.mem_of_find?_eq_some hfind, by simpa using List.find?_some hfind⟩

theorem Reached.removed (hr : Reached s) (hdistinct : ∀ queue, s.broker.Distinct queue)
    {st : Stream} {d : Broker.Delivery}
    (hd : s.dispatcher? i k = some (bus, { stream := st, position := .acknowledging d })) {a : Act H}
    (hok : s.broker.resolve bus.session d.tag .ack = .ok (s.perform a).broker) :
    (s.perform a).Removed i d.tag := by
  obtain ⟨bus', hb', helder⟩ := s.elder_perform a (dispatcher?_bus hd)
  have hheld := hr.holdsCopy hd rfl (holds_of_resolve hok)
  have hdistinct := hdistinct bus.config.topology.queue.name
  obtain ⟨copy, hc, harrival⟩ := hheld.answers
  obtain ⟨actions, hbroker⟩ := s.perform_broker a
  refine ⟨bus', k, d, hb', s.history_perform a rfl (hr.pulled hd), rfl, ?_, fun later => ?_⟩
  · rw [helder.config]
    refine ⟨?_, fun hn => ((hdistinct.accepted hok).mp hn).2 hheld⟩
    rw [hbroker, ← harrival]
    exact Nat.lt_of_lt_of_le (hdistinct.arrived copy hc) (s.broker.run_arrivals actions)
  · rw [helder.session]
    exact hr.sound.broker.not_holds_of_resolve hok later

/-! ## The count -/

/-- The bus counts the calls; those that were accepted are different deliveries that are gone. -/
structure Tallied (s : Network H) (i : Nat) : Prop where
  counted : s.ackCount i = (s.acks i true).length + (s.acks i false).length
  nodup : (s.acks i true).Nodup
  removed : ∀ tag ∈ s.acks i true, s.Removed i tag

theorem tallied_empty (i : Nat) : Tallied ({} : Network H) i :=
  ⟨rfl, List.nodup_nil, nofun⟩

theorem acks_of_nothing (hp : t.passages = s.passages ++ es)
    (hes : ∀ e ∈ es, e.countsAck i = false ∧ ∀ accepted, e.ack? i accepted = none) :
    t.ackCount i = s.ackCount i ∧ ∀ accepted, t.acks i accepted = s.acks i accepted := by
  have hcount : es.countP (Entry.countsAck i) = 0 :=
    List.countP_eq_zero.mpr fun e he => Bool.not_eq_true _ ▸ (hes e he).1
  refine ⟨by rw [ackCount_append hp, hcount, Nat.add_zero], fun accepted => ?_⟩
  have hnone : es.filterMap (Entry.ack? i accepted) = [] :=
    List.filterMap_eq_nil_iff.mpr fun e he => (hes e he).2 accepted
  rw [acks_append hp, hnone, List.append_nil]

theorem acks_of_one {d : Broker.Delivery} {refusal : Option BrokerError}
    (hp : t.passages = s.passages ++
      [.called i (.ack d.tag) refusal, .observed i (.delivery d.kind .ack)]) :
    t.ackCount i = s.ackCount i + 1 ∧ ∀ accepted, t.acks i accepted =
      s.acks i accepted ++ if refusal.isNone = accepted then [d.tag] else [] := by
  refine ⟨?_, fun accepted => ?_⟩
  · rw [ackCount_append hp]
    simp [Entry.countsAck]
  · rw [acks_append hp]
    by_cases hr : refusal.isNone = accepted <;> simp [Entry.ack?, hr]

theorem Tallied.perform (h : Tallied s i) (hr : Reached s)
    (hdistinct : ∀ queue, s.broker.Distinct queue) (a : Act H) : Tallied (s.perform a) i := by
  have hremoved (tag : Nat) (htag : tag ∈ s.acks i true) : (s.perform a).Removed i tag :=
    (h.removed tag htag).perform hr.sound.broker a
  cases s.perform_acknowledges a i with
  | nothing hp hes =>
    obtain ⟨hcount, hacks⟩ := acks_of_nothing hp hes
    refine ⟨?_, hacks true ▸ h.nodup, hacks true ▸ hremoved⟩
    rw [hcount, hacks, hacks]
    exact h.counted
  | @one k bus st d refusal ha hd hanswered hp =>
    obtain ⟨hcount, hacks⟩ := acks_of_one hp
    have hcounted := h.counted
    rcases hanswered with ⟨rfl, hok⟩ | ⟨hrefused, -⟩
    · have hnew : d.tag ∉ s.acks i true := by
        intro hmem
        obtain ⟨bus', -, -, hb', -, -, -, hholds⟩ := h.removed d.tag hmem
        obtain rfl : bus = bus' := Option.some.inj ((dispatcher?_bus hd).symm.trans hb')
        exact hholds [] (holds_of_resolve hok)
      have haccepted : (s.perform a).acks i true = s.acks i true ++ [d.tag] := hacks true
      have hsame : (s.perform a).acks i false = s.acks i false ++ [] := hacks false
      refine ⟨?_, ?_, ?_⟩
      · rw [hcount, haccepted, hsame, List.length_append, List.append_nil, List.length_singleton]
        omega
      · rw [haccepted, ← List.concat_eq_append]
        exact h.nodup.concat hnew
      · rw [haccepted]
        exact List.forall_mem_append.mpr ⟨hremoved,
          List.forall_mem_singleton.mpr (hr.removed hdistinct hd hok)⟩
    · have hsome : refusal.isNone = false := by
        cases refusal with
        | none => exact absurd rfl hrefused
        | some e => rfl
      have haccepted : (s.perform a).acks i true = s.acks i true := by simp [hacks, hsome]
      have hmore : (s.perform a).acks i false = s.acks i false ++ [d.tag] := by simp [hacks, hsome]
      refine ⟨?_, haccepted ▸ h.nodup, haccepted ▸ hremoved⟩
      rw [hcount, haccepted, hmore, List.length_append, List.length_singleton]
      omega

theorem distinct_run (acts : List (Act H)) (queue : String) :
    (run {} acts).broker.Distinct queue := by
  obtain ⟨actions, hbroker⟩ := ({} : Network H).run_broker acts
  rw [hbroker]
  exact (Broker.distinct_empty queue).run actions

theorem tallied_run (acts : List (Act H)) (i : Nat) : Tallied (run {} acts) i := by
  induction acts using List.reverseRecOn with
  | nil => exact tallied_empty i
  | append_singleton acts a ih =>
    rw [run_append]
    exact ih.perform (reached_empty.run acts) (distinct_run acts) a

/-! ## When nothing is refused -/

/-- If the act acknowledges a delivery of bus `i`, the session is open and lets that through. -/
def Act.isHeard (i : Nat) (s : Network H) : Act H → Bool
  | .acknowledge j _ => j != i || s.buses[i]?.all fun bus =>
    s.broker.isOpen bus.session && bus.faults.all (·.1 != "ack")
  | _ => true

theorem accepted_of_heard {d : Broker.Delivery} {refusal : Option BrokerError} {b' : Broker}
    (hholds : s.broker.HoldsOpen bus.session d.tag) (hopen : s.broker.isOpen bus.session)
    (hfaults : ∀ f ∈ bus.faults, f.1 ≠ "ack")
    (hanswered : Answered bus (.ack d.tag) s.broker (·.resolve bus.session d.tag .ack) refusal b') :
    refusal = none := by
  refine hanswered.elim And.left fun ⟨_, _, hrefused⟩ => ?_
  obtain ⟨b', hok⟩ := hholds.resolve hopen .ack
  exact absurd hok (hrefused (takeFault_none hfaults) b')

theorem acks_refused_eq_nil (acts : List (Act H))
    (spared : ∀ bus, (run {} acts).buses[i]? = some bus → ∀ a ∈ acts, a.Spares bus.session)
    (heard : throughout (Act.isHeard i) {} acts) : (run {} acts).acks i false = [] := by
  induction acts using List.reverseRecOn with
  | nil => rfl
  | append_singleton acts a ih =>
    have hlast : run {} (acts ++ [a]) = (run {} acts).perform a := run_append ..
    rw [hlast] at spared ⊢
    rw [throughout_append, Bool.and_eq_true] at heard
    obtain ⟨hbefore, hnow⟩ := heard
    have hspared (bus : Bus H) (hb : (run {} acts).buses[i]? = some bus) (x : Act H)
        (hx : x ∈ acts) : x.Spares bus.session := by
      obtain ⟨bus', hb', helder⟩ := (run {} acts).elder_perform a hb
      exact helder.session ▸ spared bus' hb' x (List.mem_append_left _ hx)
    have hnone := ih hspared hbefore
    cases (run {} acts).perform_acknowledges a i with
    | nothing hp hes => rw [(acks_of_nothing hp hes).2, hnone]
    | @one k bus st d refusal ha hd hanswered hp =>
      have hb := dispatcher?_bus hd
      obtain ⟨hopen, hfaults⟩ : (run {} acts).broker.isOpen bus.session = true ∧
          ∀ f ∈ bus.faults, f.1 ≠ "ack" := by
        simpa [throughout, Act.isHeard, ha, hb] using hnow
      have hholds := holdsInHand_run acts hb (hspared bus hb) bus k _ d hb
        (position?_of_dispatcher hd) rfl
      obtain rfl := accepted_of_heard hholds hopen hfaults hanswered
      rw [(acks_of_one hp).2, hnone]
      rfl

/-- What is counted as acknowledged. In every run a bus has counted as many deliveries as it has
called to acknowledge: those that the broker accepted, and those that it refused. The former are
different deliveries that the bus pulled, and their copies are gone from the queue, whatever happens
later. The latter are counted though the broker stays as it was. So the count is that of accepted
deliveries as long as none is refused, and none is while the session is open and lets
acknowledgements through whenever the bus calls for one, and nobody resolves deliveries of the
session past the bus. -/
theorem acknowledgements_counted (acts : List (Act H)) (i : Nat) :
    let s := run {} acts
    s.ackCount i = (s.acks i true).length + (s.acks i false).length ∧
    (s.acks i true).Nodup ∧
    (∀ tag ∈ s.acks i true, ∃ bus k d, s.buses[i]? = some bus ∧ .pulled i k d ∈ s.history ∧
      d.tag = tag ∧ d.arrival < s.broker.arrivals ∧
      ∀ later, ¬(s.run later).broker.Answers bus.config.topology.queue.name d.arrival) ∧
    (∀ a, (s.perform a).acks i false ≠ s.acks i false →
      (s.perform a).ackCount i = s.ackCount i + 1 ∧ (s.perform a).broker = s.broker) ∧
    ((∀ bus, s.buses[i]? = some bus → ∀ a ∈ acts, a.Spares bus.session) →
      throughout (Act.isHeard i) {} acts → s.ackCount i = (s.acks i true).length) := by
  intro s
  have htallied : Tallied s i := tallied_run acts i
  refine ⟨htallied.counted, htallied.nodup, fun tag htag => ?_, fun a hrefused => ?_,
    fun spared heard => ?_⟩
  · obtain ⟨bus, k, d, hb, hpulled, hd, hgone, -⟩ := htallied.removed tag htag
    refine ⟨bus, k, d, hb, hpulled, hd, hgone.1, fun later => ?_⟩
    obtain ⟨actions, hbroker⟩ := s.run_broker later
    rw [hbroker]
    exact (hgone.run (reached_empty.run acts).sound.broker actions).2
  · cases s.perform_acknowledges a i with
    | nothing hp hes => exact absurd ((acks_of_nothing hp hes).2 false) hrefused
    | one ha hd hanswered hp =>
      obtain ⟨hcount, hacks⟩ := acks_of_one hp
      rcases hanswered with ⟨rfl, -⟩ | ⟨-, hb, -⟩
      · exact absurd ((hacks false).trans (List.append_nil _)) hrefused
      · exact ⟨hcount, hb⟩
  · rw [htallied.counted, acks_refused_eq_nil acts spared heard]
    rfl

/-- A handler fails once before it succeeds. -/
theorem acknowledgements_counted_retried :
    let acts : List (Act Unit) := [.build { service := "s" } .receiver [],
      .subscribe 0 .newCargoBooked (), .start 0, .publish 0 (.newCargoBooked {}), .pull 0 0,
      .complete 0 0 (.error (.other "busy")), .resume 0 0, .pull 0 0, .complete 0 0 (.ok ()),
      .acknowledge 0 0, .beginClose 0, .pull 0 0, .finishClose 0]
    let s := run {} acts
    (∀ bus, s.buses[0]? = some bus → ∀ a ∈ acts, a.Spares bus.session) ∧
    throughout (Act.isHeard 0) {} acts ∧ s.acks 0 true = [2] ∧
    s.ackCount 0 = (s.acks 0 true).length ∧
    ∃ bus k d, s.buses[0]? = some bus ∧ .pulled 0 k d ∈ s.history ∧ d.tag = 2 ∧
      ∀ later, ¬(s.run later).broker.Answers bus.config.topology.queue.name d.arrival := by
  intro acts s
  have spared (bus : Bus Unit) (_ : s.buses[0]? = some bus) : ∀ a ∈ acts, a.Spares bus.session := by
    simp [acts, Act.Spares]
  have heard : throughout (Act.isHeard 0) {} acts := by decide +kernel
  have haccepted : s.acks 0 true = [2] := by decide +kernel
  obtain ⟨-, -, hgone, -, hcount⟩ := acknowledgements_counted acts 0
  obtain ⟨bus, k, d, hb, hpulled, htag, -, hlater⟩ :=
    hgone 2 (haccepted ▸ List.mem_singleton_self 2)
  exact ⟨spared, heard, haccepted, hcount spared heard, bus, k, d, hb, hpulled, htag, hlater⟩

/-- A bus closes while a handler runs. The session gives the delivery back, and the handler's
success is counted as acknowledged. -/
theorem acknowledgement_counted_though_given_back :
    let acts : List (Act Unit) := [.build { service := "s" } .receiver [],
      .subscribe 0 .newCargoBooked (), .start 0, .publish 0 (.newCargoBooked {}), .pull 0 0,
      .beginClose 0, .complete 0 0 (.ok ()), .acknowledge 0 0, .pull 0 0, .finishClose 0]
    let s := run {} acts
    s.position? 0 0 = some .ended ∧ s.ackCount 0 = 1 ∧ s.acks 0 true = [] ∧
    (s.broker.ready "s.queue").map (·.arrival) = [0] := by
  decide +kernel

end Network
end CargoEvents
