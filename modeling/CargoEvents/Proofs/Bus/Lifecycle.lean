import CargoEvents.Proofs.Bus.Floors

/-! # A bus whose callers come in between

Whatever callers ask of a bus at the same time, its state goes the one way round and then down:
idle and consuming until it drains, draining until it is closed. Callers that come too late
change nothing, and what was admitted before the bus closed gets nothing into the broker after.
-/
namespace CargoEvents
variable {H : Type}

namespace BusState.Passes
variable {x y : BusState}

theorem closed_of (h : Passes x y) (hx : x = .closed) : y = .closed := by
  subst hx
  cases h with
  | stays => rfl
  | drained h => cases h

theorem isTerminal_of (h : Passes x y) (hx : x.isTerminal) : y.isTerminal := by
  cases h with
  | stays => exact hx
  | started | ranOut => cases hx
  | drained | closed => rfl

end BusState.Passes

theorem Bus.Eased.closed_of {new : List (String × BrokerError)} {b b' : Bus H} (h : b.Eased new b')
    (hb' : b'.state = .closed) : b.state = .closed := by
  rcases h.state with hs | ⟨-, hs⟩
  · exact hs.symm.trans hb'
  · rw [hs] at hb'
    cases hb'

namespace Floor
open Network
open Broker (Polled Stream)
variable {f : Floor H} {c i : Nat} {bus : Bus H} {r : Request H} {p : Phase r}

/-! ## Steps of the state -/

theorem passes_of_goes {new : List (String × BrokerError)} {s t : Network H} (h : Goes new s t)
    (hb : s.buses[i]? = some bus) :
    ∃ bus', t.buses[i]? = some bus' ∧ bus.Elder bus' ∧ bus.state.Passes bus'.state := by
  obtain ⟨bus', hb', he⟩ := h.kept i bus hb
  exact ⟨bus', hb', he.elder, he.passes⟩

theorem Sound.passes (h : f.Sound) (x : Happening H) (hb : f.network.buses[i]? = some bus) :
    ∃ bus', (f.happen x).network.buses[i]? = some bus' ∧ bus.Elder bus' ∧
      bus.state.Passes bus'.state := by
  have hstill : ∃ bus', f.network.buses[i]? = some bus' ∧ bus.Elder bus' ∧
      bus.state.Passes bus'.state := ⟨bus, hb, .refl bus, .stays _⟩
  cases x with
  | call j r =>
    simp only [Floor.happen]
    split <;> exact hstill
  | leave d => exact hstill
  | yielded j k polled =>
    have hgoes : Goes [] f.network (f.network.receive j k polled) := receive_goes ..
    exact passes_of_goes hgoes hb
  | other a =>
    simp only [Floor.happen]
    split
    · exact hstill
    · rename_i ha
      exact passes_of_goes (perform_goes _ (Bool.eq_false_iff.mpr ha)) hb
  | proceed d =>
    simp only [Floor.happen]
    rcases h.proceed_cases d with heq | ⟨j, r, p, p', bus₁, t, -, hb₁, hfits, -, hstride, heq⟩
    · rw [heq]
      exact hstill
    · rw [heq]
      by_cases hij : i = j
      · subst hij
        obtain rfl : bus = bus₁ := Option.some.inj (hb.symm.trans hb₁)
        obtain ⟨b', hb', helder, hpasses, -⟩ := hstride.own hb hfits
        exact ⟨b', hb', helder, hpasses⟩
      · obtain ⟨b', hb', he⟩ := hstride.others hij hb
        exact ⟨b', hb', he.elder, he.passes⟩

theorem Sound.passes_run (h : f.Sound) (hs : List (Happening H)) {P : BusState → Prop}
    (hP : ∀ x y, x.Passes y → P x → P y) (hb : f.network.buses[i]? = some bus) (hbus : P bus.state) :
    ∃ bus', (f.run hs).network.buses[i]? = some bus' ∧ bus.Elder bus' ∧ P bus'.state := by
  induction hs generalizing f bus with
  | nil => exact ⟨bus, hb, .refl bus, hbus⟩
  | cons x hs ih =>
    obtain ⟨b₁, hb₁, helder₁, hpasses⟩ := h.passes x hb
    obtain ⟨b₂, hb₂, helder₂, hb₂P⟩ := ih (h.happen x) hb₁ (hP _ _ hpasses hbus)
    exact ⟨b₂, hb₂, helder₁.trans helder₂, hb₂P⟩

/-! ## What becomes of one caller -/

theorem caller_happen (hc : f.callers[c]? = some ⟨i, r, p⟩) (x : Happening H) :
    (f.happen x).callers[c]? = some ⟨i, r, p⟩ ∨
    (f.happen x).callers[c]? = some ⟨i, r, .gone⟩ ∨
    (f.happen x).callers[c]? = some ⟨i, r, .after (p.proceed i f.network).1⟩ := by
  obtain ⟨hlt, -⟩ := List.getElem?_eq_some_iff.mp hc
  cases x with
  | call j r' =>
    simp only [happen]
    split
    · exact .inl ((List.getElem?_append_left hlt).trans hc)
    · exact .inl hc
  | leave d =>
    simp only [happen, List.getElem?_modify, hc]
    by_cases hdc : d = c
    · simp [hdc]
    · simp [hdc]
  | yielded j k polled => exact .inl hc
  | other a =>
    simp only [happen]
    split <;> exact .inl hc
  | proceed d =>
    simp only [happen, proceed]
    by_cases hdc : d = c
    · subst hdc
      rw [hc]
      dsimp only
      split
      · exact .inl hc
      · exact .inr (.inr (List.getElem?_set_self hlt))
    · split
      · exact .inl hc
      · split
        · exact .inl hc
        · exact .inl ((List.getElem?_set_ne hdc).trans hc)

theorem returned_run {result : Except BusError Unit}
    (hc : f.callers[c]? = some ⟨i, r, .returned result⟩ ∨ f.callers[c]? = some ⟨i, r, .gone⟩)
    (hs : List (Happening H)) :
    (f.run hs).callers[c]? = some ⟨i, r, .returned result⟩ ∨
      (f.run hs).callers[c]? = some ⟨i, r, .gone⟩ := by
  induction hs generalizing f with
  | nil => exact hc
  | cons x hs ih =>
    refine ih ?_
    have hreturned : Phase.after ((.returned result : Phase r).proceed i f.network).1 =
        .returned result := by cases r <;> rfl
    have hgone : Phase.after ((.gone : Phase r).proceed i f.network).1 = .gone := by cases r <;> rfl
    rcases hc with hc | hc
    · rcases caller_happen hc x with h | h | h
      · exact .inl h
      · exact .inr h
      · exact .inl (hreturned ▸ h)
    · rcases caller_happen hc x with h | h | h
      · exact .inr h
      · exact .inr h
      · exact .inr (hgone ▸ h)

/-! ## Starts that fail -/

/-- But for the step with which a start succeeds, it calls the session at most. -/
theorem start_called (i : Nat) (p : Phase (.start : Request H)) (s : Network H) :
    (∃ st, p = .launching st) ∨ s.Called (p.proceed i s).2 := by
  cases p with
  | launching st => exact .inl ⟨st, rfl⟩
  | asking | returned | gone => exact .inr (.refl s)
  | starting =>
    right
    refine whileOpen_ind (.refl s) fun bus _ _ => ?_
    split <;> exact .refl s
  | consuming config =>
    right
    rw [Phase.proceed]
    have hcalled := (consume_called (H := H) i config.topology.queue.name config.effectiveTag).adapt
      BusError.transportError
    exact hcalled.bind Called.trans (fun _ s => Called.refl s) s

/-- No step of a start that fails changes more of a bus than its faults. -/
theorem failed_start {p : Phase (.start : Request H)} (hc : f.callers[c]? = some ⟨i, .start, p⟩)
    (more : List (Happening H)) {e : BusError}
    (hfails : ((f.proceed c).run more).callers[c]? = some ⟨i, .start, .returned (.error e)⟩)
    (j : Nat) : ∃ faults, (f.proceed c).network.buses[j]? =
      f.network.buses[j]?.map fun b => { b with faults } := by
  cases heq : p.needs && f.isLocked i with
  | true =>
    have hstill : f.proceed c = f := by simp only [Floor.proceed, hc, heq, if_true]
    obtain ⟨faults, hf, -⟩ := (Called.refl f.network).buses j
    rw [hstill]
    exact ⟨faults, hf⟩
  | false =>
    have hgoes := proceed_eq hc fun hp => by simpa [hp] using heq
    rcases start_called i p f.network with ⟨st, rfl⟩ | hcalled
    · -- It has succeeded, and nothing that comes later makes a failure of that.
      have hlt := (List.getElem?_eq_some_iff.mp hc).1
      have hreturned : (f.proceed c).callers[c]? = some ⟨i, .start, .returned (.ok ())⟩ := by
        rw [hgoes]
        exact List.getElem?_set_self hlt
      rcases returned_run (.inl hreturned) more with h | h
      · rw [h] at hfails
        cases hfails
      · rw [h] at hfails
        cases hfails
    · obtain ⟨faults, hf, -⟩ := hcalled.buses j
      rw [hgoes]
      exact ⟨faults, hf⟩

/-! ## Callers that come too late -/

end Floor

namespace Network
variable {s : Network H} {i : Nat} {bus : Bus H} {r : Request H} {p : Phase r}

/-- Where a caller gets that came too late. -/
inductive Phase.Futile : {r : Request H} → Phase r → Prop
  | asking {r : Request H} : Futile (.asking : Phase r)
  | starting : Futile .starting
  | refused {r : Request H} : Futile (.returned (.error .closed) : Phase r)
  | gone {r : Request H} : Futile (.gone : Phase r)

theorem whileOpen_terminal {α : Type} {act : Bus H → Call BusError (Network H) α}
    (hb : s.buses[i]? = some bus) (ht : bus.state.isTerminal) :
    whileOpen i act s = (.error .closed, s) := by
  simp only [whileOpen, hb, ht, if_true]

/-- Such a caller changes nothing and gets nowhere, and is refused with its second step. -/
theorem Phase.Futile.proceed (h : p.Futile) (hr : r ≠ .close) (hb : s.buses[i]? = some bus)
    (ht : bus.state.isTerminal) : (p.proceed i s).2 = s ∧ (Phase.after (p.proceed i s).1).Futile ∧
      (p = .gone ∨ Phase.after ((Phase.after (p.proceed i s).1).proceed i s).1 =
        .returned (.error .closed)) := by
  cases h with
  | asking =>
    cases r with
    | close => exact absurd rfl hr
    | publish | subscribe | restore =>
      simp only [Phase.proceed, whileOpen_terminal hb ht]
      exact ⟨trivial, .refused, .inr rfl⟩
    | start =>
      refine ⟨rfl, .starting, .inr ?_⟩
      change Phase.after (Phase.starting.proceed i s).1 = _
      simp only [Phase.proceed, whileOpen_terminal hb ht]
      rfl
  | starting =>
    simp only [Phase.proceed, whileOpen_terminal hb ht]
    exact ⟨trivial, .refused, .inr rfl⟩
  | refused => cases r <;> exact ⟨rfl, .refused, .inr rfl⟩
  | gone => cases r <;> exact ⟨rfl, .gone, .inl rfl⟩

/-- What is made without the lock is refused with its first step. -/
theorem Phase.Futile.refused_of_free (h : p.Futile) (hr : r.locks = false)
    (hb : s.buses[i]? = some bus) (ht : bus.state.isTerminal) :
    p = .gone ∨ Phase.after (p.proceed i s).1 = .returned (.error .closed) := by
  cases h with
  | asking =>
    cases r with
    | start | close => cases hr
    | publish | subscribe | restore =>
      simp only [Phase.proceed, whileOpen_terminal hb ht]
      exact .inr rfl
  | starting => cases hr
  | refused => cases r <;> exact .inr rfl
  | gone => exact .inl rfl

end Network

namespace Floor
open Network
open Broker (Polled Stream)
variable {f : Floor H} {c i : Nat} {bus : Bus H} {r : Request H} {p : Phase r}

theorem terminal_run (h : f.Sound) (hs : List (Happening H))
    (hb : f.network.buses[i]? = some bus) (ht : bus.state.isTerminal) :
    ∃ bus', (f.run hs).network.buses[i]? = some bus' ∧ bus'.state.isTerminal := by
  obtain ⟨bus', hb', -, ht'⟩ :=
    h.passes_run hs (P := (·.isTerminal)) (fun _ _ h => h.isTerminal_of) hb ht
  exact ⟨bus', hb', ht'⟩

theorem late_run (h : f.Sound) (hr : r ≠ .close) (hb : f.network.buses[i]? = some bus)
    (ht : bus.state.isTerminal) (hc : f.callers[c]? = some ⟨i, r, p⟩) (hp : p.Futile)
    (hs : List (Happening H)) :
    ∃ q : Phase r, (f.run hs).callers[c]? = some ⟨i, r, q⟩ ∧ q.Futile := by
  induction hs generalizing f bus p with
  | nil => exact ⟨p, hc, hp⟩
  | cons x hs ih =>
    obtain ⟨bus', hb', -, hpasses⟩ := h.passes x hb
    have ih {q : Phase r} := @ih (f.happen x) bus' q (h.happen x) hb' (hpasses.isTerminal_of ht)
    rcases caller_happen hc x with hc' | hc' | hc'
    · exact ih hc' hp
    · exact ih hc' .gone
    · exact ih hc' (hp.proceed hr hb ht).2.1

theorem late_proceed (hr : r ≠ .close) (hb : f.network.buses[i]? = some bus)
    (ht : bus.state.isTerminal) (hc : f.callers[c]? = some ⟨i, r, p⟩) (hp : p.Futile) :
    (f.proceed c).network = f.network := by
  cases heq : p.needs && f.isLocked i with
  | true => simp only [Floor.proceed, hc, heq, if_true]
  | false =>
    rw [proceed_eq hc fun hp => by simpa [hp] using heq]
    exact (hp.proceed hr hb ht).1

theorem Spared.proceed_eq (h : f.Spared c i) (hc : f.callers[c]? = some ⟨i, r, p⟩) :
    f.proceed c = ⟨(p.proceed i f.network).2,
      f.callers.set c ⟨i, r, .after (p.proceed i f.network).1⟩⟩ :=
  Floor.proceed_eq hc fun hp => h.isLocked hc (holds_of_needs hp)

/-- Whoever has the lock, what is made without it is refused at once. -/
theorem late_refused (hr : r.locks = false) (hb : f.network.buses[i]? = some bus)
    (ht : bus.state.isTerminal) (hc : f.callers[c]? = some ⟨i, r, p⟩) (hp : p.Futile) :
    p = .gone ∨ (f.proceed c).callers[c]? = some ⟨i, r, .returned (.error .closed)⟩ := by
  refine (hp.refused_of_free hr hb ht).imp_right fun hrefused => ?_
  obtain ⟨hneeds, -⟩ := Phase.free hr p
  obtain ⟨hlt, -⟩ := List.getElem?_eq_some_iff.mp hc
  rw [proceed_eq hc fun hp => by simp [hneeds] at hp, hrefused]
  exact List.getElem?_set_self hlt

/-- Unless another caller has the lock, it is refused. -/
theorem late_answer (hr : r ≠ .close) (hb : f.network.buses[i]? = some bus)
    (ht : bus.state.isTerminal) (hc : f.callers[c]? = some ⟨i, r, p⟩) (hp : p.Futile)
    (hspared : f.Spared c i) : p = .gone ∨
      ((f.proceed c).proceed c).callers[c]? = some ⟨i, r, .returned (.error .closed)⟩ := by
  obtain ⟨hstill, -, hgone | hsecond⟩ := hp.proceed hr hb ht
  · exact .inl hgone
  · right
    obtain ⟨hlt, -⟩ := List.getElem?_eq_some_iff.mp hc
    let q : Phase r := .after (p.proceed i f.network).1
    have hfirst : f.proceed c = ⟨f.network, f.callers.set c ⟨i, r, q⟩⟩ := by
      rw [hspared.proceed_eq hc, hstill]
    have hspared' : Spared ⟨f.network, f.callers.set c ⟨i, r, q⟩⟩ c i := fun d x hd hbus hdc =>
      hspared d x ((List.getElem?_set_ne (Ne.symm hdc)).symm.trans hd) hbus hdc
    rw [hfirst, hspared'.proceed_eq (List.getElem?_set_self hlt)]
    simp [hsecond, q, hlt]

end Floor

/-! ## A bus that was closed -/

namespace Network
variable {s t : Network H} {i : Nat} {bus : Bus H} {r : Request H} {p p' : Phase r}
  {new : List (String × BrokerError)}

def Happening.Spares (name : String) : Happening H → Prop
  | .other a => ∀ x ∈ a.faults, x.1 ≠ name
  | _ => True

/-- Calls of this name meet no fault. -/
def Unfaulted (s : Network H) (name : String) : Prop :=
  ∀ bus ∈ s.buses, ∀ x ∈ bus.faults, x.1 ≠ name

theorem Unfaulted.goes {name : String} (h : s.Unfaulted name) (hg : Goes new s t)
    (hnew : ∀ x ∈ new, x.1 ≠ name) : t.Unfaulted name := by
  intro b' hm x hx
  obtain ⟨i, hb'⟩ := List.mem_iff_getElem?.mp hm
  cases hb : s.buses[i]? with
  | none => exact hnew x ((hg.born i b' hb hb').2 x hx)
  | some b =>
    obtain ⟨b₁, hb₁, he⟩ := hg.kept i b hb
    obtain rfl : b₁ = b' := Option.some.inj (hb₁.symm.trans hb')
    exact (he.faults x hx).elim (h b (List.mem_of_getElem? hb) x) (hnew x)

theorem Unfaulted.stride {name : String} (h : s.Unfaulted name) (hs : Stride s i p p' t) :
    t.Unfaulted name := by
  have honBus {f : Bus H → Bus H} (hf : ∀ b, (f b).faults = b.faults) :
      (s.onBus i f).Unfaulted name := by
    intro b' hm x hx
    obtain ⟨j, hb'⟩ := List.mem_iff_getElem?.mp hm
    rw [onBus, List.getElem?_modify] at hb'
    obtain ⟨b, hb, rfl⟩ := Option.map_eq_some_iff.mp hb'
    refine h b (List.mem_of_getElem? hb) x ?_
    split at hx
    · exact hf b ▸ hx
    · exact hx
  cases hs with
  | meek hm => exact h.goes hm.goes (by simp)
  | shut => exact h.goes (s.shut_meek i).goes (by simp)
  | launched | drained | stopped | closed => exact honBus fun _ => rfl

theorem publishOver_shut (hb : s.buses[i]? = some bus) (hshut : s.broker.Shut bus.session)
    (e : Event) : (publishOver i e s).1.isOk = false ∧ (publishOver i e s).2.broker = s.broker := by
  obtain ⟨x, hx, hclosed, -⟩ := hshut
  have hopen : s.broker.isOpen bus.session = false := by simp [Broker.isOpen, hx, hclosed]
  have hrefused (exchange : String) (m : Message) :
      s.broker.publish bus.session exchange m = .error .sessionClosed := by
    simp [Broker.publish, hopen]
  simp only [publishOver, hb, SessionCalls.publishEvent, Call.adapt_apply, calls, onSession',
    onSession,
    hrefused]
  cases takeFault _ bus.faults <;> exact ⟨rfl, by simp [Except.map, Except.mapError, onBus]⟩

theorem Goes.closed_of (h : Goes new s t) {b' : Bus H} (hb' : t.buses[i]? = some b')
    (hclosed : b'.state = .closed) :
    ∃ b, s.buses[i]? = some b ∧ b.Elder b' ∧ b.state = .closed := by
  cases hb : s.buses[i]? with
  | none =>
    rw [(h.born i b' hb hb').1] at hclosed
    cases hclosed
  | some b =>
    obtain ⟨b₁, hb₁, he⟩ := h.kept i b hb
    obtain rfl : b₁ = b' := Option.some.inj (hb₁.symm.trans hb')
    exact ⟨b, rfl, he.elder, he.closed_of hclosed⟩

theorem Stride.closed_of (h : Stride s i p p' t) (hfits : ∀ bus, s.buses[i]? = some bus → p.Fits bus)
    {j : Nat} {b' : Bus H} (hb' : t.buses[j]? = some b') (hclosed : b'.state = .closed) :
    ∃ b, s.buses[j]? = some b ∧ b.Elder b' ∧ (b.state = .closed ∨ j = i ∧ p.waits) := by
  have hgoes {new : List (String × BrokerError)} (hg : Goes new s t) :
      ∃ b, s.buses[j]? = some b ∧ b.Elder b' ∧ (b.state = .closed ∨ j = i ∧ p.waits) := by
    obtain ⟨b, hb, helder, hs⟩ := hg.closed_of hb' hclosed
    exact ⟨b, hb, helder, .inl hs⟩
  have honBus {f : Bus H → Bus H} (ht : t = s.onBus i f) (hf : ∀ b : Bus H, b.Elder (f b))
      (hown : ∀ b, s.buses[i]? = some b → (f b).state = .closed → b.state = .closed ∨ p.waits) :
      ∃ b, s.buses[j]? = some b ∧ b.Elder b' ∧ (b.state = .closed ∨ j = i ∧ p.waits) := by
    rw [ht, onBus, List.getElem?_modify] at hb'
    obtain ⟨b, hb, rfl⟩ := Option.map_eq_some_iff.mp hb'
    by_cases hij : i = j
    · subst hij
      rw [if_pos rfl] at hclosed ⊢
      exact ⟨b, hb, hf b, (hown b hb hclosed).imp_right fun hw => ⟨rfl, hw⟩⟩
    · rw [if_neg hij] at hclosed ⊢
      exact ⟨b, hb, .refl b, .inl hclosed⟩
  cases h with
  | meek hm => exact hgoes hm.goes
  | shut => exact hgoes (s.shut_meek i).goes
  | launched | drained => exact honBus rfl (fun _ => ⟨rfl, rfl⟩) (by rintro _ _ ⟨⟩)
  | stopped => exact honBus rfl (fun _ => ⟨rfl, rfl⟩) fun _ _ hs => .inl hs
  | closed => exact honBus rfl (fun _ => ⟨rfl, rfl⟩) fun _ _ _ => .inr rfl

theorem Stride.shut_of (h : Stride s i p p' t) (hw : p'.waits) (hu : s.Unfaulted "close")
    (hs : s.broker.Sound) (ho : s.Ordered) (hb : s.buses[i]? = some bus) :
    t.broker.Shut bus.session := by
  cases h with
  | meek _ _ hwaits => rw [hwaits] at hw; cases hw
  | launched | drained | stopped | closed => cases hw
  | shut =>
    have hm := List.mem_of_getElem? hb
    rw [shut_broker hb (hu bus hm)]
    exact hs.shut_closeSession (List.getElem?_eq_getElem (ho.known bus hm))

end Network

namespace Floor
open Network
open Broker (Polled Stream)
variable {f : Floor H} {c i : Nat} {bus : Bus H} {r : Request H} {p : Phase r}

/-- The session of the bus was closed by a caller. -/
def Over (f : Floor H) (i : Nat) (bus : Bus H) : Prop :=
  bus.state = .closed ∨ ∃ (c : Nat) (x : Caller H), f.callers[c]? = some x ∧ x.bus = i ∧ x.phase.waits

/-- Sessions close when they are told to, and then stay closed. -/
structure Ends (f : Floor H) : Prop where
  unfaulted : f.network.Unfaulted "close"
  shut : ∀ (i : Nat) (bus : Bus H), f.network.buses[i]? = some bus → f.Over i bus →
    f.network.broker.Shut bus.session

theorem ends_empty : ({} : Floor H).Ends := ⟨by simp [Unfaulted], by simp⟩

theorem Ends.step (h : f.Ends) {g : Floor H} (hu : g.network.Unfaulted "close")
    (hb : ∃ actions, g.network.broker = f.network.broker.run actions)
    (hover : ∀ (i : Nat) (bus' : Bus H), g.network.buses[i]? = some bus' → g.Over i bus' →
      g.network.broker.Shut bus'.session ∨
        ∃ bus, f.network.buses[i]? = some bus ∧ bus.Elder bus' ∧ f.Over i bus) : g.Ends := by
  refine ⟨hu, fun i bus' hb' h' => ?_⟩
  rcases hover i bus' hb' h' with hshut | ⟨bus, hbus, helder, hold⟩
  · exact hshut
  · obtain ⟨actions, hrun⟩ := hb
    rw [hrun, helder.session]
    exact (h.shut i bus hbus hold).run actions

theorem Ends.goes (h : f.Ends) (hs : f.Sound) {new : List (String × BrokerError)} {t : Network H}
    (hg : Goes new f.network t) (hnew : ∀ x ∈ new, x.1 ≠ "close")
    (hb : ∃ actions, t.broker = f.network.broker.run actions) : Ends { f with network := t } := by
  refine h.step (h.unfaulted.goes hg hnew) hb fun i bus' hb' hover => .inr ?_
  rcases hover with hclosed | ⟨c, x, hx, rfl, hwaits⟩
  · obtain ⟨bus, hbus, helder, hs⟩ := hg.closed_of hb' hclosed
    exact ⟨bus, hbus, helder, .inl hs⟩
  · obtain ⟨bus, hbus, -⟩ := hs.fits c x hx
    obtain ⟨b₁, hb₁, he⟩ := hg.kept x.bus bus hbus
    obtain rfl : b₁ = bus' := Option.some.inj (hb₁.symm.trans hb')
    exact ⟨bus, hbus, he.elder, .inr ⟨c, x, hx, rfl, hwaits⟩⟩

theorem Ends.proceed (h : f.Ends) (hs : f.Sound) (c : Nat) : (f.proceed c).Ends := by
  rcases hs.proceed_cases c with heq | ⟨i, r, p, p', bus, t, hc, hb, hfits, -, hstride, heq⟩
  · exact heq.symm ▸ h
  have hpasses {j : Nat} {b : Bus H} (hb : f.network.buses[j]? = some b) :
      ∃ b', t.buses[j]? = some b' ∧ b.Elder b' := by
    obtain ⟨b', hb', helder, -⟩ := hs.passes (.proceed c) hb
    simp only [Floor.happen, heq] at hb'
    exact ⟨b', hb', helder⟩
  rw [heq]
  obtain ⟨hlt, -⟩ := List.getElem?_eq_some_iff.mp hc
  refine h.step (h.unfaulted.stride hstride) hstride.broker fun j bus' hb' hover => ?_
  rcases hover with hclosed | ⟨d, x, hx, rfl, hwaits⟩
  · right
    obtain ⟨b, hb, helder, hs⟩ := hstride.closed_of (fun b hb₁ =>
      Option.some.inj (hb.symm.trans hb₁) ▸ hfits) hb' hclosed
    refine ⟨b, hb, helder, hs.imp_right ?_⟩
    rintro ⟨rfl, hwaits⟩
    exact ⟨c, _, hc, rfl, hwaits⟩
  · by_cases hdc : c = d
    · subst hdc
      rw [List.getElem?_set_self hlt] at hx
      obtain rfl := Option.some.inj hx
      obtain ⟨b₁, hb₁, helder⟩ := hpasses hb
      obtain rfl : b₁ = bus' := Option.some.inj (hb₁.symm.trans hb')
      rw [helder.session]
      exact .inl (hstride.shut_of hwaits h.unfaulted hs.broker hs.ordered hb)
    · rw [List.getElem?_set_ne hdc] at hx
      obtain ⟨b, hb, -⟩ := hs.fits d x hx
      obtain ⟨b₁, hb₁, helder⟩ := hpasses hb
      obtain rfl : b₁ = bus' := Option.some.inj (hb₁.symm.trans hb')
      exact .inr ⟨b, hb, helder, .inr ⟨d, x, hx, rfl, hwaits⟩⟩

theorem Ends.happen (h : f.Ends) (hs : f.Sound) {x : Happening H} (hx : x.Spares "close") :
    (f.happen x).Ends := by
  -- Callers that come and go close nothing.
  have hcallers {callers : List (Caller H)} (hold : ∀ y ∈ callers, y.phase.waits → y ∈ f.callers) :
      Ends { f with callers } := by
    refine h.step h.unfaulted ⟨[], rfl⟩ fun i bus hb hover => .inr ⟨bus, hb, .refl bus, ?_⟩
    refine hover.imp_right ?_
    rintro ⟨d, y, hy, hbus, hwaits⟩
    obtain ⟨e, he⟩ := List.mem_iff_getElem?.mp (hold y (List.mem_of_getElem? hy) hwaits)
    exact ⟨e, y, he, hbus, hwaits⟩
  cases x with
  | call i r =>
    simp only [Floor.happen]
    split
    · refine hcallers fun y hy hwaits => ?_
      rcases List.mem_append.mp hy with hy | hy
      · exact hy
      · obtain rfl := List.mem_singleton.mp hy
        cases r <;> cases hwaits
    · exact h
  | proceed c => exact h.proceed hs c
  | leave c =>
    refine hcallers fun y hy hwaits => ?_
    obtain ⟨d, hd⟩ := List.mem_iff_getElem?.mp hy
    rw [List.getElem?_modify] at hd
    obtain ⟨x, hx, rfl⟩ := Option.map_eq_some_iff.mp hd
    by_cases hcd : c = d
    · rw [if_pos hcd] at hwaits
      cases x.request <;> cases hwaits
    · rw [if_neg hcd]
      exact List.mem_of_getElem? hx
  | yielded i k polled =>
    have hgoes : Goes [] f.network _ := f.network.receive_goes i k polled
    exact h.goes hs hgoes (by simp) ⟨[], f.network.receive_broker i k polled⟩
  | other a =>
    simp only [Floor.happen]
    split
    · exact h
    · rename_i ha
      exact h.goes hs (f.network.perform_goes (Bool.eq_false_iff.mpr ha)) hx (f.network.perform_broker a)

theorem Ends.run (h : f.Ends) (hs : f.Sound) {xs : List (Happening H)}
    (hxs : ∀ x ∈ xs, x.Spares "close") : (f.run xs).Ends := by
  induction xs generalizing f with
  | nil => exact h
  | cons x xs ih =>
    obtain ⟨hx, hxs⟩ := List.forall_mem_cons.mp hxs
    exact ih (h.happen hs hx) (hs.happen x) hxs

/-- Once a close has returned, the session of its bus is closed for good. -/
theorem Ends.shut_run (h : f.Ends) (hs : f.Sound) {result : Except BusError Unit}
    (hc : f.callers[c]? = some ⟨i, .close, .returned result⟩) {more : List (Happening H)}
    (hmore : ∀ x ∈ more, x.Spares "close") :
    ∃ bus, (f.run more).network.buses[i]? = some bus ∧
      (f.run more).network.broker.Shut bus.session := by
  obtain ⟨bus, hb, hclosed⟩ := hs.fits c _ hc
  obtain ⟨bus', hb', -, hclosed'⟩ :=
    hs.passes_run more (P := (· = .closed)) (fun _ _ hp hx => hp.closed_of hx) hb hclosed
  exact ⟨bus', hb', (h.run hs hmore).shut i bus' hb' (.inl hclosed')⟩

theorem publish_shut {e : Event} {p : Phase (.publish e : Request H)}
    (hb : f.network.buses[i]? = some bus) (hshut : f.network.broker.Shut bus.session)
    (hc : f.callers[c]? = some ⟨i, .publish e, p⟩) :
    (f.proceed c).network.broker = f.network.broker := by
  rw [proceed_eq hc fun hp => by cases p <;> cases hp]
  cases p with
  | asking => exact whileOpen_ind (P := fun t => t.broker = f.network.broker) rfl fun _ _ _ => rfl
  | announcing =>
    have hrefused := (publishOver_shut hb hshut e).2
    rcases (publishOver i e).bind_cases (fun _ => pure (Phase.returned (.ok ()))) f.network with
      h | ⟨_, -, h⟩
    · exact (congrArg _ h).trans hrefused
    · exact (congrArg _ h).trans hrefused
  | returned | gone => rfl

/-- Lifecycle safety. However callers that start, close, publish, subscribe and restore the
topology come in between each other, and whatever dispatchers and the broker do meanwhile:
the state of a bus changes from idle to consuming and back, from both to draining, and from
there to closed, and in no other way. A start that fails changes neither a state nor a
dispatcher. Who asks for anything but to close when the bus drains or is closed asks in vain:
none of its steps changes anything, and it is refused. Its next step does that, whoever has the
lock; a start waits for the lock and is refused once it has it. And if closing the session is
not made to fail, nothing enters the broker through the bus or its publishers once a close has
returned. -/
theorem lifecycle_safe (hs : List (Happening H)) {i : Nat} {bus : Bus H}
    (hb : (run {} hs).network.buses[i]? = some bus) :
    let f : Floor H := run {} hs
    (∀ x, ∃ bus', (f.happen x).network.buses[i]? = some bus' ∧ bus.state.Passes bus'.state) ∧
    (∀ more, ∃ bus', (f.run more).network.buses[i]? = some bus' ∧
      (bus.state.isTerminal → bus'.state.isTerminal) ∧ (bus.state = .closed → bus'.state = .closed)) ∧
    (∀ (c : Nat) (p : Phase .start) (more : List (Happening H)) (e : BusError),
      f.callers[c]? = some ⟨i, .start, p⟩ →
      ((f.proceed c).run more).callers[c]? = some ⟨i, .start, .returned (.error e)⟩ →
      ∀ j : Nat, ∃ faults, (f.proceed c).network.buses[j]? =
        f.network.buses[j]?.map fun b => { b with faults }) ∧
    (∀ (c : Nat) (r : Request H) (more : List (Happening H)), bus.state.isTerminal → r ≠ .close →
      f.callers[c]? = some ⟨i, r, .asking⟩ →
      let g := f.run more
      ∃ p : Phase r, g.callers[c]? = some ⟨i, r, p⟩ ∧ p.Futile ∧ (g.proceed c).network = g.network ∧
        (r ≠ .start → p = .gone ∨
          (g.proceed c).callers[c]? = some ⟨i, r, .returned (.error .closed)⟩) ∧
        (r = .start → g.Spared c i → p = .gone ∨
          ((g.proceed c).proceed c).callers[c]? = some ⟨i, r, .returned (.error .closed)⟩)) ∧
    (∀ (c : Nat) (result : Except BusError Unit) (more : List (Happening H)),
      f.callers[c]? = some ⟨i, .close, .returned result⟩ → (∀ x ∈ hs ++ more, x.Spares "close") →
      let g := f.run more
      (∀ e, (publishOver i e g.network).1.isOk = false ∧
        (publishOver i e g.network).2.broker = g.network.broker) ∧
      ∀ (d : Nat) (e : Event) (p : Phase (.publish e)), g.callers[d]? = some ⟨i, .publish e, p⟩ →
        (g.proceed d).network.broker = g.network.broker) := by
  intro f
  have hsound : f.Sound := sound_empty.run hs
  refine ⟨fun x => ?_, fun more => ?_, fun c p more e hc hfails j => ?_, fun c r more ht hr hc => ?_,
    fun c result more hc hspares => ?_⟩
  · obtain ⟨bus', hb', -, hpasses⟩ := hsound.passes x hb
    exact ⟨bus', hb', hpasses⟩
  · obtain ⟨bus', hb', -, hstays⟩ := hsound.passes_run more
      (P := fun x => (bus.state.isTerminal → x.isTerminal) ∧ (bus.state = .closed → x = .closed))
      (fun _ _ hp h => ⟨fun ht => hp.isTerminal_of (h.1 ht), fun hc => hp.closed_of (h.2 hc)⟩) hb
      ⟨id, id⟩
    exact ⟨bus', hb', hstays⟩
  · exact failed_start hc more hfails j
  · obtain ⟨p, hc', hp⟩ := late_run hsound hr hb ht hc .asking more
    obtain ⟨bus', hb', ht'⟩ := terminal_run hsound more hb ht
    exact ⟨p, hc', hp, late_proceed hr hb' ht' hc' hp,
      fun hstart => late_refused (Request.locks_eq_false hstart hr) hb' ht' hc' hp,
      fun _ => late_answer hr hb' ht' hc' hp⟩
  · obtain ⟨hbefore, hmore⟩ := List.forall_mem_append.mp hspares
    have hends : f.Ends := ends_empty.run sound_empty hbefore
    obtain ⟨bus', hb', hshut⟩ := hends.shut_run hsound hc hmore
    exact ⟨publishOver_shut hb' hshut, fun d e p hd => publish_shut hb' hshut hd⟩

/-- A publisher is admitted, another caller closes the bus, and a third wants to start it. -/
theorem lifecycle_safe_overtaken :
    let e := Event.newCargoBooked (Samples.newCargoBooked "ABC123" "SESTO" "CNHKG")
    let hs : List (Happening Unit) := [.other (.build { service := "tracking" } .receiver []),
      .call 0 (.publish e), .proceed 0, .call 0 .close] ++ List.replicate 6 (.proceed 1) ++
      [.call 0 .start]
    let f := run {} hs
    f.callers[0]? = some ⟨0, .publish e, .announcing⟩ ∧
    f.callers[1]? = some ⟨0, .close, .returned (.ok ())⟩ ∧
    f.callers[2]? = some ⟨0, .start, .asking⟩ ∧
    (f.proceed 0).network.broker = f.network.broker ∧
    (f.proceed 2).network = f.network ∧
    ((f.proceed 2).proceed 2).callers[2]? = some ⟨0, .start, .returned (.error .closed)⟩ := by
  intro e hs f
  have hclosed : f.network.buses[0]?.map (·.state) = some .closed := by decide +kernel
  have hcallers : f.callers =
      [⟨0, .publish e, .announcing⟩, ⟨0, .close, .returned (.ok ())⟩, ⟨0, .start, .asking⟩] := by
    decide +kernel
  have hspares : ∀ x ∈ hs ++ [], x.Spares "close" := by
    simp [hs, Happening.Spares, Act.faults]
  obtain ⟨bus, hb, hclosed⟩ := Option.map_eq_some_iff.mp hclosed
  have hrun : run {} hs = f := rfl
  have hsafe := lifecycle_safe hs (hrun ▸ hb)
  -- From here on only where the callers are matters, not how they got there.
  rw [hrun] at hsafe
  clear_value f
  have hpublish : f.callers[0]? = some ⟨0, .publish e, .announcing⟩ := by rw [hcallers]; rfl
  have hclose : f.callers[1]? = some ⟨0, .close, .returned (.ok ())⟩ := by rw [hcallers]; rfl
  have hstart : f.callers[2]? = some ⟨0, .start, .asking⟩ := by rw [hcallers]; rfl
  obtain ⟨-, -, -, hlate, hover⟩ := hsafe
  obtain ⟨p, hc, -, hstill, -, hanswer⟩ := hlate 2 .start [] (by rw [hclosed]; rfl) nofun hstart
  refine ⟨hpublish, hclose, hstart, (hover 1 _ [] hclose hspares).2 0 e _ hpublish, hstill, ?_⟩
  refine (hanswer rfl fun d x hd hbus hdc => ?_).resolve_left ?_
  · match d with
    | 0 => rw [← Option.some.inj (hpublish.symm.trans hd)]; rfl
    | 1 => rw [← Option.some.inj (hclose.symm.trans hd)]; rfl
    | 2 => exact absurd rfl hdc
    | d + 3 => rw [run_nil, hcallers] at hd; cases hd
  · rintro rfl
    exact nomatch hstart.symm.trans hc

/-- While a caller that closes the bus has its lock, who restores is refused and who starts waits. -/
example :
    let f : Floor Unit := run {} [.other (.build { service := "tracking" } .receiver []),
      .call 0 .close, .proceed 0, .proceed 0, .proceed 0, .call 0 .restore, .call 0 .start]
    f.isLocked 0 = true ∧
    (f.proceed 1).callers[1]? = some ⟨0, .restore, .returned (.error .closed)⟩ ∧
    (f.proceed 2).callers[2]? = some ⟨0, .start, .asking⟩ := by
  decide +kernel

end Floor
end CargoEvents
