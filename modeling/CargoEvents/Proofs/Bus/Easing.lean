import CargoEvents.Proofs.Bus.Callers

/-! # What happens past those who have a lock

But for callers that have its lock, nothing changes the state of a bus, except that the bus is
idle again when the stream of its dispatcher ends (`Goes`). This holds of every act that is no
call, and of what a dispatcher takes late.
-/
namespace CargoEvents
variable {H : Type}

inductive BusState.Passes : BusState → BusState → Prop
  | stays (x : BusState) : Passes x x
  | started : Passes .idle .consuming
  | ranOut : Passes .consuming .idle
  | drained {x : BusState} (h : x.isTerminal = false) : Passes x .draining
  | closed : Passes .draining .closed

/-- What comes of a bus that no caller with its lock changes, if `new` faults are set. -/
structure Bus.Eased (new : List (String × BrokerError)) (b b' : Bus H) : Prop where
  elder : b.Elder b'
  state : b'.state = b.state ∨ b.state = .consuming ∧ b'.state = .idle
  faults : ∀ f ∈ b'.faults, f ∈ b.faults ∨ f ∈ new

theorem Bus.Eased.refl (new : List (String × BrokerError)) (b : Bus H) : b.Eased new b :=
  ⟨.refl b, .inl rfl, fun _ h => .inl h⟩

theorem Bus.Eased.trans {new : List (String × BrokerError)} {b b' b'' : Bus H} (h : b.Eased new b')
    (h' : b'.Eased new b'') : b.Eased new b'' := by
  refine ⟨h.elder.trans h'.elder, ?_, fun f hf => ?_⟩
  · rcases h.state with hs | ⟨hs, hs'⟩
    · rw [← hs]
      exact h'.state
    · rcases h'.state with hs'' | ⟨hs'', -⟩
      · exact .inr ⟨hs, hs''.trans hs'⟩
      · rw [hs'] at hs''
        cases hs''
  · exact (h'.faults f hf).elim (h.faults f) .inr

theorem Bus.Eased.passes {new : List (String × BrokerError)} {b b' : Bus H} (h : b.Eased new b') :
    b.state.Passes b'.state := by
  rcases h.state with hs | ⟨hs, hs'⟩
  · rw [hs]
    exact .stays _
  · rw [hs, hs']
    exact .ranOut

namespace Network
variable {new : List (String × BrokerError)} {s t u : Network H} {i k : Nat} {bus : Bus H}
open Broker (Polled Stream)

/-- No caller with a lock had part in what came of the buses. -/
structure Goes (new : List (String × BrokerError)) (s t : Network H) : Prop where
  kept : ∀ (i : Nat) (b : Bus H), s.buses[i]? = some b →
    ∃ b', t.buses[i]? = some b' ∧ b.Eased new b'
  born : ∀ (i : Nat) (b' : Bus H), s.buses[i]? = none → t.buses[i]? = some b' →
    b'.state = .idle ∧ ∀ f ∈ b'.faults, f ∈ new

theorem Goes.trans (h : Goes new s t) (h' : Goes new t u) : Goes new s u := by
  refine ⟨fun i b hb => ?_, fun i b'' hb hb'' => ?_⟩
  · obtain ⟨b', hb', he⟩ := h.kept i b hb
    obtain ⟨b'', hb'', he'⟩ := h'.kept i b' hb'
    exact ⟨b'', hb'', he.trans he'⟩
  · cases hb' : t.buses[i]? with
    | none => exact h'.born i b'' hb' hb''
    | some b' =>
      obtain ⟨hidle, hfaults⟩ := h.born i b' hb hb'
      obtain ⟨b₀, hb₀, he⟩ := h'.kept i b' hb'
      obtain rfl : b'' = b₀ := Option.some.inj (hb''.symm.trans hb₀)
      refine ⟨?_, fun f hf => (he.faults f hf).elim (hfaults f) id⟩
      rcases he.state with hs | ⟨hs, hs'⟩
      · exact hs.trans hidle
      · exact hs'

theorem Goes.length (h : Goes new s t) : s.buses.length ≤ t.buses.length := by
  by_contra hlt
  have hlt := Nat.lt_of_not_le hlt
  obtain ⟨b', hb', -⟩ := h.kept t.buses.length _ (List.getElem?_eq_getElem hlt)
  simp at hb'

theorem goes_of_buses (h : t.buses = s.buses) : Goes new s t := by
  refine ⟨fun i b hb => ⟨b, h ▸ hb, .refl new b⟩, fun i b' hb hb' => ?_⟩
  rw [h, hb] at hb'
  cases hb'

theorem goes_onBus (s : Network H) (i : Nat) {f : Bus H → Bus H}
    (hf : ∀ b : Bus H, b.Eased new (f b)) :
    Goes new s (s.onBus i f) := by
  refine ⟨fun j b hb => ?_, fun j b' hb hb' => ?_⟩
  · rw [onBus, List.getElem?_modify, hb]
    refine ⟨_, rfl, ?_⟩
    split
    · exact hf b
    · exact .refl new b
  · rw [onBus, List.getElem?_modify, hb] at hb'
    cases hb'

theorem Called.goes (h : s.Called t) : Goes new s t := by
  refine ⟨fun i b hb => ?_, fun i b' hb hb' => ?_⟩
  · obtain ⟨faults, hf, hsub⟩ := h.buses i
    rw [hb] at hf
    exact ⟨_, hf, ⟨rfl, rfl⟩, .inl rfl, fun f hf => .inl ((hsub b hb).subset hf)⟩
  · obtain ⟨faults, hf, -⟩ := h.buses i
    rw [hb, hb'] at hf
    cases hf

/-! ## Acts that are no calls -/

theorem publishOver_goes (s : Network H) (i : Nat) (e : Event) :
    Goes new s (publishOver i e s).2 := by
  unfold publishOver
  split
  · exact goes_of_buses rfl
  · rename_i bus hb
    have hcalled : Goes new s _ := (publishEvent_called i bus.config.exchange e s).goes
    split <;> rename_i hp <;> rw [hp] at hcalled
    · exact hcalled.trans (goes_of_buses (observe_buses ..))
    · exact hcalled.trans (goes_of_buses (observe_buses ..))

theorem build_goes (s : Network H) (config : BusConfig) (sink : ErrorSink)
    (faults : List (String × BrokerError)) : Goes faults s (build config sink faults s).2 := by
  let bus : Bus H := { config, session := s.broker.sessions.length, sink, faults }
  let s₁ : Network H := { s with broker := s.broker.openSession, buses := s.buses ++ [bus] }
  have hborn : Goes faults s s₁ := by
    refine ⟨fun i b hb => ⟨b, ?_, .refl faults b⟩, fun i b' hb hb' => ?_⟩
    · exact (List.getElem?_append_left (List.getElem?_eq_some_iff.mp hb).1).trans hb
    · rw [List.getElem?_append_right (List.getElem?_eq_none_iff.mp hb)] at hb'
      obtain rfl := List.mem_singleton.mp (List.mem_of_getElem? hb')
      exact ⟨rfl, fun _ hf => hf⟩
  have hdeclared : Goes faults s _ :=
    hborn.trans (declare_called s.buses.length config.topology s₁).goes
  simp only [build]
  split <;> rename_i t hd <;> rw [hd] at hdeclared
  · exact hdeclared
  · refine ⟨fun i b hb => ?_, fun i b' hb hb' => ?_⟩
    · obtain ⟨b', hb', he⟩ := hdeclared.kept i b hb
      refine ⟨b', ?_, he⟩
      rw [List.getElem?_take_of_lt (List.getElem?_eq_some_iff.mp hb).1]
      exact hb'
    · rw [List.getElem?_take_eq_none (List.getElem?_eq_none_iff.mp hb)] at hb'
      cases hb'

theorem drop_goes (s : Network H) (i : Nat) : Goes new s (s.drop i) :=
  goes_onBus s i fun _ => ⟨⟨rfl, rfl⟩, .inl rfl, fun _ h => .inl h⟩

theorem Goes.onDispatcher (h : Goes new s t) (i k : Nat) (f : Dispatcher H → Dispatcher H) :
    Goes new s (t.onDispatcher i k f) :=
  h.trans (goes_onBus t i fun _ => ⟨⟨rfl, rfl⟩, .inl rfl, fun _ h => .inl h⟩)

theorem Goes.move (h : Goes new s t) (i k : Nat) (p : Position H) : Goes new s (t.move i k p) :=
  h.onDispatcher i k _

theorem streamEnded_goes (s : Network H) (i : Nat) : Goes new s (s.streamEnded i) := by
  refine goes_onBus s i fun b => ?_
  split
  · rename_i hs
    exact ⟨⟨rfl, rfl⟩, .inr ⟨hs, rfl⟩, fun _ h => .inl h⟩
  · exact .refl new b

theorem take_goes (s : Network H) (i k : Nat) (polled : Polled) :
    Goes new s (s.take i k polled) := by
  cases polled with
  | pending => exact goes_of_buses rfl
  | ended => exact (s.streamEnded_goes i).move i k .ended
  | fault e => exact goes_of_buses (by simp [take])
  | delivery d =>
    simp only [take]
    split
    · exact goes_of_buses rfl
    · rename_i b hb
      generalize b.registry.accept d = accepted
      obtain ⟨p, os⟩ := accepted
      refine Goes.move (goes_of_buses ?_) i k p
      cases p <;> simp

theorem pull_goes (s : Network H) (i k : Nat) : Goes new s (s.pull i k) := by
  unfold pull
  split
  · split
    · exact Goes.move (goes_of_buses rfl) i k .ended
    · generalize s.broker.poll _ = polled
      obtain ⟨polled, st, b'⟩ := polled
      have hbroker : Goes new s { s with broker := b' } := goes_of_buses rfl
      exact (hbroker.onDispatcher i k _).trans (take_goes _ i k polled)
  · exact goes_of_buses rfl

theorem complete_goes (s : Network H) (i k : Nat) (result : Except HandlerError Unit) :
    Goes new s (s.complete i k result) := by
  unfold complete
  split
  · exact Goes.move (goes_of_buses (by simp)) i k _
  · exact goes_of_buses rfl

theorem panic_goes (s : Network H) (i k : Nat) : Goes new s (s.panic i k) := by
  unfold panic
  split
  · exact Goes.move (goes_of_buses (note_buses ..)) i k .ended
  · exact goes_of_buses rfl

theorem onSession_goes {α : Type} (s : Network H) (i : Nat) (c : SessionCall)
    (op : Nat → Broker → Except BrokerError (α × Broker)) : Goes new s (onSession i c op s).2 := by
  unfold onSession
  split
  · exact goes_of_buses rfl
  · rename_i bus hb
    split
    · rename_i e faults hf
      have hfaults : Goes new s (s.onBus i fun b => { b with faults }) :=
        (called_faults hb (takeFault_sublist hf)).goes
      exact hfaults.trans (goes_of_buses rfl)
    · split <;> exact goes_of_buses rfl

theorem settle_goes (s : Network H) (i : Nat) (bus : Bus H) (d : Broker.Delivery)
    (how : Broker.Resolution) (os : List Observation) : Goes new s (s.settle i bus d how os) := by
  have hresolve : Goes new s (resolve i d.tag how s).2 := onSession_goes ..
  unfold settle
  generalize resolve i d.tag how s = resolved at hresolve ⊢
  obtain ⟨result, t⟩ := resolved
  exact hresolve.trans (goes_of_buses (by simp))

theorem acknowledge_goes (s : Network H) (i k : Nat) : Goes new s (s.acknowledge i k) := by
  unfold acknowledge
  split
  · exact (s.settle_goes ..).move i k .pulling
  · exact goes_of_buses rfl

theorem resume_goes (s : Network H) (i k : Nat) : Goes new s (s.resume i k) := by
  unfold resume
  split
  · rename_i bus st d v hd
    have hsettled : Goes new s _ := s.settle_goes i bus d (.nack true) (v.observed d.kind)
    exact (hsettled.trans (goes_of_buses (report_buses ..))).move i k .pulling
  · exact goes_of_buses rfl

/-- The faults that an act sets for calls to come. -/
def Act.faults : Act H → List (String × BrokerError)
  | .build _ _ faults | .fault _ faults => faults
  | _ => []

theorem perform_goes (s : Network H) {a : Act H} (ha : a.isCall = false) :
    Goes a.faults s (s.perform a) := by
  cases a with
  | build config sink faults => exact s.build_goes config sink faults
  | publishOver i e => exact s.publishOver_goes i e
  | drop i => exact s.drop_goes i
  | pull i k => exact s.pull_goes i k
  | complete i k result => exact s.complete_goes i k result
  | panic i k => exact s.panic_goes i k
  | acknowledge i k => exact s.acknowledge_goes i k
  | resume i k => exact s.resume_goes i k
  | fault i faults =>
    exact goes_onBus s i fun b => ⟨⟨rfl, rfl⟩, .inl rfl, fun f hf => List.mem_append.mp hf⟩
  | beside a => exact goes_of_buses rfl
  | publish | subscribe | start | restore | beginClose | finishClose => cases ha

/-! ## What a dispatcher takes late -/

theorem reworked_same {d : Dispatcher H} (hd : s.dispatcher? i k = some (bus, d))
    {f : Dispatcher H → Dispatcher H} (hf : f d = d) : Reworked i k f s s := by
  intro j b hb
  refine ⟨b, hb, rfl, rfl, rfl, ?_⟩
  split
  · rename_i hji
    obtain ⟨hbus, hk⟩ := dispatcher?_eq_some.mp hd
    obtain rfl : b = bus := Option.some.inj (hb.symm.trans (hji ▸ hbus))
    refine List.ext_getElem? fun l => ?_
    by_cases hkl : k = l
    · subst hkl
      simp [hk, hf]
    · simp [hkl]
  · rfl

theorem receive_cases (s : Network H) (i k : Nat) (polled : Polled) :
    s.receive i k polled = s ∨ ∃ bus st,
      s.dispatcher? i k = some (bus, { stream := st, position := .pulling }) ∧
      s.receive i k polled = s.take i k polled ∧
      Moved bus i k .pulling s.broker st (received bus.registry i k polled).1
        (received bus.registry i k polled).2 s (s.take i k polled) := by
  cases hd : s.dispatcher? i k with
  | none => exact .inl (by simp only [receive, hd])
  | some found =>
    obtain ⟨bus, st, p⟩ := found
    cases p with
    | pulling =>
      refine .inr ⟨bus, st, rfl, by simp only [receive, hd], take_moved polled hd ?_ ?_ rfl⟩
      · exact reworked_same hd rfl
      · rw [dispatcher?_bus hd]
        exact Option.some_ne_none bus
    | handling | acknowledging | pausing | ended => exact .inl (by simp only [receive, hd])

theorem receive_goes (s : Network H) (i k : Nat) (polled : Polled) :
    Goes new s (s.receive i k polled) := by
  rcases s.receive_cases i k polled with h | ⟨bus, st, -, h, -⟩
  · rw [h]
    exact goes_of_buses rfl
  · rw [h]
    exact s.take_goes i k polled

theorem receive_broker (s : Network H) (i k : Nat) (polled : Polled) :
    (s.receive i k polled).broker = s.broker := by
  rcases s.receive_cases i k polled with h | ⟨bus, st, -, h, hm⟩
  · rw [h]
  · rw [h]
    exact hm.broker

theorem Lively.receive (h : s.Lively) (i k : Nat) (polled : Polled) :
    (s.receive i k polled).Lively := by
  rcases s.receive_cases i k polled with hr | ⟨bus, st, hd, hr, hm⟩
  · exact hr.symm ▸ h
  · have hcrash : (s.take i k polled).Crashed = s.Crashed := by
      refine funext₂ fun j l => propext (exists_congr fun d => ?_)
      have hnone := received_panicked_not_mem bus.registry i k polled j l d
      rw [hm.diary, List.mem_append, or_iff_left]
      intro hmem
      obtain ⟨e, he, heq⟩ := List.mem_filterMap.mp hmem
      exact hnone (eq_of_by heq ▸ he)
    rw [hr, Lively, hcrash]
    exact Life.AllSound.step h (take_step hd rfl rfl polled)

theorem Ordered.receive (h : s.Ordered) (i k : Nat) (polled : Polled) :
    (s.receive i k polled).Ordered := by
  rcases s.receive_cases i k polled with hr | ⟨bus, st, hd, hr, hm⟩
  · exact hr.symm ▸ h
  · rw [hr]
    have hgoes : Goes [] s (s.take i k polled) := s.take_goes i k polled
    exact h.run [] hm.broker (hm.sessions hgoes.length)

end Network
end CargoEvents
