import CargoEvents.Proofs.Amqp.Calls

/-! # Resolving over AMQP

Who consumes over AMQP holds deliveries, in any number, and resolves them in any order while
calls and closes go on beside. What the peer gets is told by the resolutions alone: one
method for each that returned, in their order, with the tag its delivery came with.
-/
namespace CargoEvents.Amqp
open Broker (Resolution)

structure Client where
  session : Session
  held : List Broker.Delivery := []

inductive Step
  | next
  /-- Resolves one of the deliveries that are held, by its place among them. -/
  | resolve (k : Nat) (how : Resolution)
  | receive (consumer : String) (x : Incoming)
  | beside (e : Session.Incident)

/-- A delivery that was resolved, and what became of the call. -/
structure Settlement where
  delivery : Broker.Delivery
  how : Resolution
  result : Except BrokerError Unit

def Settlement.sent? (x : Settlement) : Option Method :=
  match x.result with
  | .ok () => some (resolving x.delivery x.how)
  | .error _ => none

namespace Client
variable (c : Client)

/-- A delivery is resolved by its own tag, and is not held any more. -/
def step : Step → Client
  | .next => match c.session.next with
    | (.delivery d, session) => { session, held := c.held ++ [d] }
    | (_, session) => { c with session }
  | .resolve k how => match c.held[k]? with
    | some d => { session := (c.session.resolve d.tag how).2, held := c.held.eraseIdx k }
    | none => c
  | .receive consumer x => { c with session := c.session.receive consumer x }
  | .beside e => { c with session := c.session.incur e }

def run (steps : List Step) : Client := steps.foldl step c

def yield? : Step → Option Broker.Delivery
  | .next => match c.session.next.1 with
    | .delivery d => some d
    | _ => none
  | _ => none

def settlement? : Step → Option Settlement
  | .resolve k how => c.held[k]?.map fun d =>
    { delivery := d, how, result := (c.session.resolve d.tag how).1 }
  | _ => none

def yielded (c : Client) : List Step → List Broker.Delivery
  | [] => []
  | a :: steps => (c.yield? a).toList ++ (c.step a).yielded steps

def settlements (c : Client) : List Step → List Settlement
  | [] => []
  | a :: steps => (c.settlement? a).toList ++ (c.step a).settlements steps

theorem resolved_step (a : Step) :
    (c.step a).session.resolved =
      ((c.settlement? a).bind Settlement.sent?).toList ++ c.session.resolved := by
  cases a with
  | next =>
    have hnext := c.session.next_spares.1.resolved
    unfold step
    generalize c.session.next = polled at hnext
    rcases polled with ⟨_ | _, session⟩ <;> exact hnext
  | resolve k how =>
    cases hk : c.held[k]? with
    | none => simp [step, settlement?, hk]
    | some d =>
      simp only [step, settlement?, hk, Option.map_some, Option.bind_some]
      cases h : c.session.channel with
      | up =>
        rw [Session.resolve_up d how h, Session.resolved, Session.send_received,
          List.filter_cons_of_pos (resolves_resolving d how)]
        rfl
      | down reason =>
        rw [Session.resolve_down h]
        rfl
  | receive => rfl
  | beside e => exact (c.session.spares_incur e).resolved

/-- The peer gets the methods of the calls that returned, in the order of the calls. -/
theorem resolved_run (steps : List Step) :
    (c.run steps).session.resolved =
      ((c.settlements steps).filterMap Settlement.sent?).reverse ++ c.session.resolved := by
  induction steps generalizing c with
  | nil => rfl
  | cons a steps ih =>
    -- the newest method stands first, so that of the first step comes behind all later ones
    have hlast : ∀ x : Option Settlement,
        (x.toList.filterMap Settlement.sent?).reverse = (x.bind Settlement.sent?).toList := by
      rintro (_ | x)
      · rfl
      · cases h : x.sent? <;> simp [h]
    calc ((c.step a).run steps).session.resolved
        = (((c.step a).settlements steps).filterMap Settlement.sent?).reverse ++
            (((c.settlement? a).bind Settlement.sent?).toList ++ c.session.resolved) := by
          rw [ih, resolved_step]
      _ = _ := by
          rw [settlements, List.filterMap_append, List.reverse_append, hlast, List.append_assoc]

theorem held_step (a : Step) :
    (((c.settlement? a).map (·.delivery)).toList ++ (c.step a).held).Perm
      (c.held ++ (c.yield? a).toList) := by
  cases a with
  | next =>
    unfold step settlement? yield?
    rcases c.session.next with ⟨_ | _, session⟩ <;> simp
  | resolve k how =>
    cases hk : c.held[k]? with
    | none => simp [step, settlement?, yield?, hk]
    | some d =>
      -- what is taken from its place and put in front is the same list in another order
      obtain ⟨hlt, hd⟩ := List.getElem?_eq_some_iff.mp hk
      simp only [step, settlement?, yield?, hk, Option.map_some, Option.toList_some,
        Option.toList_none, List.append_nil, List.singleton_append]
      exact hd ▸ List.getElem_cons_eraseIdx_perm hlt
  | receive => simp [step, settlement?, yield?]
  | beside => simp [step, settlement?, yield?]

/-- Each delivery that is handed out is resolved once, or is still held. -/
theorem held_run (steps : List Step) :
    ((c.settlements steps).map (·.delivery) ++ (c.run steps).held).Perm
      (c.held ++ c.yielded steps) := by
  induction steps generalizing c with
  | nil => simp [settlements, yielded, run]
  | cons a steps ih =>
    have hmap : (c.settlement? a).toList.map (·.delivery) =
        ((c.settlement? a).map (·.delivery)).toList := by cases c.settlement? a <;> rfl
    rw [settlements, yielded, List.map_append, hmap, List.append_assoc, ← List.append_assoc c.held]
    have hlater := (ih (c.step a)).append_left ((c.settlement? a).map (·.delivery)).toList
    refine hlater.trans ?_
    rw [← List.append_assoc]
    exact (c.held_step a).append_right _

theorem waits_step {a : Step} {d : Broker.Delivery} (h : (c.step a).session.Waits d) :
    c.session.Waits d ∨ ∃ consumer x, a = .receive consumer x ∧ d = x.delivery := by
  cases a with
  | next =>
    have hnext := c.session.next_spares.1.drains d
    unfold step at h
    generalize c.session.next = polled at hnext h
    rcases polled with ⟨_ | _, session⟩ <;> exact .inl (hnext h)
  | resolve k how =>
    unfold step at h
    dsimp only at h
    split at h
    · exact .inl (Session.drains_resolve _ how _ d h)
    · exact .inl h
  | receive consumer x =>
    exact (Session.waits_receive h).imp_right fun hd => ⟨consumer, x, rfl, hd⟩
  | beside e => exact .inl ((c.session.spares_incur e).drains d h)

theorem waits_of_yield? {a : Step} {d : Broker.Delivery} (h : c.yield? a = some d) :
    c.session.Waits d := by
  cases a with
  | next =>
    refine c.session.next_spares.2 d ?_
    dsimp only [yield?] at h
    split at h
    · rename_i d' hnext
      rw [hnext, Option.some.inj h]
    · cases h
  | resolve | receive | beside => cases h

theorem mem_yielded {steps : List Step} {d : Broker.Delivery} (h : d ∈ c.yielded steps) :
    c.session.Waits d ∨ ∃ consumer x, .receive consumer x ∈ steps ∧ d = x.delivery := by
  induction steps generalizing c with
  | nil => cases h
  | cons a steps ih =>
    rcases List.mem_append.mp h with h | h
    · exact .inl (c.waits_of_yield? (Option.mem_toList.mp h))
    · rcases ih (c.step a) h with h | ⟨consumer, x, hx, hd⟩
      · refine (c.waits_step h).imp_right ?_
        rintro ⟨consumer, x, rfl, hd⟩
        exact ⟨consumer, x, List.mem_cons_self, hd⟩
      · exact .inr ⟨consumer, x, List.mem_cons_of_mem _ hx, hd⟩

end Client
end CargoEvents.Amqp
