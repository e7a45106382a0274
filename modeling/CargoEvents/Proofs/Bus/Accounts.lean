import CargoEvents.Proofs.Bus.Deeds

/-! # What is reported

Errors that no caller waits for are reported to the sink of the bus. What is due can be told from what
its dispatchers meet. The account below is kept of this alone, and the reports of a run are what falls
due in it, turn by turn.
-/
namespace CargoEvents
variable {H : Type}

/-- A delivery that is in hand. -/
structure Errand (H : Type) where
  delivery : Broker.Delivery
  /-- The handler that was found when the delivery was taken. -/
  found : Option (Registration H)
  /-- What the handler returned, once it has run. -/
  result : Option (Except HandlerError Unit) := none
  deriving DecidableEq

/-- Why the delivery was not handled, as it is reported. A missing handler is no error. -/
def Errand.failure (x : Errand H) : List BusError :=
  match x.found with
  | none => []
  | some r => match r.decode x.delivery.body, x.result with
    | .error e, _ => [.decodeFailed x.delivery.tag e]
    | .ok _, some (.error e) => [.handlerFailed r.kind.name x.delivery.tag e]
    | .ok _, _ => []

inductive Turn (H : Type)
  | fault (dispatcher : Nat) (e : BrokerError)
  | delivery (dispatcher : Nat) (errand : Errand H) (refusal : Option BrokerError) (stopping : Bool)
  deriving DecidableEq

namespace Turn

/-- What is due for a turn: an error of the stream; or a refusal, unless the bus is told to stop,
and then the failure. -/
def owes : Turn H → List BusError
  | fault _ e => [.transportError e]
  | delivery _ errand refusal stopping =>
    (if stopping then [] else refusal.toList.map .acknowledgementFailed) ++ errand.failure

def delivery? (k : Nat) : Turn H → Option Broker.Delivery
  | delivery l errand _ _ => if k = l then some errand.delivery else none
  | fault .. => none

end Turn

/-- What dispatchers of a bus have in hand, and what they have finished, in the order of time. -/
structure Account (H : Type) where
  hands : Nat → Option (Errand H) := fun _ => none
  turns : List (Turn H) := []

namespace Account

def hand (a : Account H) (k : Nat) (errand : Option (Errand H)) : Account H :=
  { a with hands := fun l => if l = k then errand else a.hands l }

def enter (a : Account H) (k : Nat) : Deed H → Account H
  | .fault e => { a with turns := a.turns ++ [.fault k e] }
  | .taken d found => a.hand k (some { delivery := d, found })
  | .returned result => a.hand k ((a.hands k).map fun errand => { errand with result := some result })
  | .resolved refusal stopping => { a.hand k none with
      turns := a.turns ++ (a.hands k).toList.map fun errand => .delivery k errand refusal stopping }

def record (a : Account H) (i : Nat) : Option (Nat × Nat × Deed H) → Account H
  | some (j, k, deed) => if j = i then a.enter k deed else a
  | none => a

end Account

namespace Network
variable {s t : Network H} {i k l : Nat} {bus : Bus H}

/-! ## Turns -/

/-- What a dispatcher has in hand where it stands. What it had when it panicked stays there. -/
inductive InHand : Option (Errand H) → Option (Position H) → Prop
  | absent : InHand none none
  | pulling : InHand none (some .pulling)
  | handling {d : Broker.Delivery} {r : Registration H} {e : Event} (h : r.decode d.body = .ok e) :
      InHand (some { delivery := d, found := some r }) (some (.handling d r e))
  | succeeded {d : Broker.Delivery} {r : Registration H} {e : Event} (h : r.decode d.body = .ok e) :
      InHand (some { delivery := d, found := some r, result := some (.ok ()) })
        (some (.acknowledging d))
  | missing {d : Broker.Delivery} :
      InHand (some { delivery := d, found := none }) (some (.pausing d .unroutable))
  | undecodable {d : Broker.Delivery} {r : Registration H} {e : CodecError}
      (h : r.decode d.body = .error e) :
      InHand (some { delivery := d, found := some r }) (some (.pausing d (.undecodable e)))
  | failed {d : Broker.Delivery} {r : Registration H} {e : Event} {error : HandlerError}
      (h : r.decode d.body = .ok e) :
      InHand (some { delivery := d, found := some r, result := some (.error error) })
        (some (.pausing d (.failed r.routingKey error)))
  | ended (hand : Option (Errand H)) : InHand hand (some .ended)

theorem InHand.lapses {hand : Option (Errand H)} {p p' : Option (Position H)} (h : InHand hand p)
    (hp : Lapses p p') : InHand hand p' := by
  rcases hp with rfl | ⟨rfl, rfl⟩ | rfl
  · exact h
  · cases h
    exact .pulling
  · exact .ended hand

theorem accept_inHand (registry : Registry H) (d : Broker.Delivery) :
    InHand (some { delivery := d, found := registry.get? d.kind }) (some (registry.accept d).1) := by
  unfold Registry.accept
  cases hfound : registry.get? d.kind with
  | none => exact .missing
  | some r =>
    dsimp only
    cases hdecode : r.decode d.body with
    | error e => exact .undecodable hdecode
    | ok e => exact .handling hdecode

variable {a : Account H} {p p' : Position H} {deed : Deed H} {es : List BusError}

theorem Does.inHand (h : Does bus p deed p' es) (hk : InHand (a.hands k) (some p)) :
    InHand ((a.enter k deed).hands k) (some p') := by
  cases h with
  | faulted e => exact hk
  | took d => simpa [Account.enter, Account.hand] using accept_inHand bus.registry d
  | returned d r e result =>
    generalize hhand : a.hands k = hand at hk
    cases hk with
    | handling hdecode =>
      cases result with
      | ok => simpa [Account.enter, Account.hand, hhand] using .succeeded hdecode
      | error error => simpa [Account.enter, Account.hand, hhand] using .failed hdecode
  | accepted d refusal | gaveBack d v refusal =>
    simpa [Account.enter, Account.hand] using .pulling

/-- A delivery is in hand from when it is pulled until its turn is over. -/
theorem Does.deliveries (h : Does bus p deed p' es) (hk : InHand (a.hands k) (some p)) (l : Nat) :
    (a.enter k deed).turns.filterMap (Turn.delivery? l) ++
        ((a.enter k deed).hands l).toList.map (·.delivery) =
      (a.turns.filterMap (Turn.delivery? l) ++ (a.hands l).toList.map (·.delivery)) ++
        if l = k then deed.delivery?.toList else [] := by
  generalize hhand : a.hands k = hand at hk
  cases h with
  | faulted e => simp [Account.enter, Turn.delivery?, Deed.delivery?]
  | took d =>
    cases hk
    by_cases hlk : l = k <;> simp [Account.enter, Account.hand, Deed.delivery?, hlk, hhand]
  | returned d r e result =>
    cases hk
    by_cases hlk : l = k <;> simp [Account.enter, Account.hand, Deed.delivery?, hlk, hhand]
  | accepted d refusal =>
    cases hk
    by_cases hlk : l = k <;>
      simp [Account.enter, Account.hand, Deed.delivery?, Turn.delivery?, hlk, hhand]
  | gaveBack d v refusal =>
    cases hk <;> by_cases hlk : l = k <;>
      simp [Account.enter, Account.hand, Deed.delivery?, Turn.delivery?, hlk, hhand]

theorem Does.owes (h : Does bus p deed p' es) (hk : InHand (a.hands k) (some p)) :
    (a.enter k deed).turns.flatMap Turn.owes = a.turns.flatMap Turn.owes ++ es := by
  generalize hhand : a.hands k = hand at hk
  cases h with
  | faulted e => simp [Account.enter, Turn.owes]
  | took d | returned d r e result => simp [Account.enter, Account.hand]
  | accepted d refusal =>
    cases hk with
    | succeeded hdecode =>
      simp [Account.enter, Account.hand, Turn.owes, Errand.failure, refused, hhand, hdecode]
  | gaveBack d v refusal =>
    cases hk with
    | missing =>
      simp [Account.enter, Account.hand, Turn.owes, Errand.failure, Verdict.report, refused, hhand]
    | undecodable hdecode | failed hdecode =>
      simp [Account.enter, Account.hand, Turn.owes, Errand.failure, Verdict.report, refused, hhand,
        hdecode, Registration.routingKey]

/-- The account has what is in hand, what was pulled and what was reported. -/
structure Balanced (a : Account H) (s : Network H) (i : Nat) : Prop where
  hands : ∀ k, InHand (a.hands k) (s.position? i k)
  pulls : ∀ k, s.pulls i k =
    a.turns.filterMap (Turn.delivery? k) ++ (a.hands k).toList.map (·.delivery)
  reports : s.reports i = a.turns.flatMap Turn.owes

theorem enter_hands_of_ne (a : Account H) (deed : Deed H) (h : l ≠ k) :
    (a.enter k deed).hands l = a.hands l := by
  cases deed <;> simp [Account.enter, Account.hand, h]

theorem Balanced.step {x : Happening H} (h : Balanced a s i) (hcourse : Course s x t) :
    Balanced (a.record i (s.deed? x)) t i := by
  cases hcourse with
  | idle hdeed hp hpulls hr =>
    rw [hdeed]
    exact ⟨fun k => (h.hands k).lapses (hp i k), fun k => (hpulls i k).trans (h.pulls k),
      (hr i).trans h.reports⟩
  | @did j k bus p p' deed es hdeed hdoes hold hp hpulls hr =>
    rw [hdeed, Account.record]
    by_cases hji : j = i
    · subst hji
      rw [if_pos rfl]
      have hk : InHand (a.hands k) (some p) := hold ▸ h.hands k
      refine ⟨fun l => ?_, fun l => ?_, ?_⟩
      · rw [hp]
        by_cases hlk : l = k
        · subst hlk
          simpa using hdoes.inHand hk
        · simpa [hlk, enter_hands_of_ne a deed hlk] using h.hands l
      · rw [hpulls, h.pulls, hdoes.deliveries hk]
        simp
      · rw [hr, h.reports, hdoes.owes hk, if_pos rfl]
    · rw [if_neg hji]
      refine ⟨fun l => ?_, fun l => ?_, ?_⟩
      · rw [hp, if_neg fun h => hji h.1.symm]
        exact h.hands l
      · rw [hpulls, if_neg fun h => hji h.1.symm, List.append_nil, h.pulls]
      · rw [hr, if_neg (Ne.symm hji), List.append_nil, h.reports]

end Network

namespace Floor
open Network
variable {f : Floor H}

/-! ## The account of a run -/

def account (f : Floor H) (i : Nat) (a : Account H) : List (Happening H) → Account H
  | [] => a
  | x :: xs => (f.happen x).account i (a.record i (f.network.deed? x)) xs

theorem Sound.account (h : f.Sound) {a : Account H} {i : Nat} (hbalanced : Balanced a f.network i)
    (xs : List (Happening H)) : Balanced (f.account i a xs) (f.run xs).network i := by
  induction xs generalizing f a with
  | nil => exact hbalanced
  | cons x xs ih => exact ih (h.happen x) (hbalanced.step (h.course x))

theorem balanced_empty (i : Nat) : Balanced ({} : Account H) ({} : Network H) i :=
  ⟨fun _ => .absent, fun _ => rfl, rfl⟩

/-- Every error is reported as it falls due, and nothing else. Whatever callers, dispatchers, handlers
and operators do, in whatever order: what the sink of a bus was told is what is due for the turns of
its dispatchers, one after the other. That is the error, for an item of the stream that is one; and for
a delivery the refusal, if resolving it was refused while the bus was not told to stop, then the
decoding error or the handler's, if the handler that was found when the delivery was taken could not
decode it or has failed. Every delivery that was pulled has its turn, but the last one if it is still
in hand. No turn ends the dispatcher, whatever was reported. -/
theorem reports_accounted (xs : List (Happening H)) (i : Nat) :
    let f := run {} xs
    let a := account {} i {} xs
    f.network.reports i = a.turns.flatMap Turn.owes ∧
    (∀ k, f.network.pulls i k =
      a.turns.filterMap (Turn.delivery? k) ++ (a.hands k).toList.map (·.delivery)) ∧
    ∀ x k deed, f.network.deed? x = some (i, k, deed) →
      (a.enter k deed).turns ≠ a.turns → (f.happen x).network.position? i k = some .pulling := by
  intro f a
  have hsound : f.Sound := sound_empty.run xs
  have hbalanced : Balanced a f.network i := sound_empty.account (balanced_empty i) xs
  refine ⟨hbalanced.reports, hbalanced.pulls, fun x k deed hdeed hturn => ?_⟩
  cases hsound.course x with
  | idle hnone =>
    rw [hdeed] at hnone
    cases hnone
  | did hsome hdoes hold hp =>
    cases hdeed.symm.trans hsome
    rw [hp, if_pos ⟨rfl, rfl⟩]
    cases hdoes with
    | faulted | accepted | gaveBack => rfl
    | took | returned => exact absurd rfl hturn

/-- The stream has an error, and the next delivery cannot be decoded and cannot be given back. -/
theorem reports_accounted_refused :
    let xs : List (Happening Nat) := [.other (.build { service := "s" } .receiver []),
      .call 0 (.subscribe .newCargoBooked 1), .proceed 0, .proceed 0, .proceed 0, .call 0 .start] ++
      List.replicate 4 (.proceed 1) ++
      [.other (.beside (.operate (.failNextDelivery "lost"))), .other (.pull 0 0),
        .other (.beside (.operate (.inject "shipping" EventKind.newCargoBooked.name none [0x0a]))),
        .other (.pull 0 0), .other (.fault 0 [("nack", .sessionClosed)])]
    let last : Happening Nat := .other (.resume 0 0)
    let f := run {} (xs ++ [last])
    f.network.reports 0 = [.transportError (.consumeFailed "lost"),
      .acknowledgementFailed .sessionClosed, .decodeFailed 1 (.decode "NewCargoBooked"
        "failed to decode Protobuf message: NewCargoBooked.tracking_id: invalid varint")] ∧
    f.network.position? 0 0 = some .pulling := by
  intro xs last f
  have hf : run {} (xs ++ [last]) = f := rfl
  have hdeed : (run {} xs).network.deed? last =
      some (0, 0, .resolved (some .sessionClosed) false) := by decide +kernel
  have hturn : ((account {} 0 {} xs).enter 0 (.resolved (some .sessionClosed) false)).turns ≠
      (account {} 0 {} xs).turns := by decide +kernel
  have hreports := (reports_accounted (xs ++ [last]) 0).1
  have hposition := (reports_accounted xs 0).2.2 last 0 _ hdeed hturn
  rw [hf] at hreports
  rw [← run_nil ((run {} xs).happen last), ← run_cons, ← run_append, hf] at hposition
  clear_value f
  exact ⟨hreports.trans (by decide +kernel), hposition⟩

end Floor
end CargoEvents
