import CargoEvents.Proofs.Bus.Floors

/-! # Handlers of a bus run one after the other

A bus has one dispatcher that runs at most, and that one handles what it pulled before it pulls
again. So what is told of the handlers of a bus is a word in which each entry of a handler is
followed by the end of the same run (`InTurn`), and the last one is open if and only if a
dispatcher is where it handles (`Serial`).
-/
namespace CargoEvents
variable {H : Type}

/-- The entry, if it tells that a handler of bus `i` begins or ends. -/
def Entry.handling? (i : Nat) (e : Entry H) : Option (Entry H) :=
  match e with
  | .entered j .. | .left j .. | .panicked j .. => if j = i then some e else none
  | _ => none

def Position.handles : Position H → Bool
  | .handling .. => true
  | _ => false

namespace Network
variable {s t : Network H} {i j k l : Nat} {bus : Bus H} {d : Broker.Delivery}
  {r : Registration H} {e : Event}
open Broker (Polled Stream)

theorem ofDeliveries_handling (i : Nat) : OfDeliveries (Entry.handling? (H := H) i) :=
  ⟨fun _ _ => rfl, fun _ => rfl, fun _ _ _ _ => rfl, fun _ _ _ => rfl⟩

structure Run (H : Type) where
  dispatcher : Nat
  delivery : Broker.Delivery
  registration : Registration H
  event : Event

def Run.position (x : Run H) : Position H := .handling x.delivery x.registration x.event

theorem Run.ne_position {p : Position H} (hp : p.handles = false) (x : Run H) : p ≠ x.position := by
  rintro rfl
  cases hp

def Run.entry (i : Nat) (x : Run H) : Entry H :=
  .entered i x.dispatcher x.delivery x.registration x.event

/-- What is told of the handlers of bus `i`, if each run ends before the next begins. The last
run goes on, or none does. -/
inductive InTurn (i : Nat) : Option (Run H) → List (Entry H) → Prop
  | idle : InTurn i none []
  | entered {word : List (Entry H)} (h : InTurn i none word) (x : Run H) :
      InTurn i (some x) (word ++ [x.entry i])
  | left {word : List (Entry H)} {x : Run H} (h : InTurn i (some x) word)
      (result : Except HandlerError Unit) :
      InTurn i none (word ++ [.left i x.dispatcher x.delivery result])
  | panicked {word : List (Entry H)} {x : Run H} (h : InTurn i (some x) word) :
      InTurn i none (word ++ [.panicked i x.dispatcher x.delivery])

variable {running : Option (Run H)} {word before after : List (Entry H)} {x : Run H}
  {y z : Entry H}

theorem InTurn.last (h : InTurn i running word) :
    word.getLast? = some (x.entry i) ↔ running = some x := by
  cases h with
  | idle => simp
  | entered h y =>
    rw [List.getLast?_concat, Option.some.injEq, Option.some.injEq]
    constructor
    · intro heq
      cases x
      cases y
      simpa [Run.entry] using heq
    · rintro rfl
      rfl
  | left | panicked => simp [Run.entry]

/-- Of a word that goes on with `z` after an entry, the last is beyond `z`, or is `z`. -/
theorem InTurn.cut (h : InTurn i running word)
    (hword : word ++ [y] = before ++ x.entry i :: z :: after) :
    (∃ after', word = before ++ x.entry i :: z :: after') ∨ running = some x ∧ y = z := by
  rcases List.eq_nil_or_concat after with rfl | ⟨after', a, rfl⟩
  · have hcut : word ++ [y] = (before ++ [x.entry i]) ++ [z] := by simp [hword]
    obtain ⟨hword, hyz⟩ := List.append_inj' hcut rfl
    refine .inr ⟨h.last.mp ?_, List.singleton_inj.mp hyz⟩
    rw [hword, List.getLast?_concat]
  · have hcut : word ++ [y] = (before ++ x.entry i :: z :: after') ++ [a] := by simp [hword]
    exact .inl ⟨after', (List.append_inj' hcut rfl).1⟩

theorem InTurn.next (h : InTurn i running word)
    (hword : word = before ++ x.entry i :: z :: after) :
    (∃ result, z = .left i x.dispatcher x.delivery result) ∨
      z = .panicked i x.dispatcher x.delivery := by
  induction h generalizing after with
  | idle => simp at hword
  | entered h y ih =>
    rcases h.cut hword with ⟨after', hword⟩ | ⟨hnone, -⟩
    · exact ih hword
    · cases hnone
  | left h result ih =>
    rcases h.cut hword with ⟨after', hword⟩ | ⟨hx, rfl⟩
    · exact ih hword
    · obtain rfl := Option.some.inj hx
      exact .inl ⟨result, rfl⟩
  | panicked h ih =>
    rcases h.cut hword with ⟨after', hword⟩ | ⟨hx, rfl⟩
    · exact ih hword
    · obtain rfl := Option.some.inj hx
      exact .inr rfl

/-- The handlers of bus `i` run in turn, and a dispatcher that handles has the last run. -/
def Serial (s : Network H) (i : Nat) : Prop :=
  ∃ running, InTurn i running (s.told (Entry.handling? i)) ∧
    ∀ x : Run H, s.position? i x.dispatcher = some x.position ↔ running = some x

theorem serial_empty (i : Nat) : ({} : Network H).Serial i := by
  refine ⟨none, .idle, fun x => ?_⟩
  simp [position?, dispatcher?]

theorem Serial.still (h : s.Serial i) (hp : ∀ x : Run H,
      t.position? i x.dispatcher = some x.position ↔ s.position? i x.dispatcher = some x.position)
    (ht : t.told (Entry.handling? i) = s.told (Entry.handling? i)) : t.Serial i := by
  obtain ⟨running, hword, hruns⟩ := h
  exact ⟨running, ht ▸ hword, fun x => (hp x).trans (hruns x)⟩

/-! ## Steps of dispatchers -/

variable {p p' : Position H}

theorem Serial.idles (h : s.Serial i) (hd : s.position? j k = some p)
    (hnew : ∀ m l, t.position? m l = if m = j ∧ l = k then some p' else s.position? m l)
    (ht : t.told (Entry.handling? i) = s.told (Entry.handling? i))
    (hp : p.handles = false) (hp' : p'.handles = false) : t.Serial i := by
  refine h.still (fun x => ?_) ht
  rw [hnew]
  split
  · rename_i hown
    obtain ⟨rfl, hk⟩ := hown
    rw [hk, hd, Option.some.injEq, Option.some.injEq]
    exact iff_of_false (x.ne_position hp') (x.ne_position hp)
  · rfl

theorem Serial.enters (h : s.Serial i) (hs : s.Lively) {x : Run H}
    (hd : s.position? i x.dispatcher = some .pulling)
    (hnew : ∀ l, t.position? i l = if l = x.dispatcher then some x.position else s.position? i l)
    (ht : t.told (Entry.handling? i) = s.told (Entry.handling? i) ++ [x.entry i]) :
    t.Serial i := by
  obtain ⟨running, hword, hruns⟩ := h
  have hnone (y : Run H) : s.position? i y.dispatcher ≠ some y.position := by
    intro hy
    have hyx := hs.alone hy rfl hd rfl
    rw [hyx, hd] at hy
    cases hy
  obtain rfl : running = none := Option.eq_none_iff_forall_ne_some.mpr fun y hy =>
    hnone y ((hruns y).mpr hy)
  refine ⟨some x, ht ▸ hword.entered x, fun y => ?_⟩
  rw [hnew]
  split
  · rename_i hyx
    rw [Option.some.injEq, Option.some.injEq]
    constructor
    · intro hpos
      cases x
      cases y
      simp_all [Run.position]
    · rintro rfl
      rfl
  · rename_i hyx
    refine iff_of_false (hnone y) fun hxy => hyx ?_
    rw [Option.some.inj hxy]

theorem Serial.leaves (h : s.Serial i) (hs : s.Lively) {x : Run H}
    (hd : s.position? i x.dispatcher = some x.position) (hp' : p'.handles = false)
    (hnew : ∀ l, t.position? i l = if l = x.dispatcher then some p' else s.position? i l)
    (ht : t.told (Entry.handling? i) = s.told (Entry.handling? i) ++ [y])
    (hy : (∃ result, y = .left i x.dispatcher x.delivery result) ∨
      y = .panicked i x.dispatcher x.delivery) : t.Serial i := by
  obtain ⟨running, hword, hruns⟩ := h
  obtain rfl := (hruns x).mp hd
  refine ⟨none, ?_, fun z => iff_of_false ?_ nofun⟩
  · rw [ht]
    rcases hy with ⟨result, rfl⟩ | rfl
    · exact hword.left result
    · exact hword.panicked
  · rw [hnew]
    split
    · exact fun hz => z.ne_position hp' (Option.some.inj hz)
    · rename_i hne
      exact fun hz => hne (hs.alone hz rfl hd rfl)

theorem resolving_handling (bus : Bus H) (j : Nat) (refusal : Option BrokerError)
    (p : Position H) (i : Nat) : (resolving bus j refusal p).filterMap (Entry.handling? i) = [] := by
  have hrefused : (resolving.refused bus j refusal).filterMap (Entry.handling? i) = [] := by
    unfold resolving.refused
    split
    · rfl
    · simp [Entry.handling?]
  cases p with
  | pulling | handling | ended => rfl
  | acknowledging | pausing => exact hrefused

theorem Serial.others (h : s.Serial i) (hij : j ≠ i)
    (hnew : ∀ m l, t.position? m l = if m = j ∧ l = k then some p' else s.position? m l)
    (ht : t.told (Entry.handling? i) = s.told (Entry.handling? i)) : t.Serial i := by
  refine h.still (fun x => ?_) ht
  rw [hnew, if_neg fun hown => hij hown.1.symm]

theorem entering_handling (j k : Nat) (p : Position H) (i : Nat) :
    (entering j k p).filterMap (Entry.handling? i) = if j = i then entering j k p else [] := by
  cases p with
  | handling => by_cases hij : j = i <;> simp [entering, Entry.handling?, hij]
  | pulling | acknowledging | pausing | ended => simp [entering]

theorem Serial.received (h : s.Serial i) (hs : s.Lively) (registry : Registry H) (polled : Polled)
    (hd : s.position? j k = some .pulling)
    (hnew : ∀ m l, t.position? m l = if m = j ∧ l = k then some (received registry j k polled).1
      else s.position? m l)
    (ht : t.told (Entry.handling? i) = s.told (Entry.handling? i) ++
      (received registry j k polled).2.filterMap (Entry.handling? i)) : t.Serial i := by
  have hstill {p : Position H}
      (hnew : ∀ m l, t.position? m l = if m = j ∧ l = k then some p else s.position? m l)
      (ht : t.told (Entry.handling? i) = s.told (Entry.handling? i) ++ [])
      (hp : p.handles = false) : t.Serial i :=
    h.idles hd hnew (ht.trans (List.append_nil _)) rfl hp
  cases polled with
  | pending | ended | fault => exact hstill hnew ht rfl
  | delivery d =>
    have hpulled : (Entry.pulled j k d :: entering j k (registry.accept d).1).filterMap
        (Entry.handling? i) = _ := entering_handling j k (registry.accept d).1 i
    rw [Network.received, hpulled] at ht
    by_cases hij : j = i
    · subst hij
      rw [if_pos rfl] at ht
      simp only [Network.received] at hnew
      generalize (registry.accept d).1 = p at hnew ht
      cases p with
      | handling d r e =>
        refine h.enters hs (x := ⟨k, d, r, e⟩) hd (fun l => ?_) ht
        simpa [Run.position] using hnew j l
      | pulling | acknowledging | pausing | ended => exact hstill hnew ht rfl
    · rw [if_neg hij, List.append_nil] at ht
      exact h.others hij hnew ht

theorem Serial.moved (h : s.Serial i) (hs : s.Lively) {st st' : Stream} {b' : Broker}
    {a : Act H} {es : List (Entry H)}
    (hd : s.dispatcher? j k = some (bus, { stream := st, position := p }))
    (hm : Move s.broker bus j k st p a b' st' p' es)
    (hnew : ∀ m l, t.position? m l = if m = j ∧ l = k then some p' else s.position? m l)
    {refusal : Option BrokerError} (ht : t.told (Entry.handling? i) =
      s.told (Entry.handling? i) ++ (es ++ resolving bus j refusal p).filterMap (Entry.handling? i)) :
    t.Serial i := by
  have hd : s.position? j k = some p := position?_of_dispatcher hd
  rw [List.filterMap_append, resolving_handling, List.append_nil] at ht
  have hleaves {d : Broker.Delivery} {r : Registration H} {e : Event} {y : Entry H}
      (hp : p = .handling d r e) (hes : es = [y]) (hp' : p'.handles = false)
      (hy : (∃ result, y = .left j k d result) ∨ y = .panicked j k d) : t.Serial i := by
    have hown : [y].filterMap (Entry.handling? i) = if j = i then [y] else [] := by
      rcases hy with ⟨result, rfl⟩ | rfl <;>
        by_cases hij : j = i <;> simp [Entry.handling?, hij]
    subst hp hes
    rw [hown] at ht
    by_cases hij : j = i
    · subst hij
      rw [if_pos rfl] at ht
      refine h.leaves hs (x := ⟨k, d, r, e⟩) hd hp' (fun l => ?_) ht hy
      simpa using hnew j l
    · rw [if_neg hij, List.append_nil] at ht
      exact h.others hij hnew ht
  cases hm with
  | stopped | acknowledged | unacknowledged | resumed | unresumed =>
    exact h.idles hd hnew (ht.trans (List.append_nil _)) rfl rfl
  | looked => exact h.received hs bus.registry _ hd hnew ht
  | completed d r e result =>
    refine hleaves rfl rfl ?_ (.inl ⟨result, rfl⟩)
    cases result <;> rfl
  | panicked d r e => exact hleaves rfl rfl rfl (.inr rfl)

theorem Serial.started (h : s.Serial i) (hn : s.position? j k = none)
    (hnew : ∀ m l, t.position? m l = if m = j ∧ l = k then some .pulling else s.position? m l)
    (ht : t.told (Entry.handling? i) = s.told (Entry.handling? i)) : t.Serial i := by
  refine h.still (fun x => ?_) ht
  rw [hnew]
  split
  · rename_i hown
    rw [hown.1, hown.2, hn]
    exact iff_of_false nofun nofun
  · rfl

theorem Serial.perform (h : s.Serial i) (hs : s.Lively) (a : Act H) : (s.perform a).Serial i := by
  cases s.perform_shift a with
  | still _ hp ht => exact h.still (fun x => by rw [hp]) (ht (ofDeliveries_handling i))
  | started _ hn hp ht => exact h.started hn hp (ht (ofDeliveries_handling i))
  | moved hd hm _ hp ht =>
    obtain ⟨refusal, ht⟩ := ht
    exact h.moved hs hd hm hp (ht (ofDeliveries_handling i))

theorem Serial.receive (h : s.Serial i) (hs : s.Lively) (j k : Nat) (polled : Polled) :
    (s.receive j k polled).Serial i := by
  rcases s.receive_cases j k polled with heq | ⟨bus, st, hd, heq, hm⟩
  · exact heq.symm ▸ h
  · have hgoes : Goes [] s _ := s.take_goes j k polled
    obtain ⟨refusal, ht⟩ := hm.told
    have ht := ht (ofDeliveries_handling i)
    rw [List.filterMap_append, resolving_handling, List.append_nil] at ht
    rw [heq]
    exact h.received hs bus.registry polled (position?_of_dispatcher hd)
      (hm.buses.position? hd hgoes.length) ht

/-! ## Steps of callers -/

variable {q : Request H} {p p' : Phase q}

theorem Meek.serial (h : s.Meek t) (hs : s.Serial i) : t.Serial i :=
  hs.still (fun x => by rw [h.position]) (h.told (ofDeliveries_handling i))

theorem Stride.serial (h : Stride s j p p' t) (hs : s.Serial i) (hb : s.buses[j]? = some bus) :
    t.Serial i := by
  have honBus {f : Bus H → Bus H} (hf : ∀ b, (f b).dispatchers = b.dispatchers) :
      (s.onBus j f).Serial i := hs.still (fun x => by rw [s.position?_onBus j hf]) rfl
  cases h with
  | meek h => exact h.serial hs
  | shut => exact (s.shut_meek j).serial hs
  | launched st =>
    refine hs.started (k := bus.dispatchers.length) ?_ (position?_withDispatcher hb st) rfl
    rw [position?_eq, hb]
    simp
  | drained | stopped | closed => exact honBus fun _ => rfl

end Network

namespace Floor
open Network
variable {f : Floor H} {i : Nat}

theorem Sound.serial_happen (h : f.Sound) (hs : f.network.Serial i) (x : Happening H) :
    (f.happen x).network.Serial i := by
  cases x with
  | call j q =>
    simp only [Floor.happen]
    split <;> exact hs
  | proceed c =>
    rcases h.proceed_cases c with heq | ⟨j, q, p, p', bus, t, -, hb, -, -, hstride, heq⟩
    · simp only [Floor.happen, heq]
      exact hs
    · simp only [Floor.happen, heq]
      exact hstride.serial hs hb
  | leave c => exact hs
  | yielded j k polled => exact hs.receive h.lively j k polled
  | other a =>
    simp only [Floor.happen]
    split
    · exact hs
    · exact hs.perform h.lively a

theorem Sound.serial_run (h : f.Sound) (hs : f.network.Serial i) (xs : List (Happening H)) :
    (f.run xs).network.Serial i := by
  induction xs generalizing f with
  | nil => exact hs
  | cons x xs ih => exact ih (h.happen x) (h.serial_happen hs x)

/-- Handling is serial. Whatever callers of a bus, its dispatchers and the broker do: one
dispatcher of the bus is not ended at most. After the entry of a handler the next that is told of
handlers of the bus is how this run ended, or nothing is told. And a handler is in flight, which
is that of one run at most, if and only if its entry is the last. -/
theorem handled_in_turn (xs : List (Happening H)) (i : Nat) :
    let s := (run {} xs).network
    let word := s.told (Entry.handling? i)
    (∀ k l p q, s.position? i k = some p → p.isEnded = false → s.position? i l = some q →
      q.isEnded = false → k = l) ∧
    (∀ before k d r e y after, word = before ++ .entered i k d r e :: y :: after →
      (∃ result, y = .left i k d result) ∨ y = .panicked i k d) ∧
    (∀ k d r e, s.position? i k = some (.handling d r e) ↔
      word.getLast? = some (.entered i k d r e)) := by
  intro s word
  have hsound : (run {} xs).Sound := sound_empty.run xs
  obtain ⟨running, hword, hruns⟩ := sound_empty.serial_run (serial_empty i) xs
  refine ⟨fun k l p q => hsound.lively.alone, fun before k d r e y after heq => ?_,
    fun k d r e => ?_⟩
  · exact hword.next (x := ⟨k, d, r, e⟩) heq
  · exact (hruns ⟨k, d, r, e⟩).trans (hword.last (x := ⟨k, d, r, e⟩)).symm

/-- The stream of a dispatcher ends while its handler runs. Once it has returned and the delivery
is back, the bus starts again, and closes while the handler runs under a new dispatcher. -/
theorem handled_in_turn_restarted :
    let xs : List (Happening Unit) := [.other (.build { service := "s" } .receiver []),
      .call 0 (.subscribe .newCargoBooked ()), .proceed 0, .proceed 0, .proceed 0,
      .other (.beside (.operate (.inject defaultExchange "NewCargoBooked" none []))),
      .call 0 .start] ++ List.replicate 4 (.proceed 1) ++ [.other (.pull 0 0),
      .other (.beside (.operate .cancelConsumers)), .other (.complete 0 0 (.error (.other "busy"))),
      .other (.resume 0 0), .other (.pull 0 0), .call 0 .start] ++ List.replicate 4 (.proceed 2) ++
      [.other (.pull 0 1), .call 0 .close] ++ List.replicate 5 (.proceed 3)
    let s := (run {} xs).network
    s.position? 0 0 = some .ended ∧ ∃ d r e, s.position? 0 1 = some (.handling d r e) ∧
      (s.told (Entry.handling? 0)).getLast? = some (.entered 0 1 d r e) ∧
      ∀ k p, s.position? 0 k = some p → p.isEnded = false → 1 = k := by
  intro xs s
  have hended : s.position? 0 0 = some .ended := by decide +kernel
  have hhandles : (s.position? 0 1).map Position.handles = some true := by decide +kernel
  obtain ⟨p, hp, hhandles⟩ := Option.map_eq_some_iff.mp hhandles
  have hturn := handled_in_turn xs 0
  cases p with
  | handling d r e =>
    refine ⟨hended, d, r, e, hp, (hturn.2.2 1 d r e).mp hp, fun k q hq hqe => ?_⟩
    exact hturn.1 1 k _ q hp rfl hq hqe
  | pulling | acknowledging | pausing | ended => cases hhandles

end Floor
end CargoEvents
