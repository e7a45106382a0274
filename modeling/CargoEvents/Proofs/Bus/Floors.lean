import CargoEvents.Proofs.Bus.Easing

/-! # What callers with the lock know

One caller of a bus has its lock at most, and what it has seen of the state, and has made of it,
holds until its next step: no other caller changes the state, and the end of a stream changes
only that of a bus that consumes (`Floor.Sound`). Each step of a caller is a `Stride`, and the
`Phase` it gets to says what it knows then.
-/
namespace CargoEvents
variable {H : Type}

namespace Network
variable {new : List (String × BrokerError)} {s t : Network H} {i k : Nat} {bus : Bus H}
open Broker (Polled Stream)

/-! ## Stages -/

/-- A caller asked the session something, or registered a handler: states and dispatchers are as
they were. -/
structure Meek (s t : Network H) : Prop where
  goes : Goes [] s t
  lives : t.lives = s.lives
  broker : ∃ actions, t.broker = s.broker.run actions
  ordered : s.Ordered → t.Ordered
  position : ∀ j l, t.position? j l = s.position? j l
  told : ∀ {α : Type} {f : Entry H → Option α}, OfDeliveries f → t.told f = s.told f

theorem Quiet.meek (h : s.Quiet t) (hg : Goes [] s t) (hl : t.lives = s.lives) : s.Meek t :=
  ⟨hg, hl, h.broker.imp fun _ h => h.1, h.ordered, h.position?, h.told⟩

theorem Called.meek (h : s.Called t) : s.Meek t := h.quiet.meek h.goes (lives_eq_of_called h)

theorem Meek.refl (s : Network H) : s.Meek s := (Called.refl s).meek

theorem publishOver_meek (s : Network H) (i : Nat) (e : Event) : s.Meek (publishOver i e s).2 :=
  (s.publishOver_quiet i e).meek (s.publishOver_goes i e) (s.publishOver_lives i e)

theorem shut_meek (s : Network H) (i : Nat) : s.Meek (s.shut i) := by
  have hclosed := closeSession_called i s
  refine (s.shut_quiet i).meek ?_ ?_
  · rw [shut_eq]
    exact hclosed.goes.trans (goes_onBus _ i fun _ => ⟨⟨rfl, rfl⟩, .inl rfl, fun _ h => .inl h⟩)
  · rw [shut_eq]
    refine Eq.trans (lives_onBus_self _ i fun b => ?_) (lives_eq_of_called hclosed)
    rfl

theorem withHandler_meek (s : Network H) (i : Nat) (kind : EventKind) (handler : H) :
    s.Meek (s.onBus i (withHandler kind handler)) := by
  refine ⟨?_, lives_onBus_self s i fun _ => rfl, ⟨[], rfl⟩,
    fun ho => ho.run [] rfl (s.onBus_sessions i fun _ => rfl),
    s.position?_onBus i (f := withHandler kind handler) fun _ => rfl, fun _ => rfl⟩
  exact goes_onBus s i fun _ => ⟨⟨rfl, rfl⟩, .inl rfl, fun _ h => .inl h⟩

/-- What a caller at this phase knows of the bus. -/
def Phase.Fits (bus : Bus H) : {r : Request H} → Phase r → Prop
  | _, consuming _ | _, launching _ => bus.state = .idle
  | _, draining => bus.state ≠ .closed
  | _, stopping | _, shutting | _, waiting _ => bus.state = .draining
  | .close, returned _ => bus.state = .closed
  | _, _ => True

/-- Whether a caller at this phase has closed the session. -/
def Phase.waits : {r : Request H} → Phase r → Bool
  | _, waiting _ => true
  | _, _ => false

inductive Stride (s : Network H) (i : Nat) : {r : Request H} → Phase r → Phase r → Network H → Prop
  | meek {r : Request H} {p p' : Phase r} {t : Network H} (h : s.Meek t)
      (hlock : p'.holds → p.holds ∨ p.needs) (hwaits : p'.waits = false)
      (hfits : ∀ bus, s.buses[i]? = some bus → p.Fits bus → p'.Fits bus) : Stride s i p p' t
  | launched (st : Stream) : Stride s i (.launching st) (.returned (.ok ()))
      (s.onBus i (withDispatcher st))
  | drained : Stride s i .draining .stopping (s.onBus i (·.enter .draining))
  | stopped : Stride s i .stopping .shutting (s.onBus i fun b => { b with shutdown := true })
  | shut : Stride s i .shutting (.waiting (closeSession i s).1) (s.shut i)
  | closed (closed result : Except _ _) : Stride s i (.waiting closed) (.returned result)
      (s.onBus i fun b => { b.enter .closed with closing := none })

variable {r : Request H} {p p' : Phase r}

theorem whileOpen_cases {α : Type} (act : Bus H → Call BusError (Network H) α) (s : Network H)
    (i : Nat) : whileOpen i act s = (.error .closed, s) ∨ ∃ bus, s.buses[i]? = some bus ∧
      bus.state.isTerminal = false ∧ whileOpen i act s = act bus s := by
  unfold whileOpen
  cases hb : s.buses[i]? with
  | none => exact .inl rfl
  | some bus =>
    by_cases hs : bus.state.isTerminal
    · simp [hs]
    · simp [hs]

theorem meek_whileOpen {α : Type} {act : Bus H → Call BusError (Network H) α}
    (h : ∀ bus, (act bus s).2 = s) : s.Meek (whileOpen i act s).2 := by
  rcases whileOpen_cases act s i with hw | ⟨bus, -, -, hw⟩
  · rw [hw]
    exact .refl s
  · rw [hw, h]
    exact .refl s

theorem meek_bind {α β : Type} {c : Call BusError (Network H) α} (next : α → β)
    (h : s.Meek (c s).2) : s.Meek ((c >>= fun a => pure (next a)) s).2 := by
  rcases c.bind_cases (fun a => pure (next a)) s with hb | ⟨a, -, hb⟩
  · rw [hb]
    exact h
  · rw [hb]
    exact h

theorem proceed_meek (i : Nat) (p : Phase r) (s : Network H) (hr : p.needs = false)
    (hp : p.holds = false) : s.Meek (p.proceed i s).2 := by
  cases p with
  | asking =>
    cases r with
    | publish | subscribe | restore => exact meek_whileOpen fun _ => rfl
    | start | close => cases hr
  | announcing => exact meek_bind (fun _ => _) (publishOver_meek ..)
  | binding => exact meek_bind (fun _ => _) (bind_called ..).meek
  | registering => exact withHandler_meek ..
  | declaring t left =>
    cases left with
    | nil => exact .refl s
    | cons d left => exact meek_bind (fun _ => _) ((declaration_called t d).adapt _ s).meek
  | rebinding t left =>
    cases left with
    | nil => exact .refl s
    | cons key left => exact meek_bind (fun _ => _) (bind_called ..).meek
  | returned | gone => cases r <;> exact .refl s
  | starting | consuming | launching | closing | draining | stopping | shutting | waiting => cases hp

def Request.locks : Request H → Bool
  | .start | .close => true
  | .publish _ | .subscribe .. | .restore => false

theorem Request.locks_eq_false (hstart : r ≠ .start) (hclose : r ≠ .close) : r.locks = false := by
  cases r with
  | start => exact absurd rfl hstart
  | close => exact absurd rfl hclose
  | publish | subscribe | restore => rfl

theorem Phase.free (hr : r.locks = false) (p : Phase r) :
    p.needs = false ∧ p.holds = false ∧ p.waits = false ∧ ∀ bus, p.Fits bus := by
  cases r with
  | start | close => cases hr
  | publish | subscribe | restore => cases p <;> exact ⟨rfl, rfl, rfl, fun _ => trivial⟩

theorem Stride.of_meek {p p' : Phase r} (h : s.Meek t) (hp : p.holds) (hwaits : p'.waits = false)
    (hfits : ∀ bus, s.buses[i]? = some bus → p.Fits bus → p'.Fits bus) : Stride s i p p' t :=
  .meek h (fun _ => .inl hp) hwaits hfits

/-- All that a caller can do in one step. -/
theorem proceed_stride (i : Nat) (p : Phase r) (s : Network H) :
    Stride s i p (.after (p.proceed i s).1) (p.proceed i s).2 := by
  by_cases hr : r.locks = false
  · obtain ⟨hneeds, hholds, -⟩ := Phase.free hr p
    obtain ⟨-, hholds', hwaits', hfits'⟩ := Phase.free hr (.after (p.proceed i s).1)
    refine .meek (proceed_meek i p s hneeds hholds) (fun h => ?_) hwaits' fun bus _ _ => hfits' bus
    rw [hholds'] at h
    cases h
  cases p with
  | announcing | binding | registering | declaring | rebinding => exact absurd rfl hr
  | asking =>
    cases r with
    | publish | subscribe | restore => exact absurd rfl hr
    | start | close => exact .meek (.refl s) (fun _ => .inr rfl) rfl fun _ _ h => h
  | returned | gone =>
    cases r with
    | publish | subscribe | restore => exact absurd rfl hr
    | start | close => exact .meek (.refl s) nofun rfl fun _ _ h => h
  | starting =>
    change Stride s i _ (.after (whileOpen i _ s).1) (whileOpen i _ s).2
    rcases whileOpen_cases _ s i with hw | ⟨bus, hb, hopen, hw⟩
    · rw [hw]
      exact .meek (.refl s) nofun rfl fun _ _ h => h
    · rw [hw]
      by_cases hs : bus.state = .consuming
      · simp only [hs, if_true]
        exact .meek (.refl s) nofun rfl fun _ _ h => h
      · simp only [hs, if_false]
        refine .of_meek (.refl s) rfl rfl fun bus' hb' _ => ?_
        obtain rfl : bus = bus' := Option.some.inj (hb.symm.trans hb')
        change bus.state = .idle
        cases h : bus.state <;> simp_all [BusState.isTerminal]
  | consuming config =>
    have hcalled := (consume_called (H := H) i config.topology.queue.name config.effectiveTag).adapt
      BusError.transportError s
    refine .of_meek (meek_bind _ hcalled.meek) rfl ?_ fun bus _ hidle => ?_ <;>
      rw [Phase.proceed, Call.bind_apply, Call.adapt_apply] <;>
      rcases consume i config.topology.queue.name config.effectiveTag s with ⟨e | st, t⟩
    · rfl
    · rfl
    · trivial
    · exact hidle
  | launching st => exact .launched st
  | closing =>
    have hlook : Phase.closing.proceed i s =
        (.ok (if s.buses[i]?.all (·.state = .closed) then .returned (.ok ()) else .draining), s) := rfl
    rw [hlook]
    split
    · rename_i hs
      refine .of_meek (.refl s) rfl rfl fun bus hb _ => ?_
      change bus.state = .closed
      simpa [hb] using hs
    · rename_i hs
      refine .of_meek (.refl s) rfl rfl fun bus hb _ => ?_
      change bus.state ≠ .closed
      simpa [hb] using hs
  | draining => exact .drained
  | stopping => exact .stopped
  | shutting => exact .shut
  | waiting closed => cases closed <;> exact .closed _ _

/-! ## Steps of a caller with the lock -/

theorem Meek.crashed (h : s.Meek t) : t.Crashed = s.Crashed := by
  refine funext₂ fun j l => ?_
  rw [Crashed, Crashed, diary, diary, h.told (ofDeliveries_by j l)]

theorem Meek.lively (h : s.Meek t) (hs : s.Lively) : t.Lively := by
  rw [Lively, h.lives, h.crashed]
  exact hs

end Network

namespace Life
variable {l : Life} {crashed : Nat → Prop}

theorem Sound.drained (h : l.Sound crashed) : Sound { l with state := .draining } crashed :=
  ⟨fun _ => .inr rfl, h.runs, nofun, nofun, h.crash⟩

theorem Sound.stopped (h : l.Sound crashed) (hs : l.state = .draining) :
    Sound { l with shutdown := true } crashed := by
  refine ⟨fun _ => .inr ?_, h.runs, h.idle, h.consuming, h.crash⟩
  change l.state.isTerminal
  rw [hs]
  rfl

end Life

namespace Network
variable {s t : Network H} {i : Nat} {bus : Bus H} {r : Request H} {p p' : Phase r}
open Broker (Polled Stream)

theorem Stride.lively (h : Stride s i p p' t) (hs : s.Lively) (hb : s.buses[i]? = some bus)
    (hfits : p.Fits bus) : t.Lively := by
  have hlife := hs.sound i bus.life (lives_getElem? hb)
  have honBus {f : Bus H → Bus H} (hf : (f bus).life.Sound (s.Crashed i)) :
      (s.onBus i f).Lively := by
    rw [Lively, lives_onBus hb]
    exact hs.set (lives_getElem? hb) hf
  cases h with
  | meek h => exact h.lively hs
  | shut => exact (s.shut_meek i).lively hs
  | launched st =>
    refine honBus ?_
    have hturn : bus.life.Turn _ := .started hfits
    simpa [withDispatcher, Bus.life, Bus.enter, Position.isEnded] using hlife.turn hturn
  | drained => exact honBus hlife.drained
  | stopped => exact honBus (hlife.stopped hfits)
  | closed => exact honBus (hlife.turn .closed)

theorem Stride.broker (h : Stride s i p p' t) : ∃ actions, t.broker = s.broker.run actions := by
  cases h with
  | meek h => exact h.broker
  | shut => exact (s.shut_meek i).broker
  | launched | drained | stopped | closed => exact ⟨[], rfl⟩

theorem Stride.ordered (h : Stride s i p p' t) (hs : s.Ordered) : t.Ordered := by
  have honBus {f : Bus H → Bus H} (hf : ∀ b, (f b).session = b.session) : (s.onBus i f).Ordered :=
    hs.run [] rfl (s.onBus_sessions i hf)
  cases h with
  | meek h => exact h.ordered hs
  | shut => exact (s.shut_meek i).ordered hs
  | launched | drained | stopped | closed => exact honBus fun _ => rfl

theorem Stride.others (h : Stride s i p p' t) {j : Nat} (hij : j ≠ i) {b : Bus H}
    (hb : s.buses[j]? = some b) : ∃ b', t.buses[j]? = some b' ∧ b.Eased [] b' := by
  have honBus (f : Bus H → Bus H) : (s.onBus i f).buses[j]? = some b := by
    rw [onBus, List.getElem?_modify_ne _ _ hij.symm, hb]
  cases h with
  | meek h => exact h.goes.kept j b hb
  | shut => exact (s.shut_meek i).goes.kept j b hb
  | launched | drained | stopped | closed => exact ⟨b, honBus _, .refl [] b⟩

theorem Phase.Fits.eased {new : List (String × BrokerError)} {b b' : Bus H} (h : p.Fits b)
    (he : b.Eased new b') : p.Fits b' := by
  have hsame (x : BusState) (hx : x ≠ .consuming) (hb : b.state = x) : b'.state = x := by
    rcases he.state with hs | ⟨hs, -⟩
    · exact hs.trans hb
    · exact absurd (hb.symm.trans hs) hx
  cases p with
  | asking | announcing | binding | registering | declaring | rebinding | gone => exact h
  | starting | closing => exact h
  | returned => cases r <;> first | trivial | exact hsame _ nofun h
  | consuming | launching | stopping | shutting | waiting => exact hsame _ nofun h
  | draining =>
    have hopen : b.state ≠ .closed := h
    change b'.state ≠ .closed
    rcases he.state with hs | ⟨-, hs⟩
    · rwa [hs]
    · simp [hs]

theorem Stride.own (h : Stride s i p p' t) (hb : s.buses[i]? = some bus) (hfits : p.Fits bus) :
    ∃ b', t.buses[i]? = some b' ∧ bus.Elder b' ∧ bus.state.Passes b'.state ∧ p'.Fits b' := by
  have honBus (f : Bus H → Bus H) : (s.onBus i f).buses[i]? = some (f bus) := by
    rw [onBus, List.getElem?_modify_eq, hb]
    rfl
  cases h with
  | meek h _ _ hnext =>
    obtain ⟨b', hb', he⟩ := h.goes.kept i bus hb
    exact ⟨b', hb', he.elder, he.passes, (hnext bus hb hfits).eased he⟩
  | shut =>
    obtain ⟨b', hb', he⟩ := (s.shut_meek i).goes.kept i bus hb
    exact ⟨b', hb', he.elder, he.passes, Phase.Fits.eased (p := .waiting _) hfits he⟩
  | launched st =>
    have hidle : bus.state = .idle := hfits
    exact ⟨_, honBus _, ⟨rfl, rfl⟩, hidle ▸ .started, trivial⟩
  | drained =>
    have hopen : bus.state ≠ .closed := hfits
    refine ⟨_, honBus _, ⟨rfl, rfl⟩, ?_, rfl⟩
    change bus.state.Passes .draining
    cases hs : bus.state with
    | idle | consuming => exact .drained rfl
    | draining => exact .stays _
    | closed => exact absurd hs hopen
  | stopped => exact ⟨_, honBus _, ⟨rfl, rfl⟩, .stays _, hfits⟩
  | closed =>
    have hdraining : bus.state = .draining := hfits
    exact ⟨_, honBus _, ⟨rfl, rfl⟩, hdraining ▸ .closed, rfl⟩

theorem Stride.beside (h : Stride s i p p' t) (hb : s.buses[i]? = some bus) (hfits : p.Fits bus) :
    (∃ b', t.buses[i]? = some b' ∧ bus.Eased [] b') ∨ p.holds ∧ bus.state ≠ .closed := by
  cases h with
  | meek h => exact .inl (h.goes.kept i bus hb)
  | shut => exact .inl ((s.shut_meek i).goes.kept i bus hb)
  | launched =>
    have hidle : bus.state = .idle := hfits
    exact .inr ⟨rfl, by simp [hidle]⟩
  | drained => exact .inr ⟨rfl, hfits⟩
  | stopped | closed =>
    have hdraining : bus.state = .draining := hfits
    exact .inr ⟨rfl, by simp [hdraining]⟩

theorem Stride.lock (h : Stride s i p p' t) (hp : p'.holds) : p.holds ∨ p.needs := by
  cases h with
  | meek _ hlock => exact hlock hp
  | shut | drained | stopped => exact .inl rfl
  | launched | closed => cases hp

theorem Phase.Fits.free (h : p.Fits bus) (hp : p.holds = false) :
    bus.state = .closed ∨ ∀ b : Bus H, p.Fits b := by
  cases p with
  | asking | announcing | binding | registering | declaring | rebinding | gone =>
    exact .inr fun _ => trivial
  | returned =>
    cases r with
    | close => exact .inl h
    | publish | subscribe | restore | start => exact .inr fun _ => trivial
  | starting | consuming | launching | closing | draining | stopping | shutting | waiting => cases hp

end Network

namespace Floor
open Network
open Broker (Polled Stream)
variable {f : Floor H} {c i : Nat} {bus : Bus H} {r : Request H} {p : Phase r}
  {new : List (String × BrokerError)}

/-- One caller of a bus has its lock, and no one else takes from it what it knows of the bus. -/
structure Sound (f : Floor H) : Prop where
  fits : ∀ (c : Nat) (x : Caller H), f.callers[c]? = some x →
    ∃ bus, f.network.buses[x.bus]? = some bus ∧ x.phase.Fits bus
  one : ∀ (c d : Nat) (x y : Caller H), f.callers[c]? = some x → f.callers[d]? = some y →
    x.bus = y.bus → x.phase.holds → y.phase.holds → c = d
  lively : f.network.Lively
  broker : f.network.broker.Sound
  ordered : f.network.Ordered

theorem sound_empty : ({} : Floor H).Sound :=
  ⟨by simp, by simp, lively_empty, Broker.sound_empty, by simp, by simp⟩

theorem Sound.goes (h : f.Sound) {t : Network H} (hg : Goes new f.network t) (hl : t.Lively)
    (hb : ∃ actions, t.broker = f.network.broker.run actions) (ho : t.Ordered) :
    Sound { f with network := t } := by
  refine ⟨fun c x hx => ?_, h.one, hl, ?_, ho⟩
  · obtain ⟨bus, hbus, hfits⟩ := h.fits c x hx
    obtain ⟨bus', hbus', he⟩ := hg.kept x.bus bus hbus
    exact ⟨bus', hbus', hfits.eased he⟩
  · obtain ⟨actions, hrun⟩ := hb
    exact hrun ▸ h.broker.run actions

theorem Sound.call (h : f.Sound) (hi : i < f.network.buses.length) (r : Request H) :
    Sound { f with callers := f.callers ++ [{ bus := i, request := r }] } := by
  have hold (d : Nat) (x : Caller H)
      (hx : (f.callers ++ [{ bus := i, request := r }])[d]? = some x) :
      f.callers[d]? = some x ∨ x = { bus := i, request := r } := by
    rcases Nat.lt_or_ge d f.callers.length with hd | hd
    · exact .inl ((List.getElem?_append_left hd).symm.trans hx)
    · rw [List.getElem?_append_right hd] at hx
      exact .inr (List.mem_singleton.mp (List.mem_of_getElem? hx))
  have hnew : ({ bus := i, request := r } : Caller H).phase.holds = false := by cases r <;> rfl
  refine ⟨fun d x hx => ?_, fun d e x y hx hy hbus hhx hhy => ?_, h.lively, h.broker, h.ordered⟩
  · rcases hold d x hx with hx | rfl
    · exact h.fits d x hx
    · refine ⟨_, List.getElem?_eq_getElem hi, ?_⟩
      cases r <;> trivial
  · rcases hold d x hx with hx | rfl
    · rcases hold e y hy with hy | rfl
      · exact h.one d e x y hx hy hbus hhx hhy
      · rw [hnew] at hhy
        cases hhy
    · rw [hnew] at hhx
      cases hhx

theorem Sound.leave (h : f.Sound) (c : Nat) :
    Sound { f with callers := f.callers.modify c fun x => { x with phase := .gone } } := by
  have hold (d : Nat) (x : Caller H)
      (hx : (f.callers.modify c fun x => { x with phase := .gone })[d]? = some x) :
      ∃ y, f.callers[d]? = some y ∧ (x = y ∨ x = { y with phase := .gone }) := by
    rw [List.getElem?_modify] at hx
    obtain ⟨y, hy, rfl⟩ := Option.map_eq_some_iff.mp hx
    refine ⟨y, hy, ?_⟩
    split
    · exact .inr rfl
    · exact .inl rfl
  have hgone (y : Caller H) : ({ y with phase := .gone } : Caller H).phase.holds = false := by
    cases y.request <;> rfl
  refine ⟨fun d x hx => ?_, fun d e x y hx hy hbus hhx hhy => ?_, h.lively, h.broker, h.ordered⟩
  · obtain ⟨y, hy, hxy⟩ := hold d x hx
    obtain ⟨bus, hb, hfits⟩ := h.fits d y hy
    rcases hxy with rfl | rfl
    · exact ⟨bus, hb, hfits⟩
    · refine ⟨bus, hb, ?_⟩
      cases y.request <;> trivial
  · obtain ⟨x₀, hx₀, rfl | rfl⟩ := hold d x hx
    · obtain ⟨y₀, hy₀, rfl | rfl⟩ := hold e y hy
      · exact h.one d e x y hx₀ hy₀ hbus hhx hhy
      · rw [hgone] at hhy
        cases hhy
    · rw [hgone] at hhx
      cases hhx

/-- What a caller finds when it goes on, and what it does then. -/
theorem Sound.proceed_cases (h : f.Sound) (c : Nat) : f.proceed c = f ∨
    ∃ (i : Nat) (r : Request H) (p p' : Phase r) (bus : Bus H) (t : Network H),
      f.callers[c]? = some ⟨i, r, p⟩ ∧ f.network.buses[i]? = some bus ∧ p.Fits bus ∧
      (p.needs → f.isLocked i = false) ∧ Stride f.network i p p' t ∧
      f.proceed c = ⟨t, f.callers.set c ⟨i, r, p'⟩⟩ := by
  cases hc : f.callers[c]? with
  | none => exact .inl (by simp only [Floor.proceed, hc])
  | some x =>
    obtain ⟨i, r, p⟩ := x
    by_cases hblocked : (p.needs && f.isLocked i) = true
    · exact .inl (by simp only [Floor.proceed, hc, hblocked, if_true])
    · have hfree : p.needs → f.isLocked i = false := by
        intro hp
        simpa [hp] using hblocked
      obtain ⟨bus, hb, hfits⟩ := h.fits c _ hc
      exact .inr ⟨i, r, p, _, bus, _, rfl, hb, hfits, hfree, proceed_stride i p f.network,
        proceed_eq hc hfree⟩

theorem Sound.fits_beside (h : f.Sound) {p' : Phase r} {t : Network H}
    (hc : f.callers[c]? = some ⟨i, r, p⟩)
    (hb : f.network.buses[i]? = some bus) (hfits : p.Fits bus) (hstride : Stride f.network i p p' t)
    {d : Nat} {x : Caller H} (hx : f.callers[d]? = some x) (hdc : d ≠ c) :
    ∃ b', t.buses[x.bus]? = some b' ∧ x.phase.Fits b' := by
  obtain ⟨bx, hbx, hfitsx⟩ := h.fits d x hx
  by_cases hxi : x.bus = i
  · rw [hxi] at hbx ⊢
    obtain rfl : bx = bus := Option.some.inj (hbx.symm.trans hb)
    rcases hstride.beside hb hfits with ⟨b', hb', he⟩ | ⟨hholds, hopen⟩
    · exact ⟨b', hb', hfitsx.eased he⟩
    · -- It does not have the lock, and nobody has closed the bus.
      have hfree : x.phase.holds = false :=
        Bool.eq_false_iff.mpr fun hhx => hdc (h.one d c x _ hx hc hxi hhx hholds)
      obtain ⟨b', hb', -⟩ := hstride.own hb hfits
      exact ⟨b', hb', ((hfitsx.free hfree).resolve_left hopen) b'⟩
  · obtain ⟨b', hb', he⟩ := hstride.others hxi hbx
    exact ⟨b', hb', hfitsx.eased he⟩

theorem Sound.proceed (h : f.Sound) (c : Nat) : (f.proceed c).Sound := by
  rcases h.proceed_cases c with heq | ⟨i, r, p, p', bus, t, hc, hb, hfits, hfree, hstride, heq⟩
  · exact heq.symm ▸ h
  rw [heq]
  obtain ⟨hlt, -⟩ := List.getElem?_eq_some_iff.mp hc
  have hnew (d : Nat) (x : Caller H) (hx : (f.callers.set c ⟨i, r, p'⟩)[d]? = some x) :
      d = c ∧ x = ⟨i, r, p'⟩ ∨ d ≠ c ∧ f.callers[d]? = some x := by
    by_cases hdc : c = d
    · subst hdc
      rw [List.getElem?_set_self hlt] at hx
      exact .inl ⟨rfl, (Option.some.inj hx).symm⟩
    · exact .inr ⟨Ne.symm hdc, (List.getElem?_set_ne hdc).symm.trans hx⟩
  -- Whoever has the lock after the step had it before, or took it when it was free.
  have hlock (hholds : p'.holds) {e : Nat} {y : Caller H} (hy : f.callers[e]? = some y)
      (hbus : y.bus = i) (hhy : y.phase.holds) : e = c := by
    rcases hstride.lock hholds with hp | hp
    · exact h.one e c y _ hy hc hbus hhy hp
    · exact absurd (isLocked_iff.mpr ⟨e, y, hy, hbus, hhy⟩) (by simp [hfree hp])
  refine ⟨fun d x hx => ?_, fun d e x y hx hy hbus hhx hhy => ?_,
    hstride.lively h.lively hb hfits, ?_,
    hstride.ordered h.ordered⟩
  · rcases hnew d x hx with ⟨-, rfl⟩ | ⟨hdc, hx⟩
    · obtain ⟨b', hb', -, -, hfits'⟩ := hstride.own hb hfits
      exact ⟨b', hb', hfits'⟩
    · exact h.fits_beside hc hb hfits hstride hx hdc
  · rcases hnew d x hx with ⟨rfl, rfl⟩ | ⟨hdc, hd⟩
    · rcases hnew e y hy with ⟨rfl, -⟩ | ⟨hec, he⟩
      · rfl
      · exact (hlock hhx he hbus.symm hhy).symm
    · rcases hnew e y hy with ⟨rfl, rfl⟩ | ⟨hec, he⟩
      · exact hlock hhy hd hbus hhx
      · exact h.one d e x y hd he hbus hhx hhy
  · obtain ⟨actions, hrun⟩ := hstride.broker
    exact hrun ▸ h.broker.run actions

theorem Sound.happen (h : f.Sound) (x : Happening H) : (f.happen x).Sound := by
  cases x with
  | call i r =>
    simp only [Floor.happen]
    split
    · rename_i hi
      exact h.call hi r
    · exact h
  | proceed c => exact h.proceed c
  | leave c => exact h.leave c
  | yielded i k polled =>
    have hgoes : Goes [] f.network _ := f.network.receive_goes i k polled
    exact h.goes hgoes (h.lively.receive i k polled) ⟨[], f.network.receive_broker i k polled⟩
      (h.ordered.receive i k polled)
  | other a =>
    simp only [Floor.happen]
    split
    · exact h
    · rename_i ha
      exact h.goes (f.network.perform_goes (Bool.eq_false_iff.mpr ha)) (h.lively.perform a)
        (f.network.perform_broker a) (h.ordered.perform a)

theorem Sound.run (h : f.Sound) (hs : List (Happening H)) : (f.run hs).Sound := by
  induction hs generalizing f with
  | nil => exact h
  | cons x hs ih => exact ih (h.happen x)

end Floor
end CargoEvents
