import CargoEvents.Config.Bus
import CargoEvents.Proofs.Text.Reading

/-! # What a bus is configured with

The settings of a bus decide its configuration: what is missing comes before what is
unreadable, and that before what breaks a rule.
-/
namespace CargoEvents

/-! ## Durations -/
namespace Duration

def inNanos (d : Duration) : Nat := d.secs * 1_000_000_000 + d.nanos

theorem inNanos_injective : Function.Injective inNanos := by
  rintro ⟨secs, nanos, hsecs, hnanos⟩ ⟨secs', nanos', hsecs', hnanos'⟩ h
  simp only [inNanos] at h
  obtain rfl : secs = secs' := by omega
  obtain rfl : nanos = nanos' := by omega
  rfl

theorem inNanos_ofMillis {ms : Nat} (h : ms < UInt64.size) :
    (ofMillis ms).inNanos = ms * 1_000_000 := by
  have hsecs : ms / 1000 % UInt64.size = ms / 1000 := Nat.mod_eq_of_lt (by omega)
  simp only [inNanos, ofMillis, hsecs]
  omega

theorem isZero_iff (d : Duration) : d.isZero ↔ d.inNanos = 0 := by
  simp [isZero, inNanos]

end Duration

namespace BusConfig
open Text (IsNumber)
variable {settings : Settings} {key : String} {ms? : Option Nat}

/-! ## Numbers that are given -/

/-- The text is a number of milliseconds that 64 bits hold. -/
def IsMillis (text : String) (ms : Nat) : Prop := IsNumber text ms ∧ ms < UInt64.size

theorem readNat_eq_some {text : String} {ms : Nat} :
    Text.readNat UInt64.size (Text.trim text) = some ms ↔ IsMillis text ms :=
  Text.readNat_trim_eq_some

/-- The setting is missing, or it is the number `ms` of milliseconds. -/
def Gives (settings : Settings) (key : String) : Option Nat → Prop
  | none => settings key = none
  | some ms => ∃ text, settings key = some text ∧ IsMillis text ms

/-- The setting is there, and not a number. -/
def IsUnreadable (settings : Settings) (key text : String) : Prop :=
  settings key = some text ∧ ¬∃ ms, IsMillis text ms

theorem readMillis_eq_ok : readMillis settings key = .ok ms? ↔ Gives settings key ms? := by
  unfold readMillis
  split
  · rename_i hnone
    cases ms? <;> simp [Gives, hnone]
  · rename_i text htext
    cases hread : Text.readNat UInt64.size (Text.trim text) <;>
      cases ms? <;> simp [Gives, htext, ← readNat_eq_some, hread]

theorem readMillis_eq_error {e : ConfigError} : readMillis settings key = .error e ↔
    ∃ text, IsUnreadable settings key text ∧ e = .unreadable key text := by
  unfold readMillis
  split
  · rename_i hnone
    simp [IsUnreadable, hnone]
  · rename_i text htext
    cases hread : Text.readNat UInt64.size (Text.trim text) <;>
      simp [IsUnreadable, htext, ← readNat_eq_some, hread, eq_comm]

theorem Gives.unique {ms?' : Option Nat} (h : Gives settings key ms?)
    (h' : Gives settings key ms?') : ms? = ms?' :=
  Except.ok.inj ((readMillis_eq_ok.mpr h).symm.trans (readMillis_eq_ok.mpr h'))

theorem gives_of_readable (h : ¬∃ text, IsUnreadable settings key text) :
    ∃ ms?, Gives settings key ms? := by
  cases hread : readMillis settings key with
  | ok ms? => exact ⟨ms?, readMillis_eq_ok.mp hread⟩
  | error e =>
    obtain ⟨text, htext, _⟩ := readMillis_eq_error.mp hread
    exact absurd ⟨text, htext⟩ h

/-- The duration is the one given, or else `millis` milliseconds. -/
def Lasts (settings : Settings) (key : String) (millis : Nat) (d : Duration) : Prop :=
  ∃ ms?, Gives settings key ms? ∧ d.inNanos = ms?.getD millis * 1_000_000

theorem Gives.lasts_iff {millis : Nat} {d : Duration} (h : Gives settings key ms?)
    (hmillis : millis < UInt64.size) :
    Lasts settings key millis d ↔ d = (ms?.map Duration.ofMillis).getD (.ofMillis millis) := by
  have hnanos : ((ms?.map Duration.ofMillis).getD (.ofMillis millis)).inNanos =
      ms?.getD millis * 1_000_000 := by
    cases ms? with
    | none => exact Duration.inNanos_ofMillis hmillis
    | some ms =>
      obtain ⟨_, _, -, hms⟩ := h
      exact Duration.inNanos_ofMillis hms
  constructor
  · rintro ⟨ms?', h', hd⟩
    obtain rfl := h.unique h'
    exact Duration.inNanos_injective (hd.trans hnanos.symm)
  · rintro rfl
    exact ⟨ms?, h, hnanos⟩

/-! ## The rules -/

def IsFirst {α : Type} (p : α → Prop) (l : List α) (a : α) : Prop :=
  p a ∧ ∃ earlier later, l = earlier ++ a :: later ∧ ∀ b ∈ earlier, ¬p b

theorem isFirst_nil {α : Type} {p : α → Prop} {a : α} : ¬IsFirst p [] a := by
  simp [IsFirst]

theorem isFirst_cons {α : Type} {p : α → Prop} {l : List α} {a b : α} :
    IsFirst p (b :: l) a ↔ p b ∧ b = a ∨ ¬p b ∧ IsFirst p l a := by
  constructor
  · rintro ⟨ha, earlier, later, heq, hearlier⟩
    cases earlier with
    | nil =>
      obtain ⟨rfl, -⟩ := List.cons.inj heq
      exact .inl ⟨ha, rfl⟩
    | cons c earlier =>
      obtain ⟨rfl, hl⟩ := List.cons.inj heq
      obtain ⟨hb, hearlier⟩ := List.forall_mem_cons.mp hearlier
      exact .inr ⟨hb, ha, earlier, later, hl, hearlier⟩
  · rintro (⟨hb, rfl⟩ | ⟨hb, ha, earlier, later, rfl, hearlier⟩)
    · exact ⟨hb, [], l, rfl, by simp⟩
    · exact ⟨ha, b :: earlier, later, rfl, List.forall_mem_cons.mpr ⟨hb, hearlier⟩⟩

/-- What a configuration can be rejected for, and the texts it is rejected with. -/
def faults : List (String × (BusConfig → Prop)) :=
  [("service cannot be empty", fun c => c.service = ""),
    ("service cannot contain whitespace", fun c => ∃ x ∈ c.service.toList, Text.isBlank x),
    ("exchange cannot be empty", fun c => c.exchange = ""),
    ("drain_timeout must be > 0", fun c => c.drainTimeout.inNanos = 0)]

/-- The configuration breaks no rule before the one that `rule` names. -/
def Breaks (c : BusConfig) (rule : String) : Prop :=
  ∃ fault, IsFirst (fun f => f.2 c) faults (rule, fault)

theorem brokenRule?_eq_some {c : BusConfig} {rule : String} :
    c.brokenRule? = some rule ↔ c.Breaks rule := by
  simp only [Breaks, faults, isFirst_cons, isFirst_nil, Prod.mk.injEq, and_false, or_false,
    brokenRule?, List.any_eq_true, Duration.isZero_iff]
  split_ifs with hempty hblank hexchange hdrain <;> simp [*]

theorem brokenRule?_eq_none {c : BusConfig} :
    c.brokenRule? = none ↔ ∀ f ∈ faults, ¬f.2 c := by
  simp only [faults, List.forall_mem_cons, brokenRule?, List.any_eq_true, Duration.isZero_iff]
  split_ifs with hempty hblank hexchange hdrain <;> simp [*]

/-! ## Configurations from settings -/

/-- The configuration holds what the settings give, and defaults for what they do not. -/
structure Given (settings : Settings) (c : BusConfig) : Prop where
  service : settings "SERVICE_NAME" = some c.service
  exchange : (settings "EVENT_BUS_EXCHANGE").getD "shipping" = c.exchange
  consumerTag : settings "EVENT_BUS_CONSUMER_TAG" = c.consumerTag
  drainTimeout : Lasts settings "EVENT_BUS_DRAIN_TIMEOUT_MS" 5000 c.drainTimeout
  requeueDelay : Lasts settings "EVENT_BUS_REQUEUE_DELAY_MS" 0 c.requeueDelay

theorem build_of_given {c : BusConfig} {drain requeue : Option Nat} (h : Given settings c)
    (hdrain : Gives settings "EVENT_BUS_DRAIN_TIMEOUT_MS" drain)
    (hrequeue : Gives settings "EVENT_BUS_REQUEUE_DELAY_MS" requeue) :
    build c.service (settings "EVENT_BUS_EXCHANGE") (settings "EVENT_BUS_CONSUMER_TAG")
      drain requeue = c.validate := by
  have hdrainTimeout := (hdrain.lasts_iff (by decide)).mp h.drainTimeout
  have hrequeueDelay := (hrequeue.lasts_iff (by decide)).mp h.requeueDelay
  have hexchange := h.exchange
  have hconsumerTag := h.consumerTag
  cases c
  subst hexchange hconsumerTag hdrainTimeout hrequeueDelay
  rfl

theorem exists_given {service : String} {drain requeue : Option Nat}
    (hservice : settings "SERVICE_NAME" = some service)
    (hdrain : Gives settings "EVENT_BUS_DRAIN_TIMEOUT_MS" drain)
    (hrequeue : Gives settings "EVENT_BUS_REQUEUE_DELAY_MS" requeue) : ∃ c, Given settings c :=
  ⟨{  service
      exchange := (settings "EVENT_BUS_EXCHANGE").getD "shipping"
      consumerTag := settings "EVENT_BUS_CONSUMER_TAG"
      drainTimeout := (drain.map .ofMillis).getD (.ofMillis 5000)
      requeueDelay := (requeue.map .ofMillis).getD (.ofMillis 0) },
    hservice, rfl, rfl, (hdrain.lasts_iff (by decide)).mpr rfl,
    (hrequeue.lasts_iff (by decide)).mpr rfl⟩

theorem ofSettings_of_given {c : BusConfig} (h : Given settings c) :
    ofSettings settings = c.validate := by
  obtain ⟨drain, hdrain, -⟩ := h.drainTimeout
  obtain ⟨requeue, hrequeue, -⟩ := h.requeueDelay
  rw [← build_of_given h hdrain hrequeue]
  simp only [ofSettings, h.service, readMillis_eq_ok.mpr hdrain, readMillis_eq_ok.mpr hrequeue]
  rfl

/-- The settings that hold numbers, in the order in which they are read. -/
def millisKeys : List String := ["EVENT_BUS_DRAIN_TIMEOUT_MS", "EVENT_BUS_REQUEUE_DELAY_MS"]

theorem ofSettings_of_unreadable {text : String} (hnamed : settings "SERVICE_NAME" ≠ none)
    (hfirst : IsFirst (fun key => ∃ text, IsUnreadable settings key text) millisKeys key)
    (htext : IsUnreadable settings key text) :
    ofSettings settings = .error (.unreadable key text) := by
  obtain ⟨service, hservice⟩ := Option.ne_none_iff_exists'.mp hnamed
  have herror := readMillis_eq_error.mpr ⟨text, htext, rfl⟩
  simp only [millisKeys, isFirst_cons, isFirst_nil, and_false, or_false] at hfirst
  rcases hfirst with ⟨-, rfl⟩ | ⟨hdrain, -, rfl⟩
  · simp only [ofSettings, hservice, herror]
    rfl
  · obtain ⟨drain, hdrain⟩ := gives_of_readable hdrain
    simp only [ofSettings, hservice, readMillis_eq_ok.mpr hdrain, herror]
    rfl

/-- What comes of settings. -/
inductive Outcome (settings : Settings) : Except ConfigError BusConfig → Prop
  | unnamed (h : settings "SERVICE_NAME" = none) :
    Outcome settings (.error (.notSet "SERVICE_NAME"))
  | unreadable {key text : String} (named : settings "SERVICE_NAME" ≠ none)
    (first : IsFirst (fun key => ∃ text, IsUnreadable settings key text) millisKeys key)
    (h : IsUnreadable settings key text) : Outcome settings (.error (.unreadable key text))
  | invalid {c : BusConfig} {rule : String} (given : Given settings c) (h : c.Breaks rule) :
    Outcome settings (.error (.invalid rule))
  | valid {c : BusConfig} (given : Given settings c) (h : ∀ f ∈ faults, ¬f.2 c) :
    Outcome settings (.ok c)

theorem Outcome.eq {r : Except ConfigError BusConfig} (h : Outcome settings r) :
    ofSettings settings = r := by
  cases h with
  | unnamed h => simp only [ofSettings, h]
  | unreadable named first h => exact ofSettings_of_unreadable named first h
  | invalid given h => rw [ofSettings_of_given given, validate, brokenRule?_eq_some.mpr h]
  | valid given h => rw [ofSettings_of_given given, validate, brokenRule?_eq_none.mpr h]

theorem exists_outcome (settings : Settings) : ∃ r, Outcome settings r := by
  cases hservice : settings "SERVICE_NAME" with
  | none => exact ⟨_, .unnamed hservice⟩
  | some service =>
    have hnamed : settings "SERVICE_NAME" ≠ none := by simp [hservice]
    by_cases hdrain : ∃ text, IsUnreadable settings "EVENT_BUS_DRAIN_TIMEOUT_MS" text
    · obtain ⟨text, htext⟩ := id hdrain
      exact ⟨_, .unreadable hnamed (isFirst_cons.mpr (.inl ⟨hdrain, rfl⟩)) htext⟩
    by_cases hrequeue : ∃ text, IsUnreadable settings "EVENT_BUS_REQUEUE_DELAY_MS" text
    · obtain ⟨text, htext⟩ := id hrequeue
      exact ⟨_, .unreadable hnamed
        (isFirst_cons.mpr (.inr ⟨hdrain, isFirst_cons.mpr (.inl ⟨hrequeue, rfl⟩)⟩)) htext⟩
    obtain ⟨drain, hdrain⟩ := gives_of_readable hdrain
    obtain ⟨requeue, hrequeue⟩ := gives_of_readable hrequeue
    obtain ⟨c, hc⟩ := exists_given hservice hdrain hrequeue
    cases hrule : c.brokenRule? with
    | none => exact ⟨_, .valid hc (brokenRule?_eq_none.mp hrule)⟩
    | some rule => exact ⟨_, .invalid hc (brokenRule?_eq_some.mp hrule)⟩

/-- Settings decide what comes of them, and a configuration that comes of them is sound and the
one built from the same values. -/
theorem ofSettings_decided (settings : Settings) :
    (∀ r, ofSettings settings = r ↔ Outcome settings r) ∧
    ∀ c, ofSettings settings = .ok c → c.validate = .ok c ∧
      ∃ drain requeue, Gives settings "EVENT_BUS_DRAIN_TIMEOUT_MS" drain ∧
        Gives settings "EVENT_BUS_REQUEUE_DELAY_MS" requeue ∧
        build c.service (settings "EVENT_BUS_EXCHANGE") (settings "EVENT_BUS_CONSUMER_TAG")
          drain requeue = .ok c := by
  have houtcome (r : Except ConfigError BusConfig) :
      ofSettings settings = r ↔ Outcome settings r := by
    refine ⟨?_, Outcome.eq⟩
    rintro rfl
    obtain ⟨r, hr⟩ := exists_outcome settings
    rwa [hr.eq]
  refine ⟨houtcome, fun c hc => ?_⟩
  cases (houtcome _).mp hc with
  | valid given _ =>
    have hvalid : c.validate = .ok c := (ofSettings_of_given given).symm.trans hc
    obtain ⟨drain, hdrain, -⟩ := given.drainTimeout
    obtain ⟨requeue, hrequeue, -⟩ := given.requeueDelay
    exact ⟨hvalid, drain, requeue, hdrain, hrequeue,
      (build_of_given given hdrain hrequeue).trans hvalid⟩

/-- A number with a sign, leading zeros and blanks around it. -/
theorem ofSettings_decided_padded :
    let settings : Settings := fun key =>
      ([("SERVICE_NAME", "tracking"), ("EVENT_BUS_DRAIN_TIMEOUT_MS", " +00100\u3000")].lookup key)
    let c : BusConfig := { service := "tracking", drainTimeout := .ofMillis 100 }
    ofSettings settings = .ok c ∧ c.validate = .ok c ∧
      ∃ drain requeue, Gives settings "EVENT_BUS_DRAIN_TIMEOUT_MS" drain ∧
        Gives settings "EVENT_BUS_REQUEUE_DELAY_MS" requeue ∧
        build c.service (settings "EVENT_BUS_EXCHANGE") (settings "EVENT_BUS_CONSUMER_TAG")
          drain requeue = .ok c := by
  intro settings c
  have hread : ofSettings settings = .ok c := by decide +kernel
  exact ⟨hread, (ofSettings_decided settings).2 c hread⟩

end BusConfig
end CargoEvents
