import CargoEvents.Config.Tracking
import CargoEvents.Proofs.Config.Precedence

/-! # Blank settings of the tracking service

A setting that holds only white space is read as if it were missing. The bus is configured
from what remains, with a service name of its own where none is left.
-/
namespace CargoEvents

/-- The setting is there, and not only white space. -/
def Says (settings : Settings) (key text : String) : Prop :=
  settings key = some text ∧ ∃ c ∈ text.toList, Text.isBlank c = false

namespace BusConfig

def settingNames : List String :=
  ["SERVICE_NAME", "EVENT_BUS_EXCHANGE", "EVENT_BUS_CONSUMER_TAG", "EVENT_BUS_DRAIN_TIMEOUT_MS",
    "EVENT_BUS_REQUEUE_DELAY_MS"]

theorem ofSettings_congr {s t : Settings} (h : ∀ key ∈ settingNames, s key = t key) :
    ofSettings s = ofSettings t := by
  simp only [settingNames, List.forall_mem_cons] at h
  obtain ⟨hservice, hexchange, htag, hdrain, hrequeue, -⟩ := h
  simp only [ofSettings, readMillis, hservice, hexchange, htag, hdrain, hrequeue]

theorem ofSettings_ne_notSet {settings : Settings} {service : String}
    (h : settings "SERVICE_NAME" = some service) (key : String) :
    ofSettings settings ≠ .error (.notSet key) := by
  intro hmissing
  obtain ⟨r, hr⟩ := exists_outcome settings
  rw [hr.eq] at hmissing
  subst hmissing
  cases hr with
  | unnamed hnone => simp [h] at hnone

end BusConfig

namespace TrackingConfig
variable {s t u : Settings} {key text : String}

theorem withoutBlanks_eq_some : withoutBlanks s key = some text ↔ Says s key text := by
  simp [withoutBlanks, Says, Text.isBlankText, Option.filter_eq_some_iff]

theorem withoutBlanks_eq_none : withoutBlanks s key = none ↔ ¬∃ text, Says s key text := by
  simp only [Option.eq_none_iff_forall_ne_some, ne_eq, withoutBlanks_eq_some, not_exists]

theorem withoutBlanks_congr (h : ∀ text, Says s key text ↔ Says t key text) :
    withoutBlanks s key = withoutBlanks t key :=
  Option.ext fun text => by rw [withoutBlanks_eq_some, withoutBlanks_eq_some, h]

/-- The settings are those of `s` without the blank ones, and a service name for one that is
missing. -/
structure Filled (s u : Settings) : Prop where
  service (text : String) : u "SERVICE_NAME" = some text ↔
    Says s "SERVICE_NAME" text ∨ (¬∃ name, Says s "SERVICE_NAME" name) ∧ text = "tracking"
  others (key text : String) (h : key ≠ "SERVICE_NAME") : u key = some text ↔ Says s key text

theorem filled_withDefaultService (s : Settings) :
    Filled s (withDefaultService (withoutBlanks s)) where
  service text := by
    rw [withDefaultService, if_pos rfl, ← withoutBlanks_eq_some, ← withoutBlanks_eq_none]
    cases withoutBlanks s "SERVICE_NAME" <;> simp [defaultService, eq_comm]
  others key text h := by rw [withDefaultService, if_neg h, withoutBlanks_eq_some]

theorem Filled.eq (h : Filled s u) : u = withDefaultService (withoutBlanks s) := by
  have hdefault := filled_withDefaultService s
  funext key
  ext text
  by_cases hkey : key = "SERVICE_NAME"
  · rw [hkey, h.service, hdefault.service]
  · rw [h.others key text hkey, hdefault.others key text hkey]

/-! ## What is read of the other settings -/

/-- The address that metrics are served on is the one that is given. -/
def ServedOn (s : Settings) : Option SocketAddress → Prop
  | none => ¬∃ text, Says s "METRICS_ADDR" text
  | some address => ∃ text, Says s "METRICS_ADDR" text ∧
      SocketAddress.read (Text.trim text) = some address

def IsNoAddress (s : Settings) (text : String) : Prop :=
  Says s "METRICS_ADDR" text ∧ SocketAddress.read (Text.trim text) = none

theorem readAddress_eq_ok {address : Option SocketAddress} :
    readAddress (withoutBlanks s) = .ok address ↔ ServedOn s address := by
  unfold readAddress
  split
  · rename_i hnone
    cases address <;> simp [ServedOn, ← withoutBlanks_eq_some, hnone]
  · rename_i text htext
    cases hread : SocketAddress.read (Text.trim text) <;>
      cases address <;> simp [ServedOn, ← withoutBlanks_eq_some, htext, hread]

theorem readAddress_eq_error {e : ConfigError} : readAddress (withoutBlanks s) = .error e ↔
    ∃ text, IsNoAddress s text ∧ e = .unreadable "METRICS_ADDR" text := by
  unfold readAddress
  split
  · rename_i hnone
    simp [IsNoAddress, ← withoutBlanks_eq_some, hnone]
  · rename_i text htext
    cases hread : SocketAddress.read (Text.trim text) <;>
      simp [IsNoAddress, ← withoutBlanks_eq_some, htext, hread, eq_comm]

theorem uri_eq_iff {uri : String} : (withoutBlanks s "RABBIT_URI").getD defaultUri = uri ↔
    Says s "RABBIT_URI" uri ∨ (¬∃ text, Says s "RABBIT_URI" text) ∧ uri = defaultUri := by
  rw [← withoutBlanks_eq_none, ← withoutBlanks_eq_some]
  cases withoutBlanks s "RABBIT_URI" <;> simp [eq_comm]

/-! ## What comes of the settings -/

theorem ofSettings_eq_error (h : Filled s u) {e : ConfigError} : ofSettings s = .error e ↔
    BusConfig.ofSettings u = .error e ∨
    (∃ bus, BusConfig.ofSettings u = .ok bus) ∧
      ∃ text, IsNoAddress s text ∧ e = .unreadable "METRICS_ADDR" text := by
  rw [← readAddress_eq_error, h.eq, ofSettings]
  cases BusConfig.ofSettings (withDefaultService (withoutBlanks s)) <;>
    cases readAddress (withoutBlanks s) <;> simp [bind, Except.bind, pure, Except.pure]

theorem ofSettings_eq_ok (h : Filled s u) {c : TrackingConfig} : ofSettings s = .ok c ↔
    BusConfig.ofSettings u = .ok c.bus ∧ ServedOn s c.metricsAddress ∧
    (Says s "RABBIT_URI" c.rabbitUri ∨
      (¬∃ text, Says s "RABBIT_URI" text) ∧ c.rabbitUri = defaultUri) := by
  rw [← readAddress_eq_ok, ← uri_eq_iff, h.eq, ofSettings]
  obtain ⟨uri, bus, address⟩ := c
  cases BusConfig.ofSettings (withDefaultService (withoutBlanks s)) <;>
    cases readAddress (withoutBlanks s) <;>
    simp [bind, Except.bind, pure, Except.pure, and_comm, and_assoc]

theorem ofSettings_congr (h : ∀ key ∈ settingNames, ∀ text, Says s key text ↔ Says t key text) :
    ofSettings s = ofSettings t := by
  have hnames (key : String) (hkey : key ∈ settingNames) :
      withoutBlanks s key = withoutBlanks t key := withoutBlanks_congr (h key hkey)
  have hbus : BusConfig.ofSettings (withDefaultService (withoutBlanks s)) =
      BusConfig.ofSettings (withDefaultService (withoutBlanks t)) := by
    refine BusConfig.ofSettings_congr fun key hkey => ?_
    have hread : key ∈ settingNames :=
      (by decide : ∀ key ∈ BusConfig.settingNames, key ∈ settingNames) key hkey
    simp only [withDefaultService, hnames key hread]
  simp only [ofSettings, hbus, readAddress, hnames "METRICS_ADDR" (by decide),
    hnames "RABBIT_URI" (by decide)]

theorem ofSettings_ne_notSet (s : Settings) (key : String) :
    ofSettings s ≠ .error (.notSet key) := by
  intro hmissing
  rcases (ofSettings_eq_error (filled_withDefaultService s)).mp hmissing with
    hbus | ⟨-, text, -, heq⟩
  · exact BusConfig.ofSettings_ne_notSet (by rw [withDefaultService, if_pos rfl]) key hbus
  · cases heq

/-- Blank settings are missing ones: they decide nothing, and the bus is configured from what
is left of the settings, before metrics are. -/
theorem blanks_count_as_missing (s : Settings) :
    (∀ t, (∀ key ∈ ["RABBIT_URI", "SERVICE_NAME", "METRICS_ADDR", "EVENT_BUS_EXCHANGE",
        "EVENT_BUS_CONSUMER_TAG", "EVENT_BUS_DRAIN_TIMEOUT_MS", "EVENT_BUS_REQUEUE_DELAY_MS"],
        ∀ text, Says s key text ↔ Says t key text) → ofSettings s = ofSettings t) ∧
    (∀ key, ofSettings s ≠ .error (.notSet key)) ∧
    ∀ u, Filled s u →
      (∀ e, ofSettings s = .error e ↔ BusConfig.ofSettings u = .error e ∨
        (∃ bus, BusConfig.ofSettings u = .ok bus) ∧
          ∃ text, IsNoAddress s text ∧ e = .unreadable "METRICS_ADDR" text) ∧
      ∀ c, ofSettings s = .ok c ↔ BusConfig.ofSettings u = .ok c.bus ∧
        ServedOn s c.metricsAddress ∧ (Says s "RABBIT_URI" c.rabbitUri ∨
          (¬∃ text, Says s "RABBIT_URI" text) ∧ c.rabbitUri = defaultUri) := by
  refine ⟨fun t hsame => ofSettings_congr fun key hkey => hsame key ?_, ofSettings_ne_notSet s,
    fun u hu => ⟨fun e => ofSettings_eq_error hu, fun c => ofSettings_eq_ok hu⟩⟩
  exact (by decide : ∀ key ∈ settingNames, key ∈ _) key hkey

/-- A service whose name and drain timeout are blank is the one configured from nothing. -/
theorem blanks_count_as_missing_unnamed :
    let s : Settings := fun key =>
      if key = "SERVICE_NAME" then some "\u3000"
      else if key = "EVENT_BUS_DRAIN_TIMEOUT_MS" then some " \t" else none
    let u : Settings := fun key => if key = "SERVICE_NAME" then some "tracking" else none
    let c : TrackingConfig :=
      { rabbitUri := defaultUri, bus := { service := "tracking" }, metricsAddress := none }
    ofSettings s = ofSettings (fun _ => none) ∧ Filled s u ∧ ofSettings s = .ok c ∧
      BusConfig.ofSettings u = .ok c.bus := by
  intro s u c
  have hblank (key text : String) : ¬Says s key text := by
    have hnone : withoutBlanks s key = none := by
      simp only [withoutBlanks, s]
      split_ifs <;> decide +kernel
    exact not_exists.mp (withoutBlanks_eq_none.mp hnone) text
  have hfilled : Filled s u :=
    ⟨fun text => by simp [hblank, u, eq_comm], fun key text h => by simp [hblank, u, h]⟩
  have hc : ofSettings s = .ok c := by decide +kernel
  have hall := blanks_count_as_missing s
  refine ⟨hall.1 _ fun key _ text => iff_of_false (hblank key text) ?_, hfilled, hc,
    (((hall.2.2 u hfilled).2 c).mp hc).1⟩
  rintro ⟨hnone, -⟩
  cases hnone

end TrackingConfig
end CargoEvents
