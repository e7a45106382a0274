import CargoEvents.Calendar.Rfc3339

/-! # Sentences on a cargo's progress

What is expected next of a cargo, and what a handling event did to it.
-/
namespace CargoEvents.Tracking
open Calendar (Instant)

def nothingExpected : String := "There are currently no expected activities for this shipping."

def nextExpectedActivity : Option HandlingActivity → String
  | none => nothingExpected
  | some a =>
    let toDo := "Next expected activity is to "
    match HandlingType.ofCode? a.activityType with
    | some .notHandled => nothingExpected
    | some .load => s!"{toDo}load cargo onto voyage {a.voyageNumber} in {a.location}."
    | some .unload => s!"{toDo}unload cargo off of voyage {a.voyageNumber} in {a.location}."
    | some kind => s!"{toDo}{kind.verb} cargo in {a.location}."
    | none => s!"{toDo}handle cargo in {a.location}."

def describe (e : HandlingEvent) (moment : Instant) : String :=
  match e.activity with
  | none => "[Unknown status]"
  | some a =>
    let place := s!"in {a.location}, at {Calendar.Rfc3339.renderWhole moment}."
    match HandlingType.ofCode? a.activityType with
    | some .notHandled => "Cargo has not yet been received."
    | some .receive => s!"Received {place}"
    | some .load => s!"Loaded onto voyage {a.voyageNumber} {place}"
    | some .unload => s!"Unloaded off voyage {a.voyageNumber} {place}"
    | some .claim => s!"Claimed {place}"
    | some .customs => s!"Cleared customs {place}"
    | none => "[Unknown status]"

end CargoEvents.Tracking
