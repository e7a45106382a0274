import CargoEvents.Error

/-! # Log records

What runs of logged handlers, and errors that have nowhere else to go, leave in the log.
-/
namespace CargoEvents

inductive LogRecord
  | handled (e : Event)
  | handlingFailed (e : Event) (error : HandlerError)
  | busError (error : BusError)
  | unreceived (error : BusError)
  deriving DecidableEq

namespace LogRecord

def level : LogRecord → String
  | handled _ => "INFO"
  | handlingFailed .. => "WARN"
  | busError _ | unreceived _ => "ERROR"

def text : LogRecord → String
  | handled _ => "Event handled"
  | handlingFailed .. => "Event handling failed"
  | busError _ => "Event bus error"
  | unreceived _ => "Error sink receiver dropped, logging instead"

def ofRun (e : Event) : Except HandlerError Unit → LogRecord
  | .ok _ => handled e
  | .error error => handlingFailed e error

end LogRecord
end CargoEvents
