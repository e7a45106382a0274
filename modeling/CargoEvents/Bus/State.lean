/-! # Life of a bus

A bus declares its topology and is idle, consumes while its dispatcher runs, drains while
it closes, and ends closed. The last two states no longer serve calls.
-/
namespace CargoEvents

inductive BusState
  | idle | consuming | draining | closed
  deriving DecidableEq, Repr

namespace BusState

def all : List BusState := [.idle, .consuming, .draining, .closed]

def name : BusState → String
  | .idle => "idle"
  | .consuming => "consuming"
  | .draining => "draining"
  | .closed => "closed"

def isTerminal : BusState → Bool
  | .draining | .closed => true
  | .idle | .consuming => false

end BusState
end CargoEvents
