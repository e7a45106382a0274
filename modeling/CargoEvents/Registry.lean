import CargoEvents.Call
import CargoEvents.Error
import CargoEvents.Table

/-! # Registry of handlers

One handler for each kind of event; the one registered last counts. A body is decoded as
the kind its handler is registered for, and the handler runs only if that succeeds.
-/
namespace CargoEvents
open Wire (Bytes)

structure Registration (H : Type) where
  kind : EventKind
  handler : H
  deriving DecidableEq

/-- Why a delivery was not handled. -/
inductive DispatchError
  | decode (e : CodecError)
  | handler (e : HandlerError)
  deriving DecidableEq, Repr

namespace Registration
variable {H σ : Type}

def routingKey (r : Registration H) : String := r.kind.name

def decode (r : Registration H) (body : Bytes) : Except CodecError Event := Event.decode r.kind body

/-- Decodes `body` and runs the handler on the event. -/
def dispatch (r : Registration H) (run : H → Event → Call HandlerError σ Unit) (body : Bytes) :
    Call DispatchError σ Unit :=
  match r.decode body with
  | .error e => throw (.decode e)
  | .ok e => ExceptT.adapt .handler (run r.handler e)

end Registration

structure Registry (H : Type) where
  byKey : Table (Registration H) := ∅

namespace Registry
variable {H : Type}

def get? (r : Registry H) (key : String) : Option (Registration H) := r.byKey.get? key
def contains (r : Registry H) (key : String) : Bool := r.byKey.contains key

/-- The keys of the kinds that have a handler, in order. -/
def routingKeys (r : Registry H) : List String := r.byKey.keys

def size (r : Registry H) : Nat := r.byKey.size

/-- Registers a handler in place of any other for the kind. -/
def insert (r : Registry H) (kind : EventKind) (handler : H) : Registry H :=
  ⟨r.byKey.insert kind.name { kind, handler }⟩

/-- Registers a handler, and tells whether it took the place of another. -/
def register (r : Registry H) (kind : EventKind) (handler : H) : Bool × Registry H :=
  (r.contains kind.name, r.insert kind handler)

@[simp] theorem get?_insert (r : Registry H) (kind : EventKind) (handler : H) (key : String) :
    (r.insert kind handler).get? key =
      if key = kind.name then some { kind, handler } else r.get? key :=
  Table.get?_insert ..

end Registry
end CargoEvents
