import CargoEvents.Call
import CargoEvents.Error
import CargoEvents.Table
import CargoEvents.Tracking.View

/-! # Repository of cargo views

Views by tracking id. Failures of the store below can be lined up: each is met by the next
look-up, or by the next write, that comes.
-/
namespace CargoEvents.Tracking

structure Repository where
  cargos : Table CargoView := ∅
  findFaults : List String := []
  storeFaults : List String := []
  deriving DecidableEq

namespace Repository

def find (id : String) : Call RepositoryError Repository CargoView := fun r =>
  match r.findFaults with
  | reason :: later => (.error (.storage reason), { r with findFaults := later })
  | [] => match r.cargos.get? id with
    | some view => (.ok view, r)
    | none => (.error (.unknownCargo id), r)

/-- Puts a view in place of any other under its id. -/
def store (view : CargoView) : Call RepositoryError Repository Unit := fun r =>
  match r.storeFaults with
  | reason :: later => (.error (.storage reason), { r with storeFaults := later })
  | [] => (.ok (), { r with cargos := r.cargos.insert view.trackingId view })

/-- Every view, in the order of ids. -/
def findAll (r : Repository) : List CargoView := r.cargos.values

def failFind (r : Repository) (reason : String) : Repository :=
  { r with findFaults := r.findFaults ++ [reason] }

def failStore (r : Repository) (reason : String) : Repository :=
  { r with storeFaults := r.storeFaults ++ [reason] }

end Repository
end CargoEvents.Tracking
