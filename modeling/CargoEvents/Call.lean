/-! # Calls

A call acts on a state `σ` and either returns or fails; what it did before it failed stays.
-/
namespace CargoEvents

abbrev Call (ε σ α : Type) := ExceptT ε (StateM σ) α

def Call.ofExcept {ε σ α : Type} (op : σ → Except ε (α × σ)) : Call ε σ α := fun s =>
  match op s with
  | .ok (a, s') => (.ok a, s')
  | .error e => (.error e, s)

end CargoEvents
