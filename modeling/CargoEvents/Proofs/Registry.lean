import CargoEvents.Registry
import Mathlib.Data.List.Induction

/-! # Registries in use

Handlers are inserted into a registry, looked up in it and then run, in any order. At any time the
registry finds what was inserted last (`Usage.finds`), and a handler that was found earlier is still
the one that it was then: what it is run on is decoded first, and it is run once or not at all.
-/
namespace CargoEvents.Registry
open Wire (Bytes)

/-- What is asked of a registry. A handler that was looked up goes by the number of the look-up. -/
inductive Request (H : Type)
  | insert (kind : EventKind) (handler : H)
  | get (key : String)
  | dispatch (n : Nat) (body : Bytes)

inductive Answer (H : Type)
  | inserted (replaced : Bool)
  | got (r? : Option (Registration H))
  | dispatched (result : Except DispatchError Unit)
  /-- The look-up found no handler, or there was none of this number. -/
  | missing

/-- A registry, all that was found in it, and the handlers that were run and on what. -/
structure Usage (H σ : Type) where
  registry : Registry H := {}
  found : List (Option (Registration H)) := []
  runs : List (H × Event) := []
  world : σ

variable {H : Type}

def Request.registration? : Request H → Option (Registration H)
  | .insert kind handler => some { kind, handler }
  | _ => none

/-- The registrations that are made, in the order of time. -/
def inserted (requests : List (Request H)) : List (Registration H) :=
  requests.filterMap (·.registration?)

def lastInserted (requests : List (Request H)) (key : String) : Option (Registration H) :=
  ((inserted requests).filter (·.routingKey == key)).getLast?

theorem lastInserted_append (requests : List (Request H)) (request : Request H) (key : String) :
    lastInserted (requests ++ [request]) key =
      (request.registration?.filter (·.routingKey == key)).or (lastInserted requests key) := by
  unfold lastInserted inserted
  rw [List.filterMap_append, List.filter_append, List.getLast?_append]
  congr 1
  cases hreg : request.registration? with
  | none => simp [hreg]
  | some r =>
    by_cases hkey : r.routingKey = key
    · simp [hreg, hkey, Option.filter]
    · simp [hreg, hkey, Option.filter]

theorem lastInserted_isSome {requests : List (Request H)} {key : String} :
    (lastInserted requests key).isSome ↔ ∃ r ∈ inserted requests, r.routingKey = key := by
  simp [lastInserted]

namespace Usage
variable {σ : Type} (run : H → Event → Call HandlerError σ Unit)

def noting (handler : H) (e : Event) : Call HandlerError (Usage H σ) Unit := fun u =>
  let (result, world) := run handler e u.world
  (result, { u with world, runs := u.runs ++ [(handler, e)] })

def serve (u : Usage H σ) : Request H → Answer H × Usage H σ
  | .insert kind handler =>
    let (replaced, registry) := u.registry.register kind handler
    (.inserted replaced, { u with registry })
  | .get key =>
    let r? := u.registry.get? key
    (.got r?, { u with found := u.found ++ [r?] })
  | .dispatch n body => match u.found[n]? with
    | some (some r) =>
      let (result, u) := r.dispatch (noting run) body u
      (.dispatched result, u)
    | _ => (.missing, u)

def after (u : Usage H σ) (requests : List (Request H)) : Usage H σ :=
  requests.foldl (fun u request => (u.serve run request).2) u

/-- A body is decoded as the kind of the registration. If that succeeds, its handler is run on the
event, once, and what it returns is returned; if not, no handler is run. -/
inductive Dispatched (u : Usage H σ) (r : Registration H) (body : Bytes) :
    Answer H × Usage H σ → Prop
  | handled {e : Event} (hdecode : Event.decode r.kind body = .ok e) :
      Dispatched u r body (.dispatched ((run r.handler e u.world).1.mapError .handler),
        { u with world := (run r.handler e u.world).2, runs := u.runs ++ [(r.handler, e)] })
  | undecodable {e : CodecError} (hdecode : Event.decode r.kind body = .error e) :
      Dispatched u r body (.dispatched (.error (.decode e)), u)

variable {u : Usage H σ} {n : Nat}

/-! ## One request -/

theorem serve_dispatch (r : Registration H) (body : Bytes) (hn : u.found[n]? = some (some r)) :
    u.Dispatched run r body (u.serve run (.dispatch n body)) := by
  simp only [serve, hn, Registration.dispatch]
  cases hdecode : r.decode body with
  | ok e => exact .handled hdecode
  | error e => exact .undecodable hdecode

theorem serve_missing (body : Bytes) (hn : ∀ r, u.found[n]? ≠ some (some r)) :
    u.serve run (.dispatch n body) = (.missing, u) := by
  rw [serve]
  split
  · rename_i r hr
    exact (hn r hr).elim
  · rfl

theorem dispatch_kept (u : Usage H σ) (n : Nat) (body : Bytes) :
    (u.serve run (.dispatch n body)).2.registry = u.registry ∧
      (u.serve run (.dispatch n body)).2.found = u.found := by
  by_cases hn : ∃ r, u.found[n]? = some (some r)
  · obtain ⟨r, hn⟩ := hn
    have hrun := serve_dispatch run r body hn
    generalize u.serve run (.dispatch n body) = served at hrun ⊢
    cases hrun <;> exact ⟨rfl, rfl⟩
  · rw [serve_missing run body fun r hr => hn ⟨r, hr⟩]
    exact ⟨rfl, rfl⟩

theorem get?_serve (u : Usage H σ) (request : Request H) (key : String) :
    (u.serve run request).2.registry.get? key =
      (request.registration?.filter (·.routingKey == key)).or (u.registry.get? key) := by
  cases request with
  | insert kind handler =>
    change (u.registry.insert kind handler).get? key = _
    rw [get?_insert]
    by_cases hkey : key = kind.name
    · simp [hkey, Request.registration?, Registration.routingKey, Option.filter]
    · simp [hkey, Ne.symm hkey, Request.registration?, Registration.routingKey, Option.filter]
  | get k => rfl
  | dispatch n body =>
    rw [(u.dispatch_kept run n body).1]
    rfl

theorem found_serve (u : Usage H σ) (request : Request H) :
    u.found <+: (u.serve run request).2.found := by
  cases request with
  | insert kind handler => exact List.prefix_refl _
  | get key => exact List.prefix_append ..
  | dispatch n body => exact (u.dispatch_kept run n body).2 ▸ List.prefix_refl _

/-! ## Runs -/

theorem after_append (u : Usage H σ) (earlier later : List (Request H)) :
    u.after run (earlier ++ later) = (u.after run earlier).after run later :=
  List.foldl_append ..

theorem found_after (u : Usage H σ) (requests : List (Request H)) :
    u.found <+: (u.after run requests).found := by
  induction requests generalizing u with
  | nil => exact List.prefix_refl _
  | cons request requests ih => exact (u.found_serve run request).trans (ih _)

theorem finds (world : σ) (requests : List (Request H)) (key : String) :
    (after run { world } requests).registry.get? key = lastInserted requests key := by
  induction requests using List.reverseRecOn with
  | nil => rfl
  | append_singleton requests request ih =>
    rw [after_append, lastInserted_append, ← ih]
    exact get?_serve run _ request key

/-- A handler that was looked up is found under the number of the look-up, whatever comes later. -/
theorem found_get (world : σ) (earlier later : List (Request H)) (key : String) :
    (after run { world } (earlier ++ .get key :: later)).found[
      (after run { world } earlier).found.length]? = some (lastInserted earlier key) := by
  rw [after_append]
  generalize hu : after run { world } earlier = u
  have hget : (u.serve run (.get key)).2.found = u.found ++ [lastInserted earlier key] := by
    rw [← finds run world earlier key, hu]
    rfl
  obtain ⟨more, hmore⟩ := found_after run (u.serve run (.get key)).2 later
  change (after run (u.serve run (.get key)).2 later).found[u.found.length]? = _
  rw [← hmore, hget]
  simp

end Usage

/-- After any requests, whatever the handlers `run` do. The registry finds under each key what was
inserted last for it, and an insertion tells whether there was one for its kind before. Its keys are
the kinds that were inserted, in increasing order. What a look-up finds is the same whatever is
asked later: it is still what was inserted last at the look-up, and it is run on a body at most
once, on the event that the body decodes to, and not at all on a body that does not decode. -/
theorem last_write_wins {σ : Type} (run : H → Event → Call HandlerError σ Unit) (world : σ)
    (requests : List (Request H)) :
    let u := Usage.after run { world } requests
    (∀ key, u.registry.get? key = lastInserted requests key) ∧
    (∀ kind handler, ∃ replaced, (u.serve run (.insert kind handler)).1 = .inserted replaced ∧
      (replaced = true ↔ ∃ r ∈ inserted requests, r.kind = kind)) ∧
    (∀ key, u.registry.contains key = true ↔ ∃ r, u.registry.get? key = some r) ∧
    (u.registry.routingKeys.Pairwise (· < ·) ∧
      (∀ key, key ∈ u.registry.routingKeys ↔ ∃ r ∈ inserted requests, r.kind.name = key) ∧
      u.registry.size = u.registry.routingKeys.length) ∧
    ∀ key later body,
      let v := Usage.after run { world } (requests ++ .get key :: later)
      (∀ r, lastInserted requests key = some r →
        v.Dispatched run r body (v.serve run (.dispatch u.found.length body))) ∧
      (lastInserted requests key = none →
        v.serve run (.dispatch u.found.length body) = (.missing, v)) := by
  intro u
  have hfinds := Usage.finds run world requests
  refine ⟨hfinds, fun kind handler => ⟨_, rfl, ?_⟩, fun key => ?_, ⟨?_, fun key => ?_, ?_⟩, ?_⟩
  · change (u.registry.get? kind.name).isSome ↔ _
    rw [hfinds, lastInserted_isSome]
    simp only [Registration.routingKey, EventKind.name_inj]
  · exact Option.isSome_iff_exists
  · exact Table.keys_increasing _
  · refine Table.mem_keys.trans ?_
    change (u.registry.get? key).isSome ↔ _
    rw [hfinds, lastInserted_isSome]
    rfl
  · exact (List.length_map _).symm
  · intro key later body v
    have hfound : v.found[u.found.length]? = some (lastInserted requests key) :=
      Usage.found_get run world requests later key
    refine ⟨fun r hr => ?_, fun hnone => ?_⟩
    · exact Usage.serve_dispatch run r body (hfound.trans (congrArg some hr))
    · exact Usage.serve_missing run body fun r hr => by
        rw [hfound, hnone] at hr
        cases hr

/-- A handler is taken out before it is replaced, and runs on a booking but not on what is none. -/
theorem last_write_wins_taken_out :
    let run (_ : String) (_ : Event) : Call HandlerError Unit Unit := pure ()
    let earlier : List (Request String) := [.insert .newCargoBooked "first",
      .insert .handlingEvent "other", .insert .newCargoBooked "second"]
    let booking : Event := .newCargoBooked { trackingId := "ABC123" }
    let u := Usage.after run { world := () } earlier
    let v := Usage.after run { world := () }
      (earlier ++ [.get "NewCargoBooked", .insert .newCargoBooked "third"])
    u.registry.routingKeys.Pairwise (· < ·) ∧ u.registry.size = 2 ∧
      v.Dispatched run ⟨.newCargoBooked, "second"⟩ booking.encode
        (v.serve run (.dispatch 0 booking.encode)) ∧
      (v.serve run (.dispatch 0 booking.encode)).2.runs = [("second", booking)] ∧
      (v.serve run (.dispatch 0 [255])).2.runs = [] := by
  intro run earlier booking u v
  obtain ⟨-, -, -, ⟨hincreasing, -, -⟩, hlater⟩ := last_write_wins run () earlier
  have hlast : lastInserted earlier "NewCargoBooked" = some ⟨.newCargoBooked, "second"⟩ := by
    decide +kernel
  have hruns := (hlater "NewCargoBooked" [.insert .newCargoBooked "third"] booking.encode).1 _ hlast
  exact ⟨hincreasing, by decide +kernel, hruns, by decide +kernel, by decide +kernel⟩

end CargoEvents.Registry
