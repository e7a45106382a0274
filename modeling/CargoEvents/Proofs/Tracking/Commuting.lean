import CargoEvents.Proofs.Tracking.Outcomes

/-! # Events whose order makes no difference

Events about different cargos touch different views, and a change of the destination writes what
no route and no handling writes. Two such events can change places: each of them ends as it would
have ended, and the repository is the same. So the order of a list of events matters only up to
such exchanges.
-/
namespace CargoEvents.Tracking
open Calendar (Instant)
open Repository

/-- The first event changes the destination of a cargo, and the second one routes or handles it. -/
def Diverts : Event → Event → Prop
  | .cargoDestinationChanged _, .cargoToRouteAssigned _ => True
  | .cargoDestinationChanged _, .cargoWasHandled _ => True
  | _, _ => False

/-- The events are about different cargos, or write different fields of a view. -/
def Independent (e f : Event) : Prop := cargo? e ≠ cargo? f ∨ Diverts e f ∨ Diverts f e

/-- The lists differ only by exchanges of independent events that are neighbours. -/
inductive Reordered : List (Instant × Event) → List (Instant × Event) → Prop
  | refl (xs : List (Instant × Event)) : Reordered xs xs
  | swap {x y : Instant × Event} (h : Independent x.2 y.2) (xs : List (Instant × Event)) :
      Reordered (x :: y :: xs) (y :: x :: xs)
  | cons (x : Instant × Event) {xs ys : List (Instant × Event)} (h : Reordered xs ys) :
      Reordered (x :: xs) (x :: ys)
  | trans {xs ys zs : List (Instant × Event)} (h : Reordered xs ys) (h' : Reordered ys zs) :
      Reordered xs zs

/-- The events, each with how its handling ended. -/
def Repository.results (r : Repository) :
    List (Instant × Event) → List ((Instant × Event) × Except HandlerError Unit)
  | [] => []
  | x :: xs => (x, (handle x.1 x.2 r).1) :: (handle x.1 x.2 r).2.results xs

variable {r s : Repository} {id : String} {e f : Event} {now later : Instant}

theorem Independent.symm (h : Independent e f) : Independent f e := h.imp Ne.symm Or.symm

/-- Of two independent events about one cargo both need its view, and either order renews it in
the same way. -/
theorem Independent.renewed_comm (h : Independent e f) (he : cargo? e = some id)
    (hf : cargo? f = some id) : updated? e = some id ∧ updated? f = some id ∧
      ∀ now later before, renewed later f (renewed now e before) =
        renewed now e (renewed later f before) := by
  have hwrites {d g : Event} (hd : Diverts d g) (hid : cargo? d = some id)
      (hig : cargo? g = some id) : updated? d = some id ∧ updated? g = some id ∧
        ∀ now later before, renewed later g (renewed now d before) =
          renewed now d (renewed later g before) := by
    cases d with
    | cargoDestinationChanged =>
      cases g with
      | cargoToRouteAssigned | cargoWasHandled =>
        exact ⟨hid, hig, fun now later before => by cases before <;> rfl⟩
      | newCargoBooked | cargoDestinationChanged | handlingEvent => exact hd.elim
    | newCargoBooked | cargoToRouteAssigned | cargoWasHandled | handlingEvent => exact hd.elim
  rcases h with hne | hd | hd
  · exact (hne (he.trans hf.symm)).elim
  · exact hwrites hd he hf
  · obtain ⟨hf', he', hcomm⟩ := hwrites hd hf he
    exact ⟨he', hf', fun now later before => (hcomm later now before).symm⟩

/-! ## What an event does to each cargo -/

theorem Repository.Sound.ext (hr : r.Sound) (hs : s.Sound)
    (h : ∀ id, r.cargos.get? id = s.cargos.get? id) : r = s := by
  obtain ⟨cargos, findFaults, storeFaults⟩ := r
  obtain ⟨cargos', findFaults', storeFaults'⟩ := s
  obtain rfl : findFaults = [] := hr.finds
  obtain rfl : storeFaults = [] := hr.stores
  obtain rfl : findFaults' = [] := hs.finds
  obtain rfl : storeFaults' = [] := hs.stores
  obtain rfl : cargos = cargos' := Table.ext_get? h
  rfl

theorem sound_handle (h : r.Sound) (now : Instant) (e : Event) :
    (handle now e r).2.Sound := by
  rcases handle_sound h now e with ⟨booking, -, hr⟩ | ⟨handling, -, hr⟩ | ⟨cargo, w, -, -, hr⟩ |
    ⟨cargo, -, -, hr⟩
  · exact hr ▸ sound_put h _
  · exact hr ▸ h
  · exact hr ▸ sound_put h _
  · exact hr ▸ h

theorem get?_handle (h : r.Sound) (now : Instant) (e : Event) (id : String) :
    (handle now e r).2.cargos.get? id =
      if cargo? e = some id then renewed now e (r.cargos.get? id) else r.cargos.get? id := by
  cases hc : cargo? e with
  | none =>
    cases e with
    | handlingEvent => rfl
    | newCargoBooked | cargoDestinationChanged | cargoToRouteAssigned | cargoWasHandled => cases hc
  | some cargo =>
    have houtcome := handle_outcome hc now r
    generalize handle now e r = ended at houtcome
    cases houtcome with
    | unreadable _ hf => cases h.finds.symm.trans hf
    | unwritable _ hs => cases h.stores.symm.trans hs
    | unknown hu _ hv =>
      split
      · rename_i hid
        obtain rfl := Option.some.inj hid
        rw [renewed_of_updated hu, hv]
        rfl
      · rfl
    | @handled view _ _ hv =>
      obtain rfl : view.trackingId = cargo := Filed.renewed h.filed hc hv
      rw [put_get?]
      by_cases hid : id = view.trackingId
      · rw [if_pos hid, if_pos (congrArg some hid.symm), hid, hv]
      · rw [if_neg hid, if_neg fun heq => hid (Option.some.inj heq).symm]

theorem result_congr (hr : r.Sound) (hs : s.Sound) (now : Instant)
    (h : ∀ id, updated? e = some id → r.cargos.contains id = s.cargos.contains id) :
    (handle now e r).1 = (handle now e s).1 := by
  by_cases hk : ∀ id, updated? e = some id → r.cargos.contains id
  · obtain ⟨_, hr', -⟩ := hr.handle now hk
    obtain ⟨_, hs', -⟩ := hs.handle now fun id hid => h id hid ▸ hk id hid
    rw [hr', hs']
  · obtain ⟨id, hid⟩ := not_forall.mp hk
    obtain ⟨hid, hc⟩ := Classical.not_imp.mp hid
    rw [hr.handle_unknown now hid hc, hs.handle_unknown now hid (h id hid ▸ hc)]

/-! ## Exchanges -/

theorem result_comm (h : r.Sound) (hi : Independent e f) (now later : Instant) :
    (handle later f (handle now e r).2).1 = (handle later f r).1 := by
  refine result_congr (sound_handle h now e) h later fun id hf => ?_
  rw [Table.contains, Table.contains, get?_handle h]
  split
  · rename_i he
    obtain ⟨hu, -, -⟩ := hi.renewed_comm he (cargo?_of_updated hf)
    rw [renewed_of_updated hu, Option.isSome_map]
  · rfl

theorem handle_comm (h : r.Sound) (hi : Independent e f) (now later : Instant) :
    (handle later f (handle now e r).2).2 = (handle now e (handle later f r).2).2 := by
  have he := sound_handle h now e
  have hf := sound_handle h later f
  refine (sound_handle he later f).ext (sound_handle hf now e) fun id => ?_
  rw [get?_handle he, get?_handle hf, get?_handle h, get?_handle h]
  by_cases hce : cargo? e = some id
  · by_cases hcf : cargo? f = some id
    · simp only [hce, hcf, if_true]
      exact (hi.renewed_comm hce hcf).2.2 now later _
    · simp only [hce, hcf, if_true, if_false]
  · simp only [hce, if_false]

theorem after_reordered (h : r.Sound) {xs ys : List (Instant × Event)}
    (ho : Reordered xs ys) : r.after xs = r.after ys ∧ (r.results xs).Perm (r.results ys) := by
  induction ho generalizing r with
  | refl => exact ⟨rfl, .refl _⟩
  | @swap x y hi xs =>
    have hstate := handle_comm h hi x.1 y.1
    refine ⟨?_, ?_⟩
    · simp only [after, List.foldl_cons, hstate]
    · simp only [results, hstate, result_comm h hi x.1 y.1, result_comm h hi.symm y.1 x.1]
      exact .swap ..
  | cons x _ ih =>
    obtain ⟨hstate, hresults⟩ := ih (sound_handle h x.1 x.2)
    exact ⟨hstate, hresults.cons _⟩
  | trans _ _ ih ih' => exact ⟨(ih h).1.trans (ih' h).1, (ih h).2.trans (ih' h).2⟩

/-- In every repository that can be reached and that no failure is lined up for. Two independent
events, each heard of at its time, end the same way in either order, and leave the same repository.
So lists of events that differ only by exchanges of such neighbours lead to the same repository,
and every event in them ends the same way. -/
theorem independent_events_commute (deeds : List Deed) (hf : (reached deeds).findFaults = [])
    (hs : (reached deeds).storeFaults = []) :
    let r := reached deeds
    (∀ now later e f, Independent e f →
      (handle later f (handle now e r).2).1 = (handle later f r).1 ∧
      (handle now e (handle later f r).2).1 = (handle now e r).1 ∧
      (handle later f (handle now e r).2).2 = (handle now e (handle later f r).2).2) ∧
    ∀ xs ys, Reordered xs ys → r.after xs = r.after ys ∧ (r.results xs).Perm (r.results ys) := by
  intro r
  have h : r.Sound := ⟨hf, hs, filed_reached deeds⟩
  refine ⟨fun now later e f hi => ⟨?_, ?_, ?_⟩, fun xs ys => after_reordered h⟩
  · exact result_comm h hi now later
  · exact result_comm h hi.symm later now
  · exact handle_comm h hi now later

/-- A loading and a change of the destination change places, and so does an update of a cargo that
is unknown. -/
theorem independent_events_commute_diverted :
    let r := reached [.handle Samples.clock bookingOfABC123]
    let diversion : Event :=
      .cargoDestinationChanged { trackingId := "ABC123", destination := "DEHAM" }
    let stray : Event := .cargoWasHandled { trackingId := "XYZ789" }
    r.findFaults = [] ∧ r.storeFaults = [] ∧
    r.after ([loading, diversion, stray].map (Samples.clock, ·)) =
      r.after ([stray, diversion, loading].map (Samples.clock, ·)) := by
  intro r diversion stray
  obtain ⟨-, hlists⟩ :=
    independent_events_commute [.handle Samples.clock bookingOfABC123] rfl rfl
  have hloading : Independent loading diversion := .inr (.inr trivial)
  have hstray : Independent loading stray := .inl (by decide)
  have hother : Independent diversion stray := .inl (by decide)
  refine ⟨rfl, rfl, (hlists _ _ ?_).1⟩
  exact .trans (.swap hloading _) (.trans (.cons _ (.swap hstray _)) (.swap hother _))

end CargoEvents.Tracking
