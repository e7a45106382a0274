import CargoEvents.Call

/-! # How calls are composed

A call that is composed of others does what each does to the state, up to the first that fails. What
is bounded or returned by each is so by the whole.
-/
namespace CargoEvents

namespace Call
variable {ε ε' σ α β : Type} {R : σ → σ → Prop}

/-! ## One step after the other -/

theorem throw_apply (e : ε) (s : σ) : (throw e : Call ε σ α) s = (.error e, s) := rfl

theorem get_apply (s : σ) : (get : Call ε σ σ) s = (.ok s, s) := rfl

theorem modify_apply (f : σ → σ) (s : σ) : (modify f : Call ε σ PUnit) s = (.ok ⟨⟩, f s) := rfl

theorem bind_apply (c : Call ε σ α) (f : α → Call ε σ β) (s : σ) :
    (c >>= f) s = match c s with
      | (.ok a, s') => f a s'
      | (.error e, s') => (.error e, s') := by
  change ExceptT.bindCont f (c s).1 (c s).2 = _
  rcases c s with ⟨_ | _, s'⟩ <;> rfl

theorem adapt_apply (f : ε → ε') (c : Call ε σ α) (s : σ) :
    ExceptT.adapt f c s = ((c s).1.mapError f, (c s).2) := rfl

theorem bind_cases (c : Call ε σ α) (f : α → Call ε σ β) (s : σ) :
    ((c >>= f) s).2 = (c s).2 ∨ ∃ a, (c s).1 = .ok a ∧ ((c >>= f) s).2 = (f a (c s).2).2 := by
  rw [bind_apply]
  rcases c s with ⟨e | a, s'⟩
  · exact .inl rfl
  · exact .inr ⟨a, rfl, rfl⟩

/-! ## What bounds each step -/

/-- All that a call does to the state is in `R`, whether it returns or fails. -/
def Within (R : σ → σ → Prop) (c : Call ε σ α) : Prop := ∀ s, R s (c s).2

theorem Within.bind (trans : ∀ s t u, R s t → R t u → R s u) {c : Call ε σ α}
    {f : α → Call ε σ β} (hc : c.Within R) (hf : ∀ a, (f a).Within R) : (c >>= f).Within R := by
  intro s
  rcases c.bind_cases f s with h | ⟨a, -, h⟩
  · rw [h]
    exact hc s
  · rw [h]
    exact trans _ _ _ (hc s) (hf a _)

/-- All that the call returns has the property, whatever state it is made in. -/
def Returns (P : α → Prop) (c : Call ε σ α) : Prop := ∀ s a, (c s).1 = .ok a → P a

theorem adapt_eq_ok {c : Call ε σ α} {f : ε → ε'} {s : σ} {a : α}
    (h : (ExceptT.adapt f c s).1 = .ok a) : (c s).1 = .ok a := by
  rw [adapt_apply] at h
  cases hc : (c s).1 with
  | error e =>
    rw [hc] at h
    cases h
  | ok a' =>
    rw [hc] at h
    cases h
    rfl

theorem Within.adapt {c : Call ε σ α} (h : c.Within R) (f : ε → ε') :
    Within R (ExceptT.adapt f c) := h

theorem Within.forM (refl : ∀ s, R s s) (trans : ∀ s t u, R s t → R t u → R s u)
    {f : β → Call ε σ PUnit} (h : ∀ b, (f b).Within R) (l : List β) : (l.forM f).Within R := by
  induction l with
  | nil => exact refl
  | cons b l ih => exact (h b).bind trans fun _ => ih

end Call

end CargoEvents
