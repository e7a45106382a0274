import CargoEvents.Amqp.Redaction
import CargoEvents.Proofs.Amqp.Secrecy
import Mathlib.Data.List.Infix

/-! # Addresses without a password

What becomes of an address that has no password when it is shown. The marks of a password are
looked for behind the authority as well, so a port and a path with an `@` in it can be taken
for one.
-/
namespace CargoEvents.Amqp

/-! ## Splitting at marks -/
section Splitting
variable {c : Char} {mark cs before after : List Char}

theorem splitAtFirst_eq_none_iff : splitAtFirst mark cs = none ↔ ¬mark <:+: cs := by
  induction cs with
  | nil => simp [splitAtFirst]
  | cons c cs ih =>
    rw [splitAtFirst, List.infix_cons_iff, ← List.isPrefixOf_iff_prefix, not_or, ← ih]
    split <;> simp [*]

theorem splitAtFirst_append_cons (h : c ∉ before) (after : List Char) :
    splitAtFirst [c] (before ++ c :: after) = some (before, after) := by
  have hsplit : splitAtFirst [c] (before ++ [c] ++ after) = some (before, after) :=
    splitAtFirst_of_notMem h after
  rwa [List.append_assoc] at hsplit

theorem splitAtFirst_eq_some_iff :
    splitAtFirst [c] cs = some (before, after) ↔ cs = before ++ c :: after ∧ c ∉ before := by
  constructor
  · intro h
    have hmem : c ∈ cs := by
      by_contra hno
      have hnone : splitAtFirst [c] cs = none := by
        rw [splitAtFirst_eq_none_iff]
        exact fun hin => hno (hin.subset (List.mem_singleton_self c))
      simp [hnone] at h
    obtain ⟨first, rest, rfl, hfirst⟩ := List.eq_append_cons_of_mem hmem
    rw [splitAtFirst_append_cons hfirst] at h
    obtain ⟨rfl, rfl⟩ := Prod.mk.inj (Option.some.inj h)
    exact ⟨rfl, hfirst⟩
  · rintro ⟨rfl, hbefore⟩
    exact splitAtFirst_append_cons hbefore after

theorem prefix_of_first {xs ys : List Char} (h : before ++ c :: after = xs ++ c :: ys)
    (hbefore : c ∉ before) : before <+: xs := by
  rcases List.append_eq_append_iff.mp h with ⟨more, rfl, -⟩ | ⟨more, rfl, hmore⟩
  · exact List.prefix_append before more
  · cases more with
    | nil => simp
    | cons d more =>
      obtain ⟨rfl, -⟩ := List.cons.inj hmore
      simp at hbefore

end Splitting

theorem redact_of_noScheme {text : String} (h : ¬[':', '/', '/'] <:+: text.toList) :
    redact text = text := by
  simp [redact, redactChars, splitAtFirst_eq_none_iff.mpr h]

/-- An address that has no password: without an account, or with no colon in it. -/
structure Bare where
  scheme : String
  authority : String
  /-- Path, query and what else follows the authority. -/
  tail : String
  scheme_plain : ':' ∉ scheme.toList
  authority_plain : ∀ c ∈ ['/', '?', '#'], c ∉ authority.toList
  tail_starts : ∀ c ∈ tail.toList.head?, c ∈ ['/', '?', '#']
  no_password : '@' ∉ authority.toList ∨ ∃ user host : List Char,
    authority.toList = user ++ '@' :: host ∧ '@' ∉ host ∧ ':' ∉ user

namespace Bare
variable {a : Bare} {user hidden beyond : List Char}

def text (a : Bare) : String := a.scheme ++ "://" ++ a.authority ++ a.tail

/-- The text `hidden` looks like the password of an account: it stands between the first colon
and the first `@`, which belongs to no account. -/
structure Mistakes (a : Bare) (user hidden beyond : List Char) : Prop where
  no_account : '@' ∉ a.authority.toList
  place : a.authority.toList ++ a.tail.toList = user ++ ':' :: (hidden ++ '@' :: beyond)
  first_colon : ':' ∉ user
  first_at : '@' ∉ user ++ ':' :: hidden

theorem toList_text (a : Bare) : a.text.toList =
    a.scheme.toList ++ [':', '/', '/'] ++ (a.authority.toList ++ a.tail.toList) := by
  simp [text]

theorem colon_notMem {credentials host : List Char} (hat : '@' ∈ a.authority.toList)
    (hplace : a.authority.toList ++ a.tail.toList = credentials ++ '@' :: host)
    (hfirst : '@' ∉ credentials) : ':' ∉ credentials := by
  rcases a.no_password with hnone | ⟨user, host', hsplit, -, huser⟩
  · exact absurd hat hnone
  · rw [hsplit, List.append_assoc, List.cons_append] at hplace
    exact fun hmem => huser ((prefix_of_first hplace.symm hfirst).subset hmem)

theorem redact_of_mistakes (h : a.Mistakes user hidden beyond) :
    redact a.text = a.scheme ++ "://" ++ String.ofList user ++ ":***@" ++ String.ofList beyond := by
  have hat : '@' ∉ user ∧ '@' ∉ hidden := by
    have := h.first_at
    simp_all
  have hplace : a.authority.toList ++ a.tail.toList =
      user ++ [':'] ++ hidden ++ ['@'] ++ beyond := by
    simpa using h.place
  rw [redact, a.toList_text, hplace, redactChars_eq a.scheme_plain h.first_colon hat.1 hat.2]
  apply String.toList_injective
  simp

theorem redact_of_no_mistake (h : ∀ user hidden beyond, ¬a.Mistakes user hidden beyond) :
    redact a.text = a.text := by
  have hnone : redactChars a.text.toList = none := by
    simp only [a.toList_text, redactChars, splitAtFirst_of_notMem a.scheme_plain,
      Option.bind_eq_bind, Option.bind_some]
    cases haccount : splitAtFirst ['@'] (a.authority.toList ++ a.tail.toList) with
    | none => rfl
    | some split =>
      obtain ⟨credentials, beyond⟩ := split
      obtain ⟨hplace, hat⟩ := splitAtFirst_eq_some_iff.mp haccount
      cases hcolon : splitAtFirst [':'] credentials with
      | none => simp [hcolon]
      | some split =>
        obtain ⟨user, hidden⟩ := split
        obtain ⟨rfl, huser⟩ := splitAtFirst_eq_some_iff.mp hcolon
        -- An `@` within the authority ends a user without a colon; one behind it ends no account.
        by_cases hin : '@' ∈ a.authority.toList
        · exact absurd (by simp) (colon_notMem hin hplace hat)
        · exact absurd ⟨hin, by simpa using hplace, huser, hat⟩ (h user hidden beyond)
  rw [redact, hnone]
  rfl

/-- An address without a password is shown as it is, but where the port and more are taken for
one, unless they read `***` already. -/
theorem redact_eq_self_iff (a : Bare) : redact a.text = a.text ↔
    ∀ user hidden beyond, a.Mistakes user hidden beyond → hidden = ['*', '*', '*'] := by
  have hshown {user hidden beyond : List Char} (hm : a.Mistakes user hidden beyond) :
      redact a.text = a.text ↔ hidden = ['*', '*', '*'] := by
    rw [redact_of_mistakes hm, ← String.toList_inj, a.toList_text, hm.place,
      ← @List.append_left_inj _ hidden ['*', '*', '*'] ('@' :: beyond)]
    simp [eq_comm]
  constructor
  · exact fun hself user hidden beyond hm => (hshown hm).mp hself
  · intro hall
    by_cases hm : ∃ user hidden beyond, a.Mistakes user hidden beyond
    · obtain ⟨user, hidden, beyond, hm⟩ := hm
      exact (hshown hm).mpr (hall user hidden beyond hm)
    · exact redact_of_no_mistake fun user hidden beyond h => hm ⟨user, hidden, beyond, h⟩

end Bare

/-- What is shown of a text without a password: the text itself, unless the first colon and the
first `@` behind an authority that has no account enclose something. -/
theorem shown_without_password (text : String) :
    (¬[':', '/', '/'] <:+: text.toList → redact text = text) ∧
    ∀ a : Bare, a.text = text →
      (redact text = text ↔
        ∀ user hidden beyond, a.Mistakes user hidden beyond → hidden = ['*', '*', '*']) ∧
      ∀ user hidden beyond, a.Mistakes user hidden beyond → redact text =
        a.scheme ++ "://" ++ String.ofList user ++ ":***@" ++ String.ofList beyond := by
  refine ⟨redact_of_noScheme, ?_⟩
  rintro a rfl
  exact ⟨a.redact_eq_self_iff, fun _ _ _ => Bare.redact_of_mistakes⟩

/-- An account keeps the rest of its address as it is. -/
theorem shown_without_password_guest :
    redact "localhost:5672/a@b" = "localhost:5672/a@b" ∧
    ∃ a : Bare, a.text = "amqp://guest@localhost:5672/a@b" ∧ redact a.text = a.text := by
  let a : Bare := ⟨"amqp", "guest@localhost:5672", "/a@b", by decide, by simp, by simp,
    .inr ⟨"guest".toList, "localhost:5672".toList, by decide +kernel⟩⟩
  obtain ⟨hkept, -⟩ := (shown_without_password a.text).2 a rfl
  refine ⟨(shown_without_password "localhost:5672/a@b").1 (by decide), a, by decide +kernel,
    hkept.mpr fun user hidden beyond h => absurd ?_ h.no_account⟩
  decide +kernel

/-- The port and the start of a virtual host are shown as a password. -/
theorem port_shown_as_password :
    ∃ a : Bare, a.text = "amqp://localhost:5672/a@b" ∧
      redact a.text = "amqp://localhost:***@b" ∧ redact a.text ≠ a.text := by
  refine ⟨⟨"amqp", "localhost:5672", "/a@b", by decide, by simp, by simp,
    .inl (by decide +kernel)⟩, ?_, ?_, ?_⟩ <;> decide +kernel

end CargoEvents.Amqp
