import Mathlib.Data.List.Forall2

/-!
# Success of a whole

A failure of one step fails the whole, so where the whole has succeeded each step has.
-/

namespace Multipart

variable {ε α β : Type}

theorem map_eq_ok_iff {outcome : Except ε α} {f : α → β} {b : β} :
    outcome.map f = .ok b ↔ ∃ a, outcome = .ok a ∧ f a = b := by
  cases outcome with
  | error e => simp [Except.map]
  | ok a => simp [Except.map]

theorem bind_eq_ok_iff {outcome : Except ε α} {f : α → Except ε β} {b : β} :
    (outcome >>= f) = .ok b ↔ ∃ a, outcome = .ok a ∧ f a = .ok b := by
  cases outcome with
  | error e => simp [bind, Except.bind]
  | ok a => simp [bind, Except.bind]

theorem eq_ok_of_mapError {ε' : Type} {outcome : Except ε α} {f : ε → ε'} {a : α}
    (succeeded : outcome.mapError f = .ok a) : outcome = .ok a := by
  cases outcome with
  | error e => cases succeeded
  | ok b => cases succeeded; rfl

theorem mapM_cons_eq_ok_iff {f : α → Except ε β} {a : α} {as : List α} {bs : List β} :
    (a :: as).mapM f = .ok bs ↔
      ∃ b rest, f a = .ok b ∧ as.mapM f = .ok rest ∧ bs = b :: rest := by
  rw [List.mapM_cons]
  constructor
  · intro succeeded
    cases first : f a with
    | error e => rw [first] at succeeded; cases succeeded
    | ok b =>
      cases others : as.mapM f with
      | error e => rw [first, others] at succeeded; cases succeeded
      | ok rest =>
        rw [first, others] at succeeded
        cases succeeded
        exact ⟨b, rest, rfl, rfl, rfl⟩
  · rintro ⟨b, rest, first, others, rfl⟩
    rw [first, others]
    rfl

theorem mapM_eq_ok_iff {f : α → Except ε β} {as : List α} {bs : List β} :
    as.mapM f = .ok bs ↔ List.Forall₂ (fun a b => f a = .ok b) as bs := by
  induction as generalizing bs with
  | nil =>
    rw [List.mapM_nil, List.forall₂_nil_left_iff]
    exact ⟨fun same => (Except.ok.inj same).symm, fun empty => congrArg Except.ok empty.symm⟩
  | cons a as ih =>
    rw [mapM_cons_eq_ok_iff, List.forall₂_cons_left_iff]
    simp only [ih]

theorem mapM_cons_eq_error_iff {f : α → Except ε β} {a : α} {as : List α} {e : ε} :
    (a :: as).mapM f = .error e ↔
      f a = .error e ∨ ∃ b, f a = .ok b ∧ as.mapM f = .error e := by
  rw [List.mapM_cons]
  cases f a with
  | error cause => simp [bind, Except.bind]
  | ok b => cases as.mapM f <;> simp [bind, Except.bind, pure, Except.pure]

/-- The first step that fails decides how the whole fails. -/
theorem mapM_eq_error_iff {f : α → Except ε β} {as : List α} {e : ε} :
    as.mapM f = .error e ↔
      ∃ before a after, as = before ++ a :: after ∧ (∀ x ∈ before, ∃ b, f x = .ok b) ∧
        f a = .error e := by
  induction as with
  | nil => simp [pure, Except.pure]
  | cons a as ih =>
    rw [mapM_cons_eq_error_iff, ih]
    constructor
    · rintro (failed | ⟨b, first, before, x, after, rfl, fine, failed⟩)
      · exact ⟨[], a, as, rfl, List.forall_mem_nil _, failed⟩
      · exact ⟨a :: before, x, after, rfl, List.forall_mem_cons.mpr ⟨⟨b, first⟩, fine⟩, failed⟩
    · rintro ⟨before, x, after, same, fine, failed⟩
      cases before with
      | nil =>
        cases same
        exact .inl failed
      | cons y before =>
        cases same
        obtain ⟨⟨b, first⟩, fine⟩ := List.forall_mem_cons.mp fine
        exact .inr ⟨b, first, before, x, after, rfl, fine, failed⟩

end Multipart
