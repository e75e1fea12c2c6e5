import Mathlib.Data.List.Basic

/-!
Computations that can fail. What they are made of answers where the whole does, and the whole fails
with the first failure in it.
-/
namespace Readings

theorem bind_ok_iff {first : Except ε α} {next : α → Except ε β} :
    first >>= next = .ok result ↔ ∃ middle, first = .ok middle ∧ next middle = .ok result := by
  cases first with
  | error error => exact ⟨nofun, fun ⟨_, ran, _⟩ => nomatch ran⟩
  | ok middle => exact ⟨fun ran => ⟨middle, rfl, ran⟩, fun ⟨_, rfl, ran⟩ => ran⟩

theorem ok_of_bind {first : Except ε α} {next : α → Except ε β}
    (ran : first >>= next = .ok result) :
    ∃ middle, first = .ok middle ∧ next middle = .ok result :=
  bind_ok_iff.mp ran

theorem map_error_ok_iff {reading : Except ε α} {f : ε → ε'} :
    reading.mapError f = .ok answer ↔ reading = .ok answer := by
  cases reading <;> simp [Except.mapError]

/-- The error of a computation that failed. -/
def failure? : Except ε α → Option ε
  | .error error => some error
  | .ok _ => none

theorem failure_eq_some_iff {result : Except ε α} :
    failure? result = some error ↔ result = .error error := by
  cases result <;> simp [failure?]

theorem failure_eq_none_iff {result : Except ε α} :
    failure? result = none ↔ ∃ answer, result = .ok answer := by
  cases result <;> simp [failure?]

theorem failure_map (f : α → β) (result : Except ε α) :
    failure? (result.map f) = failure? result := by
  cases result <;> rfl

/-- Doing one thing after the other fails with the first failure. -/
theorem failure_each (f : α → Except ε β) (items : List α) :
    failure? (items.mapM f) = items.findSome? fun item => failure? (f item) := by
  induction items with
  | nil => rfl
  | cons item rest ih =>
    rw [List.mapM_cons, List.findSome?_cons, ← ih]
    cases f item with
    | error error => rfl
    | ok result => cases rest.mapM f <;> rfl

end Readings
