import Readings.Proofs.Cast.Parts

/-!
Answers without a limit in depth. A cast answers when it does so at some depth, and then at every
larger one; the answer is unique. A plain node answers as soon as its parts do, and only then
(`answers_plain_iff`), which is how answers are compared where two descriptors need different
depths.
-/
namespace Readings

/-- The answer of a cast that is not limited in depth. -/
def Answers (scope : Scope) (d : Descriptor) (actual : Value) (outcome : Outcome) : Prop :=
  ∃ depth, ∀ budget, depth ≤ budget → castWithin budget scope d actual = some outcome

theorem answers_of_ran (ran : castWithin depth scope d actual = some outcome) :
    Answers scope d actual outcome :=
  ⟨depth, fun _ more => cast_mono ran more⟩

theorem Answers.unique (first : Answers scope d actual outcome)
    (second : Answers scope d actual other) : outcome = other := by
  obtain ⟨depth, first⟩ := first
  obtain ⟨deeper, second⟩ := second
  have same := (first _ (Nat.le_max_left depth deeper)).symm.trans
    (second _ (Nat.le_max_right depth deeper))
  exact Option.some.inj same

namespace Answers

/-- Finitely many parts that answer at some depth each answer at one depth together. -/
theorem together {parts : List (Descriptor × Value)}
    (each : List.Forall₂ (fun part outcome => Answers scope part.1 part.2 outcome) parts outcomes) :
    ∃ depth, List.Forall₂
      (fun part outcome => castWithin depth scope part.1 part.2 = some outcome) parts outcomes := by
  induction each with
  | nil => exact ⟨0, .nil⟩
  | cons head _ ih =>
    obtain ⟨depth, first⟩ := head
    obtain ⟨deeper, others⟩ := ih
    refine ⟨max depth deeper, .cons (first _ (Nat.le_max_left ..)) (others.imp ?_)⟩
    exact fun _ _ ran => cast_mono ran (Nat.le_max_right ..)

theorem plain {d : Descriptor} (plain : d.plain = true)
    (each : List.Forall₂ (fun part outcome => Answers scope part.1 part.2 outcome)
      (d.parts actual) outcomes) : Answers scope d actual (d.assemble actual outcomes) := by
  obtain ⟨depth, ran⟩ := together each
  have answered : castWithin (depth + 1) scope d actual = some (d.assemble actual outcomes) :=
    (cast_plain_iff plain).mpr ⟨outcomes, ran, rfl⟩
  exact answers_of_ran answered

theorem reference {scope : Scope} (bound : scope.lookup symbol = some body)
    (inside : Answers scope body actual outcome) :
    Answers scope (.reference symbol) actual outcome := by
  obtain ⟨depth, ran⟩ := inside
  exact answers_of_ran ((cast_bound bound).trans (ran depth (Nat.le_refl depth)))

end Answers

/-- A plain node answers with what it assembles from the answers of its parts, and not without
them. -/
theorem answers_plain_iff {d : Descriptor} (plain : d.plain = true) :
    Answers scope d actual outcome ↔
      ∃ outcomes, List.Forall₂ (fun part result => Answers scope part.1 part.2 result)
        (d.parts actual) outcomes ∧ outcome = d.assemble actual outcomes := by
  constructor
  · rintro ⟨depth, ran⟩
    obtain ⟨outcomes, below, rfl⟩ := (cast_plain_iff plain).mp (ran (depth + 1) (Nat.le_succ _))
    exact ⟨outcomes, below.imp fun _ _ => answers_of_ran, rfl⟩
  · rintro ⟨outcomes, each, rfl⟩
    exact .plain plain each

end Readings
