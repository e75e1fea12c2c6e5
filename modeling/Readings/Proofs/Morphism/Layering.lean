import Readings.Morphism.Builtin
import Readings.Proofs.Cast.Answers
import Readings.Proofs.Morphism.Composition

/-!
Transformations laid one over another. `mapWith` lays a further morphism onto the composition of a
map where there is one. Reading through such a map is the same as reading through maps that hold one
morphism each and stand on one another.
-/
namespace Readings

open Morphism (inTurn)

namespace Descriptor

/-- A descriptor with transformations laid over it, the first of the list first. -/
def mapAll (morphisms : List Morphism) (d : Descriptor) : Descriptor :=
  morphisms.foldl (fun shape morphism => mapWith morphism shape) d

/-- A descriptor under one map for each morphism, the first of the list innermost. -/
def nestAll (morphisms : List Morphism) (d : Descriptor) : Descriptor :=
  morphisms.foldl (fun shape morphism => .map (.compose morphism .id) shape) d

/-- The transformations that a descriptor has at its root, and what they are laid over. -/
def layers : Descriptor → Composition × Descriptor
  | .map composition inner => (composition, inner)
  | d => (.id, d)

theorem map_with_layers (morphism : Morphism) (d : Descriptor) :
    d.mapWith morphism = .map (.compose morphism d.layers.1) d.layers.2 := by
  cases d <;> rfl

/-- Whatever is laid over a map goes onto its composition. -/
theorem map_all_map (morphisms : List Morphism) (composition : Composition) (inner : Descriptor) :
    (Descriptor.map composition inner).mapAll morphisms =
      .map (composition.layered morphisms) inner := by
  induction morphisms generalizing composition with
  | nil => rfl
  | cons morphism rest ih => exact ih (.compose morphism composition)

/-- Transformations laid over a descriptor stand in one map, with those it had before. -/
theorem map_all_eq (some : morphisms ≠ []) (d : Descriptor) :
    d.mapAll morphisms = .map (d.layers.1.layered morphisms) d.layers.2 := by
  obtain ⟨morphism, rest, rfl⟩ := List.exists_cons_of_ne_nil some
  calc d.mapAll (morphism :: rest)
      = (d.mapWith morphism).mapAll rest := rfl
    _ = (Descriptor.map (.compose morphism d.layers.1) d.layers.2).mapAll rest := by
        rw [map_with_layers]
    _ = .map (d.layers.1.layered (morphism :: rest)) d.layers.2 := map_all_map ..

end Descriptor

/-! ## Reading through layers -/

namespace Outcome

theorem map_readings_comp (outcome : Outcome) (first second : Morphism) :
    (outcome.mapReadings first).mapReadings second =
      outcome.mapReadings fun value => second (first value) := by
  cases outcome with
  | success readings => simp [mapReadings, Function.comp_def]
  | unbound | mismatch => rfl

theorem map_readings_id (outcome : Outcome) : outcome.mapReadings (fun value => value) = outcome := by
  cases outcome with
  | success readings => simp [mapReadings]
  | unbound | mismatch => rfl

/-- What is no success is not transformed. -/
theorem map_readings_failed {outcome : Outcome} (failed : outcome.isSuccess = false)
    (morphism : Morphism) : outcome.mapReadings morphism = outcome := by
  cases outcome with
  | success => cases failed
  | unbound | mismatch => rfl

end Outcome

/-- A map answers with the answer of what it stands on, each reading transformed. -/
theorem answers_map_iff : Answers scope (.map composition shape) actual outcome ↔
    ∃ inside, Answers scope shape actual inside ∧ outcome = inside.mapReadings composition.apply := by
  rw [answers_plain_iff rfl]
  constructor
  · rintro ⟨outcomes, each, rfl⟩
    obtain ⟨inside, rest, head, none, rfl⟩ := List.forall₂_cons_left_iff.mp each
    exact ⟨inside, head, rfl⟩
  · rintro ⟨inside, head, rfl⟩
    exact ⟨[inside], .cons head .nil, rfl⟩

/-- One more map of a single morphism. -/
theorem Answers.nested (answers : Answers scope d actual outcome) (morphism : Morphism) :
    Answers scope (.map (.compose morphism .id) d) actual (outcome.mapReadings morphism) :=
  answers_map_iff.mpr ⟨outcome, answers, rfl⟩

/-- One more morphism on the composition of a map, or the first one over another descriptor. -/
theorem Answers.mapped (answers : Answers scope d actual outcome) (morphism : Morphism) :
    Answers scope (d.mapWith morphism) actual (outcome.mapReadings morphism) := by
  cases d with
  | map composition inner =>
    obtain ⟨inside, below, rfl⟩ := answers_map_iff.mp answers
    refine answers_map_iff.mpr ⟨inside, below, ?_⟩
    rw [Outcome.map_readings_comp]
    exact congrArg inside.mapReadings
      (funext fun value => (composition.apply_compose morphism value).symm)
  | _ => exact answers.nested morphism

/-- Laying morphisms by steps that each transform the answer transforms it by all of them in turn. -/
private theorem answers_laid {lay : Descriptor → Morphism → Descriptor}
    (step : ∀ {d outcome}, Answers scope d actual outcome → ∀ morphism,
      Answers scope (lay d morphism) actual (outcome.mapReadings morphism))
    (morphisms : List Morphism) (answers : Answers scope d actual outcome) :
    Answers scope (morphisms.foldl lay d) actual (outcome.mapReadings (inTurn morphisms)) := by
  induction morphisms generalizing d outcome with
  | nil =>
    have same : outcome.mapReadings (inTurn []) = outcome := outcome.map_readings_id
    rwa [same]
  | cons morphism rest ih =>
    have laid := ih (step answers morphism)
    rwa [Outcome.map_readings_comp] at laid

/-- Transformations laid over a descriptor run in turn on each reading of it, in order and with
repetitions, and leave an answer that is no success as it is; maps of one morphism each answer
likewise. They stand in one map, whose composition has grown by their number and runs layer by
layer, the old layers first. -/
theorem layers_run_in_turn (morphisms : List Morphism) (answers : Answers scope d actual outcome) :
    (∃ result, Answers scope (d.mapAll morphisms) actual result ∧
      Answers scope (d.nestAll morphisms) actual result ∧
      (∀ candidates, outcome = .success candidates →
        result = .success (candidates.map (inTurn morphisms))) ∧
      (outcome.isSuccess = false → result = outcome)) ∧
    (morphisms ≠ [] → d.mapAll morphisms = .map (d.layers.1.layered morphisms) d.layers.2) ∧
    ∀ base : Composition,
      (base.layered morphisms).size = morphisms.length + base.size ∧
      ∀ value,
        (base.layered morphisms).assoc.feed value = inTurn morphisms (base.apply value) ∧
        (base.layered morphisms).apply value = inTurn morphisms (base.apply value) ∧
        base.apply value = inTurn base.latestFirst.reverse value := by
  have laid : Answers scope (d.mapAll morphisms) actual (outcome.mapReadings (inTurn morphisms)) :=
    answers_laid Answers.mapped morphisms answers
  have nested : Answers scope (d.nestAll morphisms) actual
      (outcome.mapReadings (inTurn morphisms)) := answers_laid Answers.nested morphisms answers
  refine ⟨⟨_, laid, nested, ?_, ?_⟩, fun some => d.map_all_eq some, fun base => ?_⟩
  · rintro candidates rfl
    rfl
  · intro failed
    exact Outcome.map_readings_failed failed _
  · refine ⟨base.size_layered morphisms, fun value => ?_⟩
    have runs : (base.layered morphisms).apply value = inTurn morphisms (base.apply value) := by
      rw [Composition.apply_eq, Composition.apply_eq, Composition.stages_layered,
        Morphism.in_turn_append]
    exact ⟨runs, runs, congrFun base.apply_eq_in_turn value⟩

/-- The length of the first key, laid over a map that already takes the keys: three layers that do
not commute, in one map and in three. -/
theorem first_key_is_measured :
    let keys : Descriptor := .mapWith Builtin.keys.morphism .unknown
    let layers : List Morphism := [Builtin.first.morphism, Builtin.length.morphism]
    let actual : Value := .object [("name", .null), ("id", .null)]
    Answers [] (keys.mapAll layers) actual (.success [.number (.ofNat 4)]) ∧
      Answers [] (keys.nestAll layers) actual (.success [.number (.ofNat 4)]) ∧
      (keys.layers.1.layered layers).size = 3 := by
  intro keys layers actual
  have ran : castWithin 2 [] keys actual =
      some (.success [.array [.string "name", .string "id"]]) := rfl
  obtain ⟨⟨result, laid, nested, success, _⟩, _, grown⟩ :=
    layers_run_in_turn layers (answers_of_ran ran)
  obtain rfl := success _ rfl
  exact ⟨laid, nested, (grown keys.layers.1).1⟩

end Readings
