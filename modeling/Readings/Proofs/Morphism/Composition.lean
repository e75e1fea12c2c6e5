import Readings.Morphism.Basic

/-!
Compositions run in turn. A composition keeps the latest morphism at the front and is turned round
before it runs, so that what was laid first runs first: it does what its morphisms do one after the
other, and what is laid over it runs behind them.
-/
namespace Readings

/-- Morphisms run one after the other, the first of the list first. -/
def Morphism.inTurn : List Morphism → Morphism
  | [], value => value
  | morphism :: rest, value => inTurn rest (morphism value)

open Morphism (inTurn)

theorem Morphism.in_turn_append (first second : List Morphism) (value : Value) :
    inTurn (first ++ second) value = inTurn second (inTurn first value) := by
  induction first generalizing value with
  | nil => rfl
  | cons morphism rest ih => exact ih (morphism value)

theorem Pipeline.feed_eq (pipeline : Pipeline) (value : Value) :
    pipeline.feed value = inTurn pipeline.stages value := by
  obtain ⟨stages⟩ := pipeline
  induction stages generalizing value with
  | nil => rfl
  | cons morphism rest ih => exact ih (morphism value)

namespace Composition

/-- A composition with further morphisms laid over it, the first of the list first. -/
def layered (base : Composition) (morphisms : List Morphism) : Composition :=
  morphisms.foldl (fun composition morphism => .compose morphism composition) base

/-- Pushing the morphisms onto the front of a pipeline turns their order round. -/
private theorem stages_pushed (morphisms : List Morphism) (pipeline : Pipeline) :
    (morphisms.foldl (fun pipeline morphism => .pipe morphism pipeline) pipeline).stages =
      morphisms.reverse ++ pipeline.stages := by
  induction morphisms generalizing pipeline with
  | nil => rfl
  | cons morphism rest ih => rw [List.foldl_cons, ih]; simp [Pipeline.pipe]

theorem assoc_stages (composition : Composition) :
    composition.assoc.stages = composition.latestFirst.reverse := by
  rw [assoc, stages_pushed]
  simp [Pipeline.tap]

/-- A composition runs its morphisms layer by layer. -/
theorem apply_eq (composition : Composition) (value : Value) :
    composition.apply value = inTurn composition.assoc.stages value :=
  composition.assoc.feed_eq value

theorem apply_eq_in_turn (composition : Composition) :
    composition.apply = inTurn composition.latestFirst.reverse :=
  funext fun value => by rw [apply_eq, assoc_stages]

theorem latest_layered (base : Composition) (morphisms : List Morphism) :
    (base.layered morphisms).latestFirst = morphisms.reverse ++ base.latestFirst := by
  induction morphisms generalizing base with
  | nil => rfl
  | cons morphism rest ih =>
    have laid : base.layered (morphism :: rest) = (compose morphism base).layered rest := rfl
    rw [laid, ih]
    simp [compose]

/-- Turned round, the new layers come behind the old ones, in the order they were laid. -/
theorem stages_layered (base : Composition) (morphisms : List Morphism) :
    (base.layered morphisms).assoc.stages = base.assoc.stages ++ morphisms := by
  rw [assoc_stages, assoc_stages, latest_layered]
  simp

theorem size_layered (base : Composition) (morphisms : List Morphism) :
    (base.layered morphisms).size = morphisms.length + base.size := by
  rw [(base.layered morphisms).counted, latest_layered, base.counted, List.length_append,
    List.length_reverse]

/-- The morphism laid last runs last. -/
theorem apply_compose (morphism : Morphism) (composition : Composition) (value : Value) :
    (compose morphism composition).apply value = morphism (composition.apply value) := by
  have last : (compose morphism composition).assoc.stages =
      composition.assoc.stages ++ [morphism] := stages_layered composition [morphism]
  rw [apply_eq, apply_eq, last, Morphism.in_turn_append]
  rfl

end Composition

end Readings
