import Readings.Value.Basic

/-!
Morphisms, the transformations a `map` descriptor applies, and flat sequences of them. A composition
grows at the end that runs last, a pipeline at the end that runs first; re-associating the one gives
the other.
-/
namespace Readings

/-- A transformation of values. -/
abbrev Morphism := Value → Value

/-- Morphisms in the order they run. -/
structure Pipeline where
  stages : List Morphism
deriving Inhabited

namespace Pipeline

/-- The pipeline that changes nothing. -/
def tap : Pipeline := ⟨[]⟩

/-- The pipeline that runs `morphism` before everything in `pipeline`. -/
def pipe (morphism : Morphism) (pipeline : Pipeline) : Pipeline := ⟨morphism :: pipeline.stages⟩

/-- Runs a value through the stages. -/
def feed (pipeline : Pipeline) (value : Value) : Value :=
  pipeline.stages.foldl (fun current stage => stage current) value

def size (pipeline : Pipeline) : Nat := pipeline.stages.length

def isEmpty (pipeline : Pipeline) : Bool := pipeline.stages.isEmpty

/-- A one-line account of a pipeline. -/
def summary (pipeline : Pipeline) : String :=
  "Pipeline \x7b stages: " ++ toString pipeline.size ++ " \x7d"

end Pipeline

/-- Morphisms with the one that runs last at the front, and a count of them that is kept along. -/
structure Composition where
  latestFirst : List Morphism
  size : Nat
  counted : size = latestFirst.length

namespace Composition

/-- The composition that changes nothing. -/
def id : Composition := ⟨[], 0, rfl⟩

instance : Inhabited Composition := ⟨id⟩

/-- The composition that runs `morphism` after everything in `composition`. -/
def compose (morphism : Morphism) (composition : Composition) : Composition :=
  ⟨morphism :: composition.latestFirst, composition.size + 1, congrArg (· + 1) composition.counted⟩

/-- The same morphisms in the order they run. -/
def assoc (composition : Composition) : Pipeline :=
  composition.latestFirst.foldl (fun pipeline morphism => .pipe morphism pipeline) .tap

/-- The composition as one morphism. -/
def apply (composition : Composition) : Morphism := composition.assoc.feed

def isEmpty (composition : Composition) : Bool := composition.size == 0

/-- A one-line account of a composition. -/
def summary (composition : Composition) : String :=
  "Composition \x7b len: " ++ toString composition.size ++ " \x7d"

end Composition
end Readings
