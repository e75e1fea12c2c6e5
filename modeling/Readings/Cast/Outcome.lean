import Readings.Descriptor.Basic

/-!
The outcome of a cast: every reading of the input, or a tree of mismatches shaped like the
descriptor that was attempted, so that it tells which index, key or member went wrong. Input that
does not fit is data, not an error.
-/
namespace Readings

/-- The shape that a value failed to have. -/
inductive Demand
  | never
  | primitive (kind : PrimitiveKind)
  | array
  | tuple (length : Nat)
  | record
  | object
  | enumeration (members : List Literal)
  | union
  | intersection
deriving DecidableEq

/-- The name of a demand, which is the tag of the descriptor that makes it. -/
def Demand.name : Demand → String
  | .never => "never"
  | .primitive kind => kind.name
  | .array => "array"
  | .tuple _ => "tuple"
  | .record => "record"
  | .object => "object"
  | .enumeration _ => "enumeration"
  | .union => "union"
  | .intersection => "intersection"

/-- One step down an outcome: into an item or a property of the input, or to a variant of a union or
a member of an intersection, which look at the same input. -/
inductive Step
  | item (index : Nat)
  | property (key : String)
  | variant (index : Nat)
  | member (index : Nat)
deriving DecidableEq

inductive Outcome
  /-- Every reading, in the order of discovery, repetitions kept. -/
  | success (readings : List Value)
  /-- A reference without a binding in scope: the descriptor is malformed, whatever the input. -/
  | unbound (symbol : Symbol)
  /-- The input does not have the shape. `parts` holds the outcome of every part, and is empty when
  the input was not of the kind that has such parts. -/
  | mismatch (demand : Demand) (parts : List (Step × Outcome)) (actual : Value)
deriving Inhabited

namespace Outcome

def isSuccess : Outcome → Bool
  | .success _ => true
  | _ => false

/-- The readings of a success. -/
def readings? : Outcome → Option (List Value)
  | .success readings => some readings
  | _ => none

/-- The readings of a success, and none otherwise. -/
def readings (outcome : Outcome) : List Value := outcome.readings?.getD []

end Outcome
end Readings
