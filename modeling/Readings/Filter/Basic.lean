import Readings.Json.Basic
import Readings.Value.Json

/-!
Filters: small programs that turn one JSON value into any number of values. They select, combine and
rebuild parts of their input. A step into a value that has no such part fails; marked optional, it
yields nothing instead. The failure of any part fails the whole.
-/
namespace Readings

inductive Filter
  /-- The input itself. -/
  | input
  | constant (value : Json)
  /-- Nothing. -/
  | empty
  /-- Every output of the first filter fed to the second. -/
  | pipe (first second : Filter)
  /-- The outputs of both. -/
  | both (first second : Filter)
  /-- The part of each output of `of` under each output of `key`. -/
  | part (of key : Filter) (isOptional : Bool)
  /-- Every part of each output of `of`. -/
  | parts (of : Filter) (isOptional : Bool)
  /-- All outputs in one array. -/
  | collect (inner : Filter)
  /-- Objects with the given keys, for every combination of values. -/
  | build (members : List (String × Filter))
  | add (left right : Filter)
  | equal (left right : Filter)
  | negate (inner : Filter)
  /-- How long the input is. -/
  | length
  /-- The input, once for each output of the condition that holds. -/
  | select (condition : Filter)
deriving Inhabited

namespace Filter

/-- Why a filter cannot be applied. -/
inductive Failure
  | malformed
  | undefined (name : String)
  | inapplicable (what : String)
deriving DecidableEq

/-- The wording of a failure. -/
def Failure.message : Failure → String
  | .malformed => "the filter is malformed"
  | .undefined name => "`" ++ name ++ "` is not defined"
  | .inapplicable what => "cannot " ++ what

/-- A number as a double. -/
def double? : Json → Option Double
  | .integer n => some (.ofInt n)
  | .float x => some x
  | _ => none

mutual
/-- Equality of data: numbers compare as numbers, and the order of an object's keys does not count.
-/
def same : Json → Json → Bool
  | .null, .null => true
  | .bool a, .bool b => a == b
  | .string a, .string b => a == b
  | .integer a, .integer b => a == b
  | .integer a, .float y => (Double.ofInt a).equals y
  | .float x, .integer b => x.equals (.ofInt b)
  | .float x, .float y => x.equals y
  | .array xs, .array ys => sameItems xs ys
  | .object xs, .object ys => xs.length == ys.length && sameMembers xs ys
  | _, _ => false

def sameItems : List Json → List Json → Bool
  | [], [] => true
  | x :: xs, y :: ys => same x y && sameItems xs ys
  | _, _ => false

def sameMembers : List (String × Json) → List (String × Json) → Bool
  | [], _ => true
  | (key, x) :: rest, ys =>
    (match Entries.find? ys key with
      | some y => same x y
      | none => false) && sameMembers rest ys
end

/-- An integer as a number of a filter: a word, or else a double. -/
def numberJson (n : Int) : Json := if Json.InWord n then .integer n else .float (.ofInt n)

/-- Sum of numbers, concatenation of texts and arrays, union of objects; null adds nothing. -/
def sum : Json → Json → Except Failure Json
  | .null, right => .ok right
  | left, .null => .ok left
  | .string a, .string b => .ok (.string (a ++ b))
  | .array xs, .array ys => .ok (.array (xs ++ ys))
  | .object xs, .object ys => .ok (.object (Entries.extend xs ys))
  | left, right =>
    match left, right, double? left, double? right with
    | .integer a, .integer b, some x, some y =>
      if Json.InWord a ∧ Json.InWord b then .ok (numberJson (a + b)) else .ok (.float (x.add y))
    | _, _, some x, some y => .ok (.float (x.add y))
    | _, _, _, _ => .error (.inapplicable "add")

/-- The number with the opposite sign. -/
def opposite : Json → Except Failure Json
  | .integer n => .ok (numberJson (-n))
  | .float x => .ok (.float x.neg)
  | _ => .error (.inapplicable "negate")

/-- Characters, items, members, or the size of a number. -/
def lengthOf : Json → Except Failure Json
  | .null => .ok (.integer 0)
  | .string text => .ok (.integer text.length)
  | .array items => .ok (.integer items.length)
  | .object members => .ok (.integer members.length)
  | .integer n => .ok (numberJson n.natAbs)
  | .float (.finite _ magnitude) => .ok (.float (.finite false magnitude))
  | .float (.infinite _) => .ok (.float (.infinite false))
  | .float .nan => .ok (.float .nan)
  | .bool _ => .error (.inapplicable "measure")

/-- The part of a value under a key. What is absent, and every part of null, is null; an index from
the end is negative. -/
def partOf (key : Json) : Json → Except Failure Json
  | .null =>
    match key with
    | .string _ | .integer _ => .ok .null
    | _ => .error (.inapplicable "index")
  | .object members =>
    match key with
    | .string name => .ok ((Entries.find? members name).getD .null)
    | _ => .error (.inapplicable "index")
  | .array items =>
    match key with
    | .integer (.ofNat i) => .ok (items[i]?.getD .null)
    | .integer (.negSucc i) =>
      .ok (if i < items.length then items[items.length - 1 - i]?.getD .null else .null)
    | _ => .error (.inapplicable "index")
  | _ => .error (.inapplicable "index")

/-- Every part of a container. -/
def partsOf : Json → Except Failure (List Json)
  | .array items => .ok items
  | .object members => .ok (members.map Prod.snd)
  | _ => .error (.inapplicable "iterate")

/-- Whether a condition's output holds: anything but false and null. -/
def holds : Json → Bool
  | .null | .bool false => false
  | _ => true

/-- An answer that may be missing when it is optional. -/
def unlessOptional (isOptional : Bool) (answer : Except Failure (List Json)) :
    Except Failure (List Json) :=
  match answer with
  | .error failure => if isOptional then .ok [] else .error failure
  | found => found

/-- Every combination of two lists of outputs, the first varying slowest. -/
def combine (combineTwo : Json → Json → Except Failure Json) (left right : List Json) :
    Except Failure (List Json) :=
  (left.flatMap fun a => right.map fun b => (a, b)).mapM fun (a, b) => combineTwo a b

mutual
/-- The outputs of a filter on an input. -/
def apply : Filter → Json → Except Failure (List Json)
  | .input, json => .ok [json]
  | .constant value, _ => .ok [value]
  | .empty, _ => .ok []
  | .pipe first second, json => do
    .ok (← (← first.apply json).mapM second.apply).flatten
  | .both first second, json => do .ok ((← first.apply json) ++ (← second.apply json))
  | .part of key isOptional, json => do
    let wholes ← of.apply json
    let keys ← key.apply json
    let found ← (wholes.flatMap fun whole => keys.map fun key => (whole, key)).mapM
      fun (whole, key) => unlessOptional isOptional ((partOf key whole).map ([·]))
    .ok found.flatten
  | .parts of isOptional, json => do
    .ok (← (← of.apply json).mapM fun whole => unlessOptional isOptional (partsOf whole)).flatten
  | .collect inner, json => do .ok [.array (← inner.apply json)]
  | .build members, json => do .ok ((← applyMembers members json).map .object)
  | .add left right, json => do combine sum (← left.apply json) (← right.apply json)
  | .equal left right, json => do
    combine (fun a b => .ok (.bool (same a b))) (← left.apply json) (← right.apply json)
  | .negate inner, json => do (← inner.apply json).mapM opposite
  | .length, json => do .ok [← lengthOf json]
  | .select condition, json => do
    .ok (((← condition.apply json).filter holds).map fun _ => json)

/-- Every combination of values for the keys, the first key varying slowest. -/
def applyMembers : List (String × Filter) → Json → Except Failure (List (List (String × Json)))
  | [], _ => .ok [[]]
  | (key, filter) :: rest, json => do
    let values ← filter.apply json
    let rows ← applyMembers rest json
    .ok (values.flatMap fun value => rows.map fun row => Entries.extend [(key, value)] row)
end

end Filter
end Readings
