import Readings.Double.Basic
import Readings.Json.Basic

/-!
Untyped values, the input side of a cast. They are wider than JSON: a missing object key reads as
`undefined`, and there are big integers and symbols.
-/
namespace Readings

/-- An opaque handle with a description to show. Two symbols drawn with different serials differ
even when they are described alike. -/
structure Symbol where
  serial : Nat
  description : String
deriving DecidableEq, Inhabited

/-- The text of a symbol. -/
def Symbol.text (symbol : Symbol) : String := "Symbol(" ++ symbol.description ++ ")"

inductive Value
  | undefined
  | null
  | bool (b : Bool)
  | number (x : Double)
  | bigint (n : Int)
  | string (text : String)
  | symbol (symbol : Symbol)
  | array (items : List Value)
  | object (entries : List (String × Value))
deriving Inhabited

namespace Value

/-- The name of a value's kind; for scalars the name of the primitive kind that admits it. -/
def kind : Value → String
  | .undefined => "undefined"
  | .null => "null"
  | .bool _ => "boolean"
  | .number _ => "number"
  | .bigint _ => "bigint"
  | .string _ => "string"
  | .symbol _ => "symbol"
  | .array _ => "array"
  | .object _ => "object"

/-- The object that writing the pairs in turn leaves. -/
def ofPairs (pairs : List (String × Value)) : Value := .object (Entries.ofPairs pairs)

mutual
/-- Equality of values: numbers compare as numbers, so not-a-number differs from itself and the two
zeros are equal; the order of an object's keys does not count. -/
def equals : Value → Value → Bool
  | .undefined, .undefined | .null, .null => true
  | .bool a, .bool b => a == b
  | .number x, .number y => x.equals y
  | .bigint a, .bigint b => a == b
  | .string a, .string b => a == b
  | .symbol a, .symbol b => a == b
  | .array xs, .array ys => equalItems xs ys
  | .object xs, .object ys => xs.length == ys.length && equalEntries xs ys
  | _, _ => false

def equalItems : List Value → List Value → Bool
  | [], [] => true
  | x :: xs, y :: ys => x.equals y && equalItems xs ys
  | _, _ => false

/-- Every key on the left is on the right with an equal value. -/
def equalEntries : List (String × Value) → List (String × Value) → Bool
  | [], _ => true
  | (key, x) :: rest, ys =>
    (match Entries.find? ys key with
      | some y => x.equals y
      | none => false) && equalEntries rest ys
end

instance : BEq Value := ⟨equals⟩

mutual
/-- How many containers enclose the deepest part. -/
def height : Value → Nat
  | .array items => heightItems items + 1
  | .object entries => heightEntries entries + 1
  | .undefined | .null | .bool _ | .number _ | .bigint _ | .string _ | .symbol _ => 0

def heightItems : List Value → Nat
  | [] => 0
  | item :: rest => max item.height (heightItems rest)

def heightEntries : List (String × Value) → Nat
  | [] => 0
  | (_, value) :: rest => max value.height (heightEntries rest)
end

end Value
end Readings
