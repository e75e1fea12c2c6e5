import Readings.Json.Printer
import Readings.Value.Basic

/-!
Values and JSON. Reading JSON as a value makes every number a double. The JSON view of a value is
for reports and loses what JSON cannot say: `undefined` becomes null, big integers that leave the
64-bit range become text, symbols become their description.
-/
namespace Readings

namespace Value

mutual
/-- The value that JSON data stands for; of a repeated key the later value counts. -/
def ofJson : Json → Value
  | .null => .null
  | .bool b => .bool b
  | .integer n => .number (.ofInt n)
  | .float x => .number x
  | .string text => .string text
  | .array items => .array (ofJsonItems items)
  | .object members => ofPairs (ofJsonMembers members)

def ofJsonItems : List Json → List Value
  | [] => []
  | item :: rest => ofJson item :: ofJsonItems rest

def ofJsonMembers : List (String × Json) → List (String × Value)
  | [] => []
  | (key, value) :: rest => (key, ofJson value) :: ofJsonMembers rest
end

/-- The JSON form of a double: an integer where the double is one and its size is at most `2 ^ 63`,
of which the positive bound itself is written as the largest word. -/
def numberJson (x : Double) : Json :=
  match x.toInt? with
  | some n =>
    if n.natAbs ≤ Json.signedLimit then .integer (min n (Json.signedLimit - 1)) else .ofDouble x
  | none => .ofDouble x

mutual
/-- The JSON view of a value. -/
def toJson : Value → Json
  | .undefined | .null => .null
  | .bool b => .bool b
  | .number x => numberJson x
  | .bigint n => if Json.InWord n then .integer n else .string (toString n)
  | .string text => .string text
  | .symbol handle => .string handle.text
  | .array items => .array (toJsonItems items)
  | .object entries => .object (toJsonEntries entries)

def toJsonItems : List Value → List Json
  | [] => []
  | item :: rest => item.toJson :: toJsonItems rest

def toJsonEntries : List (String × Value) → List (String × Json)
  | [] => []
  | (key, value) :: rest => (key, value.toJson) :: toJsonEntries rest
end

mutual
/-- The text of a value: JSON with blanks after commas and colons, and with words of their own for
what JSON lacks. -/
def text : Value → String
  | .undefined => "undefined"
  | .null => "null"
  | .bool b => (Json.bool b).compact
  | .number x => (numberJson x).compact
  | .bigint n => toString n ++ "n"
  | .string text => Text.quoted text
  | .symbol handle => handle.text
  | .array items => "[" ++ ", ".intercalate (textItems items) ++ "]"
  | .object entries => "\x7b" ++ ", ".intercalate (textEntries entries) ++ "\x7d"

def textItems : List Value → List String
  | [] => []
  | item :: rest => item.text :: textItems rest

def textEntries : List (String × Value) → List String
  | [] => []
  | (key, value) :: rest => (Text.quoted key ++ ": " ++ value.text) :: textEntries rest
end

end Value
end Readings
