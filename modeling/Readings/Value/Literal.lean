import Readings.Value.Json

/-!
Literals, the scalars among the values. They are what an enumeration holds, so they are compared as
members of a set: not-a-number equals itself and the two zeros are equal.
-/
namespace Readings

inductive Literal
  | undefined
  | null
  | bool (b : Bool)
  | number (x : Double)
  | bigint (n : Int)
  | string (text : String)
  | symbol (symbol : Symbol)
deriving DecidableEq, Inhabited

namespace Literal

/-- The literal a scalar is; none for arrays and objects. -/
def ofValue? : Value → Option Literal
  | .undefined => some .undefined
  | .null => some .null
  | .bool b => some (.bool b)
  | .number x => some (.number x)
  | .bigint n => some (.bigint n)
  | .string text => some (.string text)
  | .symbol handle => some (.symbol handle)
  | .array _ | .object _ => none

def toValue : Literal → Value
  | .undefined => .undefined
  | .null => .null
  | .bool b => .bool b
  | .number x => .number x
  | .bigint n => .bigint n
  | .string text => .string text
  | .symbol handle => .symbol handle

/-- Equality as members of a set. -/
def same : Literal → Literal → Bool
  | .number x, .number y => x.sameValueZero y
  | a, b => decide (a = b)

/-- The text of a literal is that of its value. -/
def text (literal : Literal) : String := literal.toValue.text

/-- Whether a set of literals has a member. -/
def isIn (literal : Literal) (members : List Literal) : Bool := members.any literal.same

/-- The set of the given literals: of equal ones the first is kept. -/
def distinct (literals : List Literal) : List Literal :=
  literals.foldl (fun kept literal => if literal.isIn kept then kept else kept ++ [literal]) []

end Literal
end Readings
