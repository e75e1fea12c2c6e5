import Readings.Report.Issue

/-!
The JSON form of outcomes and issues. It shows values by their JSON view.
-/
namespace Readings

/-- An issue as an object. -/
def Issue.toJson (issue : Issue) : Json :=
  .object [("path", .string issue.path), ("expected", .string issue.expected),
    ("actual", (issue.actual.map Value.toJson).getD .null)]

namespace Outcome

/-- A number of things as JSON. -/
def countJson (n : Nat) : Json := .integer n

/-- The member that holds the parts of a mismatch. Shapes that have parts only when the input is of
their kind leave the member out when there are none. -/
def partsMember (demand : Demand) (parts : List (String × Json)) : List (String × Json) :=
  let list := Json.array (parts.map Prod.snd)
  match demand with
  | .never | .primitive _ => []
  | .array => if parts.isEmpty then [] else [("items", list)]
  | .tuple length =>
    ("length", countJson length) :: (if parts.isEmpty then [] else [("items", list)])
  | .record | .object => if parts.isEmpty then [] else [("properties", .object parts)]
  | .enumeration members =>
    [("values", .array (members.map fun literal => literal.toValue.toJson))]
  | .union => [("variants", list)]
  | .intersection => [("results", list)]

/-- The key of a part below its mismatch; only properties have one. -/
def partKey : Step → String
  | .property key => key
  | .item _ | .variant _ | .member _ => ""

mutual
/-- The JSON form of an outcome. -/
def toJson : Outcome → Json
  | .success readings =>
    .object [("status", .string "success"), ("values", .array (readings.map Value.toJson))]
  | .unbound symbol =>
    .object [("status", .string "unbound"), ("symbol", .string symbol.description)]
  | .mismatch demand parts actual =>
    .object ([("status", .string "failure"), ("expected", .string demand.name)]
      ++ partsMember demand (partsJson parts) ++ [("actual", actual.toJson)])

def partsJson : List (Step × Outcome) → List (String × Json)
  | [] => []
  | (step, outcome) :: rest => (partKey step, outcome.toJson) :: partsJson rest
end

end Outcome
end Readings
