import Readings.Cast.Outcome

/-!
Issues: the leaf problems of an outcome, each with the path from the root (`$.tail.head`, `$[2]`,
`$ <variant 1>`). A mismatch without a problem below it is a leaf itself.
-/
namespace Readings

/-- How a step shows in a path. -/
def Step.text : Step → String
  | .item index => "[" ++ toString index ++ "]"
  | .property key => "." ++ key
  | .variant index => " <variant " ++ toString index ++ ">"
  | .member index => " <member " ++ toString index ++ ">"

/-- One leaf problem. A reference without a binding has no actual value. -/
structure Issue where
  path : String
  expected : String
  actual : Option Value

namespace Outcome

/-- What a mismatch expected, in words. A tuple tells its length when the input had another. -/
def expectation (demand : Demand) (parts : List (Step × Outcome)) : String :=
  match demand with
  | .tuple length => if parts.isEmpty then "tuple of length " ++ toString length else demand.name
  | .enumeration members => "one of " ++ ", ".intercalate (members.map Literal.text)
  | _ => demand.name

mutual
/-- The issues of an outcome found at a path, in tree order. -/
def issuesAt (path : String) : Outcome → List Issue
  | .success _ => []
  | .unbound symbol => [⟨path, "binding for `" ++ symbol.description ++ "`", none⟩]
  | .mismatch demand parts actual =>
    match issuesBelow path parts with
    | [] => [⟨path, expectation demand parts, some actual⟩]
    | below => below

def issuesBelow (path : String) : List (Step × Outcome) → List Issue
  | [] => []
  | (step, outcome) :: rest => outcome.issuesAt (path ++ step.text) ++ issuesBelow path rest
end

/-- The leaf problems of an outcome. A success has none. -/
def issues (outcome : Outcome) : List Issue := outcome.issuesAt "$"

end Outcome
end Readings
