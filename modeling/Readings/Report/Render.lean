import Readings.Report.Issue
import Readings.Report.Paint

/-!
The tree of an outcome drawn for people, a line a node, indented by depth. Under a union every
variant is drawn; under any other mismatch only the parts that failed, and none of a union that
failed succeeded, so no success is ever drawn below the root.
-/
namespace Readings

/-- How a step labels the line of the part below it. -/
def Step.label : Step → String
  | .item index => "[" ++ toString index ++ "]: "
  | .property key => "." ++ key ++ ": "
  | .variant index => "<variant " ++ toString index ++ ">: "
  | .member index => "<member " ++ toString index ++ ">: "

/-- Whether a part is drawn under its mismatch. -/
def Step.isDrawn (outcome : Outcome) : Step → Bool
  | .variant _ => true
  | .item _ | .property _ | .member _ => !outcome.isSuccess

namespace Outcome

/-- The line of one node without its indentation and label. -/
def headline (colour : Bool) : Outcome → String
  | .success readings =>
    let noun := if readings.length = 1 then "candidate" else "candidates"
    Style.green.paint colour "ok" ++ " (" ++ toString readings.length ++ " " ++ noun ++ ")"
  | .unbound symbol => Style.yellow.paint colour "unbound" ++ " `" ++ symbol.description ++ "`"
  | .mismatch demand parts actual =>
    Style.red.paint colour "expected" ++ " "
      ++ Style.bold.paint colour (expectation demand parts) ++ " "
      ++ Style.dim.paint colour ("got " ++ actual.text)

/-- One line: two blanks a level, the label, the node. -/
def line (depth : Nat) (label text : String) : String :=
  String.ofList (List.replicate (2 * depth) ' ') ++ label ++ text ++ "\n"

mutual
/-- The drawing of a node at a depth, with its label. -/
def draw (colour : Bool) (depth : Nat) (label : String) : Outcome → String
  | .success readings => line depth label (headline colour (.success readings))
  | .unbound symbol => line depth label (headline colour (.unbound symbol))
  | .mismatch demand parts actual =>
    line depth label (headline colour (.mismatch demand parts actual))
      ++ drawParts colour (depth + 1) parts

def drawParts (colour : Bool) (depth : Nat) : List (Step × Outcome) → String
  | [] => ""
  | (step, outcome) :: rest =>
    (if step.isDrawn outcome then outcome.draw colour depth step.label else "")
      ++ drawParts colour depth rest
end

/-- The tree of an outcome. -/
def render (colour : Bool) (outcome : Outcome) : String := outcome.draw colour 0 ""

end Outcome
end Readings
