import Readings.Cast.Basic
import Readings.CommandLine.Selection
import Readings.Document.Compile
import Readings.Report.Json
import Readings.Report.Render

/-!
Verdicts on documents, and the two forms of a report on them.
-/
namespace Readings.CommandLine

/-- A document's label with the outcome of its cast. -/
structure Verdict where
  label : String
  outcome : Outcome
deriving Inhabited

/-- Casts every document against the root of a schema. -/
def judge (schema : Schema) (documents : List InputDocument) : Except Failure (List Verdict) :=
  documents.mapM fun document =>
    match schema.root.cast document.content with
    | some outcome => .ok ⟨document.label, outcome⟩
    | none => .error (.castEndless document.label)

/-- How many documents passed. -/
def passed (verdicts : List Verdict) : Nat := verdicts.countP (·.outcome.isSuccess)

/-- The lines on one document. -/
def Verdict.pretty (colour : Bool) (verdict : Verdict) : String :=
  match verdict.outcome.readings? with
  | some readings => "✅ " ++ verdict.label ++ " (" ++ toString readings.length ++ " candidates)\n"
  | none =>
    "❌ " ++ Style.red.paint colour verdict.label ++ "\n"
      ++ String.join ((Text.lines (verdict.outcome.render colour)).map fun line =>
        "    " ++ line ++ "\n")

def Verdict.toJson (verdict : Verdict) : Json :=
  .object [("source", .string verdict.label), ("result", verdict.outcome.toJson),
    ("issues", .array (verdict.outcome.issues.map Issue.toJson))]

/-- The report on all documents, in order. -/
def report (format : ReportFormat) (colour : Bool) (verdicts : List Verdict) : String :=
  match format with
  | .pretty => String.join (verdicts.map (·.pretty colour))
  | .json => (Json.array (verdicts.map Verdict.toJson)).pretty

/-- The closed root and every definition of a schema. -/
def describe (colour : Bool) (schema : Schema) : String :=
  Style.bold.paint colour "root:" ++ " " ++ schema.root.text ++ "\n"
    ++ String.join (schema.definitions.map fun (name, descriptor) =>
      Style.bold.paint colour name ++ " (" ++ toString descriptor.binders ++ " binders): "
        ++ descriptor.text ++ "\n")

/-- How many of the documents passed, in a line. -/
def tally (verdicts : List Verdict) : String :=
  toString (passed verdicts) ++ " of " ++ toString verdicts.length ++ " documents passed\n"

end Readings.CommandLine
