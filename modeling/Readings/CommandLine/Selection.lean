import Readings.CommandLine.Arguments
import Readings.CommandLine.Failure
import Readings.Filter.Basic
import Readings.Json.Basic
import Readings.Json.Reader
import Readings.Text.Lines

/-!
From the text of sources to the documents that are checked. A source is one document, or one for
each line that is not blank; from each document the pointer selects a part, and the filter may turn
that into any number of documents. Every document has a label that tells where it came from: the
path, the line number behind a colon, the number of the output behind a hash when there are several.
How filters are evaluated is a parameter.
-/
namespace Readings.CommandLine

/-- A document under its label. -/
structure Labelled (α : Type) where
  label : String
  content : α
deriving Inhabited

/-- A document that is to be checked. -/
abbrev InputDocument := Labelled Value

/-- The documents of a source, all of them read before any is selected from. -/
def parseSource (ndjson : Bool) (path text : String) : Except Failure (List (Labelled Json)) :=
  if ndjson then
    ((Text.lines text).zipIdx 1).filter (fun (line, _) => !Text.isBlank line) |>.mapM
      fun (line, number) =>
        let label := path ++ ":" ++ toString number
        match Json.parse line with
        | .ok json => .ok ⟨label, json⟩
        | .error fault => .error (.lineInvalid label fault)
  else
    match Json.parse text with
    | .ok json => .ok [⟨path, json⟩]
    | .error fault => .error (.sourceInvalid path fault)

/-- Labels the outputs of a filter: by their number when there are several. -/
def labelOutputs (label : String) (outputs : List Json) : List (Labelled Json) :=
  if outputs.length > 1 then
    outputs.zipIdx.map fun (output, index) => ⟨label ++ "#" ++ toString index, output⟩
  else outputs.map fun output => ⟨label, output⟩

/-- How the text of a filter is evaluated on an input. -/
abbrev Evaluation := String → Json → Except Filter.Failure (List Json)

/-- What the pointer and then the filter select from a document. -/
def select (evaluate : Evaluation) (settings : InputSettings) (document : Labelled Json) :
    Except Failure (List InputDocument) := do
  let part ← match settings.pointer with
    | none => .ok document.content
    | some pointer =>
      match document.content.pointTo? pointer with
      | some part => .ok part
      | none => .error (.pointerEmpty pointer document.label)
  let outputs ← match settings.filter with
    | none => .ok [⟨document.label, part⟩]
    | some filter =>
      match evaluate filter part with
      | .ok outputs => .ok (labelOutputs document.label outputs)
      | .error failure => .error (.filterFailed document.label failure)
  .ok (outputs.map fun output => ⟨output.label, .ofJson output.content⟩)

/-- The documents of one source. -/
def documentsOf (evaluate : Evaluation) (settings : InputSettings) (path text : String) :
    Except Failure (List InputDocument) := do
  let parsed ← parseSource settings.ndjson path text
  .ok (← parsed.mapM (select evaluate settings)).flatten

end Readings.CommandLine
