import Readings.CommandLine.Arguments
import Readings.Text.Quoted

/-!
How understood arguments are shown back: the settings as nested records, one field a line.
-/
namespace Readings.CommandLine

/-- A shown value: a word on its own, or a head with the fields or items inside its brackets. -/
inductive Shown
  | word (text : String)
  | group (opening closing : String) (inside : List (String × Shown))

namespace Shown

def blanks (depth : Nat) : String := String.ofList (List.replicate (4 * depth) ' ')

mutual
/-- The text of a shown value at a depth; a group opens a line for each thing inside. -/
def text (depth : Nat) : Shown → String
  | .word text => text
  | .group opening closing inside =>
    if inside.isEmpty then opening ++ closing
    else opening ++ "\n" ++ textInside (depth + 1) inside ++ blanks depth ++ closing

def textInside (depth : Nat) : List (String × Shown) → String
  | [] => ""
  | (label, shown) :: rest =>
    blanks depth ++ label ++ shown.text depth ++ ",\n" ++ textInside depth rest
end

def flag (b : Bool) : Shown := .word (if b then "true" else "false")

def textual (text : String) : Shown := .word (Text.escaped false text)

/-- A path escapes single quotes too. -/
def path (text : String) : Shown := .word (Text.escaped true text)

/-- One thing in round brackets behind a name. -/
def wrapped (name : String) (inside : Shown) : Shown := .group (name ++ "(") ")" [("", inside)]

def optional (shown : String → Shown) : Option String → Shown
  | none => .word "None"
  | some text => wrapped "Some" (shown text)

def record (name : String) (fields : List (String × Shown)) : Shown :=
  .group (name ++ " \x7b") "\x7d" (fields.map fun (label, shown) => (label ++ ": ", shown))

end Shown

/-- The settings of a check as nested records. -/
def CheckSettings.shown (settings : CheckSettings) : Shown :=
  .record "CommandLineInterface" [("cmd", .wrapped "Check" (.record "CheckOut" [
    ("input_settings", .record "InputSettings" [
      ("ndjson", .flag settings.input.ndjson),
      ("json_pointer", .optional .textual settings.input.pointer),
      ("jq_expr", .optional .textual settings.input.filter),
      ("input", .group "[" "]" (settings.input.inputs.map fun input => ("", .textual input)))]),
    ("schema", .path settings.schema),
    ("report", .word (match settings.report with
      | .pretty => "Pretty"
      | .json => "Json")),
    ("out", .optional .path settings.out),
    ("no_op", .flag settings.noOp)]))]

/-- The settings of a check over several lines. -/
def CheckSettings.echo (settings : CheckSettings) : String := settings.shown.text 0 ++ "\n"

end Readings.CommandLine
