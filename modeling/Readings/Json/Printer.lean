import Readings.Double.Layout
import Readings.Json.Basic
import Readings.Text.Quoted

/-!
JSON text in two layouts: on one line without blanks, and with one member or item a line, indented
by two blanks a level.
-/
namespace Readings.Json

mutual
/-- The text on one line without blanks. -/
def compact : Json → String
  | .null => "null"
  | .bool b => if b then "true" else "false"
  | .integer n => toString n
  | .float x => if x.isFinite then x.text else "null"
  | .string text => Text.quoted text
  | .array items => "[" ++ ",".intercalate (compactItems items) ++ "]"
  | .object members => "\x7b" ++ ",".intercalate (compactMembers members) ++ "\x7d"

def compactItems : List Json → List String
  | [] => []
  | item :: rest => item.compact :: compactItems rest

def compactMembers : List (String × Json) → List String
  | [] => []
  | (key, value) :: rest => (Text.quoted key ++ ":" ++ value.compact) :: compactMembers rest
end

/-- A new line and the blanks that open it at a depth. -/
def lineAt (depth : Nat) : String := "\n" ++ String.ofList (List.replicate (2 * depth) ' ')

/-- The lines of a container between its brackets; an empty container stays on one line. -/
def block (opening closing : String) (depth : Nat) (lines : List String) : String :=
  if lines.isEmpty then opening ++ closing
  else opening ++ lineAt (depth + 1) ++ ("," ++ lineAt (depth + 1)).intercalate lines
    ++ lineAt depth ++ closing

mutual
/-- The text of a value that stands at a depth, one item or member a line. -/
def indented (depth : Nat) : Json → String
  | .array items => block "[" "]" depth (indentedItems (depth + 1) items)
  | .object members => block "\x7b" "\x7d" depth (indentedMembers (depth + 1) members)
  | .null => compact .null
  | .bool b => compact (.bool b)
  | .integer n => compact (.integer n)
  | .float x => compact (.float x)
  | .string text => compact (.string text)

def indentedItems (depth : Nat) : List Json → List String
  | [] => []
  | item :: rest => item.indented depth :: indentedItems depth rest

def indentedMembers (depth : Nat) : List (String × Json) → List String
  | [] => []
  | (key, value) :: rest =>
    (Text.quoted key ++ ": " ++ value.indented depth) :: indentedMembers depth rest
end

/-- The text over several lines. -/
def pretty (json : Json) : String := json.indented 0

end Readings.Json
