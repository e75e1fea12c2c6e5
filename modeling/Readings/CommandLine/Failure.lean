import Readings.Descriptor.Basic
import Readings.Files.Search
import Readings.Filter.Basic
import Readings.Report.Paint

/-!
What stops a run before it has a verdict. A failure has a context, which names what was attempted,
and a cause; some have only one text.
-/
namespace Readings.CommandLine

open Files (FileError PatternError Unlisted)

inductive Failure
  | schemaUnread (path : String) (error : FileError)
  | schemaInvalid (path : String) (error : SchemaError)
  | patternInvalid (error : PatternError)
  | patternUnlisted (unlisted : Unlisted)
  | patternEmpty (pattern : String)
  | sourceUnread (path : String) (error : FileError)
  | sourceNotText (path : String)
  | sourceInvalid (label fault : String)
  | lineInvalid (label fault : String)
  | pointerEmpty (pointer label : String)
  | filterFailed (label : String) (failure : Filter.Failure)
  /-- No closed schema has such a cast. -/
  | castEndless (label : String)
  | directoryRefused (error : FileError)
  | reportUnwritten (path : String) (error : FileError)

namespace Failure

private def about (what subject : String) : String := what ++ " (" ++ subject ++ ")"

/-- What was attempted, where that is told apart from the cause. -/
def context? : Failure → Option String
  | .schemaUnread path _ => some (about "failed to read schema file" path)
  | .schemaInvalid path _ => some (about "invalid schema document" path)
  | .sourceUnread path _ | .sourceNotText path => some (about "failed to read source file" path)
  | .sourceInvalid label _ => some (about "failed to parse JSON source file" label)
  | .lineInvalid label _ => some (about "failed to parse NDJSON line" label)
  | .filterFailed label _ => some (about "failed to apply jq expression to" label)
  | .reportUnwritten path _ => some (about "failed to write" path)
  | .patternInvalid _ | .patternUnlisted _ | .patternEmpty _ | .pointerEmpty .. | .castEndless _
  | .directoryRefused _ => none

/-- Why the attempt failed. -/
def cause : Failure → String
  | .schemaUnread _ error | .sourceUnread _ error | .directoryRefused error
  | .reportUnwritten _ error => error.message
  | .schemaInvalid _ error => error.message
  | .patternInvalid error => error.message
  | .patternUnlisted unlisted => unlisted.message
  | .patternEmpty pattern => "glob pattern matched no files: " ++ pattern
  | .sourceNotText _ => "stream did not contain valid UTF-8"
  | .sourceInvalid _ fault | .lineInvalid _ fault => fault
  | .pointerEmpty pointer label =>
    "JSON pointer " ++ pointer ++ " selects nothing in (" ++ label ++ ")"
  | .filterFailed _ failure => failure.message
  | .castEndless label => "the cast has no end in (" ++ label ++ ")"

/-- The wording of a failure. -/
def message (failure : Failure) : String :=
  match failure.context? with
  | some context => context ++ ": " ++ failure.cause
  | none => failure.cause

end Failure

/-- The line that tells of a failure. -/
def errorLine (colour : Bool) (message : String) : String :=
  Style.boldRed.paint colour "error:" ++ " " ++ message ++ "\n"

end Readings.CommandLine
