import Readings.CommandLine.Echo
import Readings.CommandLine.Verdict
import Readings.Files.Host
import Readings.Filter.Parser

/-!
A run of the command line on a host. A check reads the schema, finds the sources that the inputs
name, selects the documents of each, casts them, and only then writes the report; whatever fails
before that leaves no output behind. Exit codes: 0 when every document passed, 1 when one did not, 2
when the run failed.
-/
namespace Readings.CommandLine

open Files (Host)

/-- What a run leaves besides files. -/
structure Answer where
  code : Nat
  output : String
  notes : String
  failure? : Option Failure

/-- The text of the version command. -/
def versionText : String := "json-cast 0.1.0\n"

/-- What a run works with: a host, the paths on it that a pattern stands for, and the evaluation of
filters. -/
structure Tools (m : Type → Type) where
  host : Host m
  paths : String → ExceptT Failure m (List String)
  evaluate : Evaluation

section
variable {m : Type → Type} [Monad m]

/-- The paths of a host that a pattern stands for. -/
def pathsOn (host : Host m) (text : String) : ExceptT Failure m (List String) := do
  match Files.Pattern.ofText text with
  | .error error => throw (.patternInvalid error)
  | .ok pattern =>
    match ← (Files.search host pattern : m _) with
    | .error unlisted => throw (.patternUnlisted unlisted)
    | .ok paths => pure paths

/-- Work with the patterns and filters of this library. -/
def Tools.ofHost (host : Host m) : Tools m := ⟨host, pathsOn host, Filter.run⟩

variable (tools : Tools m)

/-- The schema at a path. -/
def loadSchema (path : String) : ExceptT Failure m Schema := do
  match ← tools.host.read path with
  | .error error => throw (.schemaUnread path error)
  | .ok bytes =>
    match Schema.ofBytes 0 bytes with
    | .ok schema => pure schema
    | .error error => throw (.schemaInvalid path error)

/-- The paths that one input stands for. An input without the characters of a pattern is a path,
whether or not anything is there. -/
def resolveInput (input : String) : ExceptT Failure m (List String) := do
  if !Files.isPattern input then pure [input]
  else
    match ← tools.paths input with
    | [] => throw (.patternEmpty input)
    | paths => pure paths

/-- The text of a source; a hyphen is standard input. -/
def readSource (path : String) : ExceptT Failure m String := do
  let read ←
    if Files.isHyphen path then do pure (.ok (← tools.host.input)) else tools.host.read path
  match read with
  | .error error => throw (.sourceUnread path error)
  | .ok bytes =>
    match Text.Utf8.decode bytes with
    | .ok text => pure text
    | .error _ => throw (.sourceNotText path)

/-- The documents of all sources, in order. Every input is resolved before any source is read. -/
def loadDocuments (settings : InputSettings) : ExceptT Failure m (List InputDocument) := do
  let paths ← settings.inputs.mapM (resolveInput tools)
  let documents ← paths.flatten.mapM fun path => do
    documentsOf tools.evaluate settings path (← readSource tools path)
  pure documents.flatten

/-- Writes a report to a file, with the directories it needs. -/
def writeReport (path text : String) : ExceptT Failure m Unit := do
  if let some directory := Files.parent? path then
    match ← (Files.makeDirectories tools.host directory : m _) with
    | .ok () => pure ()
    | .error error => throw (.directoryRefused error)
  match ← tools.host.write path text with
  | .ok () => pure ()
  | .error error => throw (.reportUnwritten path error)

/-- Checks documents and reports on them. -/
def check (colour : Bool) (settings : CheckSettings) : ExceptT Failure m Answer := do
  let schema ← loadSchema tools settings.schema
  let documents ← loadDocuments tools settings.input
  let verdicts ← judge schema documents
  let text := report settings.report colour verdicts
  let output ← match settings.out with
    | some path => do
      writeReport tools path text
      pure ""
    | none => pure text
  pure ⟨if passed verdicts = verdicts.length then 0 else 1, output, tally verdicts, none⟩

/-- Runs a command. -/
def runCommand (colour : Bool) : Command → ExceptT Failure m Answer
  | .version => pure ⟨0, versionText, "", none⟩
  | .describe path => do pure ⟨0, describe colour (← loadSchema tools path), "", none⟩
  | .check settings =>
    if settings.noOp then pure ⟨0, "", settings.echo, none⟩ else check tools colour settings

/-- The answer of a run that failed. -/
def failed (colour : Bool) (failure : Failure) : Answer :=
  ⟨2, "", errorLine colour failure.message, some failure⟩

/-- Runs what arguments spell with the given tools; none when they spell no command. -/
def runWith (colour : Bool) (arguments : List String) : m (Option Answer) :=
  match Command.ofArguments arguments with
  | none => pure none
  | some command => do
    match ← (runCommand tools colour command).run with
    | .ok answer => pure (some answer)
    | .error failure => pure (some (failed colour failure))

/-- Runs what arguments spell on a host. -/
def run (host : Host m) (colour : Bool) (arguments : List String) : m (Option Answer) :=
  runWith (.ofHost host) colour arguments

end
end Readings.CommandLine
