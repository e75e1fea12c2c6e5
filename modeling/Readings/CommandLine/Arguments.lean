/-!
The arguments of a run. There are two commands: `check` casts documents against a schema, `describe`
shows a schema. Every option is given once, except `--input`, which takes one value or more and adds
up. A value may be attached to its option, after `=` behind a long name and with or without `=`
behind a letter; an attached value is the only one. A value that stands alone does not begin with a
hyphen, unless it is the hyphen by itself.
-/
namespace Readings.CommandLine

inductive ReportFormat
  | pretty
  | json
deriving DecidableEq, Inhabited

/-- Which documents to check, and how to find them in their sources. -/
structure InputSettings where
  /-- Whether every line of a source is a document. -/
  ndjson : Bool
  pointer : Option String
  filter : Option String
  inputs : List String
deriving DecidableEq, Inhabited

structure CheckSettings where
  input : InputSettings
  schema : String
  report : ReportFormat
  out : Option String
  /-- Only show how the arguments were understood. -/
  noOp : Bool
deriving DecidableEq, Inhabited

inductive Command
  | check (settings : CheckSettings)
  | describe (schema : String)
  | version
deriving DecidableEq, Inhabited

/-- An option that takes values. -/
inductive Valued
  | pointer
  | filter
  | input
  | schema
  | report
  | out
deriving DecidableEq

/-- An option that takes none. -/
inductive Switch
  | ndjson
  | noOp
deriving DecidableEq

/-- What was given so far, in order. -/
structure Given where
  values : List (Valued × String)
  switches : List Switch

namespace Given

def none : Given := ⟨[], []⟩

def hasValue (given : Given) (option : Valued) : Bool := given.values.any (·.1 = option)

/-- The value of an option that is given once. -/
def value? (given : Given) (option : Valued) : Option String :=
  given.values.lookup option

/-- Adds a value. Only `--input` may be given again; paths are not empty, and a report format is one
of the two. -/
def addValue (given : Given) (option : Valued) (value : String) : Option Given :=
  let allowed := match option with
    | .input | .pointer | .filter => true
    | .schema | .out => value ≠ ""
    | .report => value = "pretty" || value = "json"
  if allowed && (option = .input || !given.hasValue option) then
    some { given with values := given.values ++ [(option, value)] }
  else Option.none

def addSwitch (given : Given) (switch : Switch) : Option Given :=
  if given.switches.contains switch then Option.none
  else some { given with switches := given.switches ++ [switch] }

end Given

/-- What an argument that begins with a hyphen means. -/
inductive Argument
  | switch (switch : Switch)
  | valued (option : Valued) (attached : Option String)

/-- The options of a command by their long names. -/
structure Options where
  switches : List (String × Switch)
  valued : List (String × Valued)
  letters : List (Char × Valued)

def checkOptions : Options where
  switches := [("ndjson", .ndjson), ("no-op", .noOp)]
  valued := [("json-pointer", .pointer), ("jq-expr", .filter), ("input", .input),
    ("schema", .schema), ("report", .report), ("out", .out)]
  letters := [('i', .input), ('s', .schema), ('o', .out)]

def describeOptions : Options where
  switches := []
  valued := [("schema", .schema)]
  letters := [('s', .schema)]

/-- The meaning of an argument whose first character is a hyphen. -/
def Options.read (options : Options) (argument : String) : Option Argument :=
  match argument.toList with
  | '-' :: '-' :: long =>
    let name := String.ofList (long.takeWhile (· ≠ '='))
    let attached := match long.dropWhile (· ≠ '=') with
      | _ :: value => some (String.ofList value)
      | [] => none
    match options.switches.lookup name, attached with
    | some switch, none => some (.switch switch)
    | some _, some _ => none
    | none, _ => (options.valued.lookup name).map (.valued · attached)
  | '-' :: letter :: rest =>
    (options.letters.lookup letter).map fun option =>
      .valued option (match rest with
        | [] => none
        | '=' :: value => some (String.ofList value)
        | value => some (String.ofList value))
  | _ => none

/-- Whether an argument can stand as a value of its own. -/
def standsAlone (argument : String) : Bool := argument = "-" || !argument.startsWith "-"

/-- Reads the arguments of a command. `expecting` is an option that still takes values, with whether
it has had one. -/
def readGiven (options : Options) (given : Given) (expecting : Option (Valued × Bool)) :
    List String → Option Given
  | [] =>
    match expecting with
    | some (_, false) => none
    | _ => some given
  | argument :: rest =>
    if standsAlone argument then
      match expecting with
      | none => none
      | some (option, _) => do
        let given ← given.addValue option argument
        readGiven options given (if option = .input then some (option, true) else none) rest
    else
      match expecting with
      | some (_, false) => none
      | _ =>
        if argument = "--" then (if rest.isEmpty then some given else none)
        else do
          match ← options.read argument with
          | .switch switch => readGiven options (← given.addSwitch switch) none rest
          | .valued option none =>
            if option ≠ .input && given.hasValue option then none
            else readGiven options given (some (option, false)) rest
          | .valued option (some value) =>
            readGiven options (← given.addValue option value) none rest

/-- The settings that the given options of a check make. -/
def checkSettings (given : Given) : Option CheckSettings := do
  let schema ← given.value? .schema
  let inputs := given.values.filterMap fun (option, value) =>
    if option = .input then some value else none
  if inputs.isEmpty then none
  else some {
    input := ⟨given.switches.contains .ndjson, given.value? .pointer, given.value? .filter, inputs⟩
    schema
    report := if given.value? .report = some "json" then .json else .pretty
    out := given.value? .out
    noOp := given.switches.contains .noOp }

/-- The command that arguments spell; none when they spell no command. -/
def Command.ofArguments : List String → Option Command
  | "check" :: rest => do
    some (.check (← checkSettings (← readGiven checkOptions .none none rest)))
  | "describe" :: rest => do
    let given ← readGiven describeOptions .none none rest
    some (.describe (← given.value? .schema))
  | first :: _ => if first = "--version" || first.startsWith "-V" then some .version else none
  | [] => none

end Readings.CommandLine
