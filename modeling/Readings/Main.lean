import Readings.CommandLine.Run

/-!
The executable: the operating system as a host, and the process around a run.
-/
namespace Readings.Main

open Files (FileError Host)

/-- The refusal that an error of the operating system is. -/
def refusal (error : IO.Error) : FileError :=
  let (number, words) : Nat × String := match error with
    | .alreadyExists _ number words | .interrupted _ number words
    | .noFileOrDirectory _ number words
    | .invalidArgument _ number words | .permissionDenied _ number words
    | .resourceExhausted _ number words | .inappropriateType _ number words
    | .noSuchThing _ number words => (number.toNat, words)
    | .otherError number words | .resourceBusy number words | .resourceVanished number words
    | .unsupportedOperation number words | .hardwareFault number words
    | .unsatisfiedConstraints number words | .illegalOperation number words
    | .protocolError number words | .timeExpired number words => (number.toNat, words)
    | .unexpectedEof => (0, "unexpected end of file")
    | .userError words => (0, words)
  -- some of the system's numbers arrive negated, as a word
  match min number (UInt32.size - number) with
  | 2 => .missing
  | 13 => .other "Permission denied" 13
  | 17 => .alreadyThere
  | 20 => .notDirectory
  | 21 => .isDirectory
  | number => .other words number

/-- An action with its refusal as an answer. -/
def attempt {α : Type} (action : IO α) : IO (Except FileError α) := do
  match ← action.toBaseIO with
  | .ok answer => pure (.ok answer)
  | .error error => pure (.error (refusal error))

/-- The operating system. -/
def host : Host IO where
  read path := attempt do pure (← IO.FS.readBinFile path).toList
  input := do pure (← (← IO.getStdin).readBinToEnd).toList
  isThere path := do (← IO.FS.realPath path).pathExists
  isDirectory path := do (← IO.FS.realPath path).isDir
  names path := attempt do
    pure ((← (← IO.FS.realPath path).readDir).toList.map fun entry => entry.fileName)
  makeDirectory path := attempt (IO.FS.createDir path)
  write path text := attempt (IO.FS.writeFile path text)

/-- Whether text is to be coloured: always when asked for by force, never when refused, otherwise on
terminals only. -/
def wantsColour : IO Bool := do
  let asked (name : String) : IO (Option Bool) := do pure ((← IO.getEnv name).map (· ≠ "0"))
  if (← asked "CLICOLOR_FORCE") = some true then return true
  if (← asked "NO_COLOR").isSome then return false
  return (← asked "CLICOLOR").getD true && (← (← IO.getStdout).isTty)

end Readings.Main

open Readings in
/-- Runs the command that the arguments spell. -/
def main (arguments : List String) : IO UInt32 := do
  match ← CommandLine.run Main.host (← Main.wantsColour) arguments with
  | some answer =>
    (← IO.getStdout).putStr answer.output
    (← IO.getStderr).putStr answer.notes
    return answer.code.toUInt32
  | none =>
    (← IO.getStderr).putStrLn
      "usage: json-cast check -s <SCHEMA> -i <INPUT>... | describe -s <SCHEMA>"
    return 2
