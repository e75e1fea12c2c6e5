import Readings.Text.Lines

/-!
The file system as a program meets it: reading and writing files, looking at directories, reading
standard input. A host offers these in some setting. Paths are texts that the host interprets; in
their text repeated slashes and inner points name nothing of their own. A directory is made with all
the directories it needs around it.
-/
namespace Readings.Files

/-! ## Paths -/

/-- The components of a path that count: not the empty ones, and a point only in front. -/
def components (path : String) : List String :=
  match Text.split '/' path with
  | [] => []
  | first :: rest =>
    (if first = "" then [] else [first]) ++ rest.filter fun name => name ≠ "" && name ≠ "."

/-- The directory around what a path names; none around the root, and the empty path around a single
name. -/
def parent? (path : String) : Option String :=
  let isAbsolute := path.startsWith "/"
  match components path with
  | [] => none
  | names => some ((if isAbsolute then "/" else "") ++ "/".intercalate names.dropLast)

/-- Whether a path is a hyphen, whatever slashes and points follow it. -/
def isHyphen (path : String) : Bool := !path.startsWith "/" && components path = ["-"]

/-- A path continued by a name. -/
def join (path name : String) : String :=
  if path.endsWith "/" then path ++ name else path ++ "/" ++ name

/-! ## Hosts -/

/-- Why the host refused. -/
inductive FileError
  | missing
  | notDirectory
  | isDirectory
  | alreadyThere
  /-- Another refusal, with the host's words and number. -/
  | other (description : String) (number : Nat)
deriving DecidableEq

/-- The wording of a refusal. -/
def FileError.message : FileError → String
  | .missing => "No such file or directory (os error 2)"
  | .notDirectory => "Not a directory (os error 20)"
  | .isDirectory => "Is a directory (os error 21)"
  | .alreadyThere => "File exists (os error 17)"
  | .other description number => description ++ " (os error " ++ toString number ++ ")"

structure Host (m : Type → Type) where
  /-- The content of a file. -/
  read : String → m (Except FileError (List UInt8))
  /-- What is left of standard input. -/
  input : m (List UInt8)
  /-- Whether anything is at a path. -/
  isThere : String → m Bool
  /-- Whether a directory is at a path. -/
  isDirectory : String → m Bool
  /-- The names in a directory, in any order. -/
  names : String → m (Except FileError (List String))
  /-- Makes one directory in one that is there. -/
  makeDirectory : String → m (Except FileError Unit)
  /-- Makes a text the content of a file, in a directory that is there. -/
  write : String → String → m (Except FileError Unit)

/-! ## Making directories -/

/-- Makes a directory, and first those around it that are missing; a directory that is already there
is fine. A path has fewer components than characters, which bounds how far out this goes. -/
def makeDirectoriesWithin {m : Type → Type} [Monad m] (host : Host m) :
    Nat → String → m (Except FileError Unit)
  | 0, _ => pure (.ok ())
  | fuel + 1, path => do
    if path = "" then return .ok ()
    match ← host.makeDirectory path with
    | .ok () => pure (.ok ())
    | .error .missing =>
      match parent? path with
      | none => pure (.error .missing)
      | some around =>
        match ← makeDirectoriesWithin host fuel around with
        | .error error => pure (.error error)
        | .ok () => settle (← host.makeDirectory path) path
    | .error error => settle (.error error) path
where
  /-- A directory that could not be made because it is there. -/
  settle (made : Except FileError Unit) (path : String) : m (Except FileError Unit) := do
    match made with
    | .ok () => pure (.ok ())
    | .error error => pure (if ← host.isDirectory path then .ok () else .error error)

def makeDirectories {m : Type → Type} [Monad m] (host : Host m) (path : String) :
    m (Except FileError Unit) :=
  makeDirectoriesWithin host (path.length + 1) path

end Readings.Files
