import Readings.Files.Host
import Readings.Files.Pattern

/-!
Finding the paths that a pattern stands for. A component without special characters is looked up;
any other is compared with the names in a directory, in ascending order. A recursive component takes
the directories below, each before what it holds.
-/
namespace Readings.Files

/-- How deep a search goes; no path text that a host accepts has more components. -/
def depthLimit : Nat := 4096

/-- A directory that could not be looked into. -/
structure Unlisted where
  path : String
  error : FileError

def Unlisted.message (unlisted : Unlisted) : String :=
  "attempting to read `" ++ unlisted.path ++ "` resulted in an error: " ++ unlisted.error.message

/-- Names by ascending bytes. -/
def ascending (names : List String) : List String :=
  names.mergeSort fun a b => a ≤ b

/-- Where a component continues from a path: the working directory itself leaves no trace. -/
def continued (path name : String) : String := if path = "." then name else join path name

section
variable {m : Type → Type} [Monad m] (host : Host m)

/-- The results of an action on each item, one after the other. -/
def gather {α : Type} (items : List α) (action : α → m (Except Unlisted (List String))) :
    m (Except Unlisted (List String)) :=
  match items with
  | [] => pure (.ok [])
  | item :: rest => do
    match ← action item with
    | .error error => pure (.error error)
    | .ok found =>
      match ← gather rest action with
      | .error error => pure (.error error)
      | .ok more => pure (.ok (found ++ more))

/-- The paths below `path` that the components stand for. -/
def searchFrom (onlyDirectories : Bool) :
    Nat → List Component → String → m (Except Unlisted (List String))
  | 0, _, _ => pure (.ok [])
  | _, [], _ => pure (.ok [])
  | fuel + 1, component :: rest, path => do
    let accepted (found : String) : m (Except Unlisted (List String)) := do
      if onlyDirectories then
        pure (.ok (if ← host.isDirectory found then [found] else []))
      else pure (.ok [found])
    let onward (found : String) : m (Except Unlisted (List String)) :=
      if rest.isEmpty then accepted found
      else searchFrom onlyDirectories fuel rest found
    match component.name? with
    | some name =>
      let next := if path = "." then name else join path name
      let special := name = "." || name = ".."
      let there ← if special then host.isDirectory path else host.isThere next
      if there then onward next else pure (.ok [])
    | none =>
      if !(← host.isDirectory path) then pure (.ok [])
      else
        match ← host.names path with
        | .error error => pure (.error ⟨path, error⟩)
        | .ok names =>
          if component.isRecursive then
            let beyond := rest.dropWhile Component.isRecursive
            gather (ascending names) fun name => do
              let child := continued path name
              let isDirectory ← host.isDirectory child
              let matched ← match beyond with
                | [] => pure (.ok (if isDirectory then [child] else []))
                | next :: further =>
                  if next.matchesName name then
                    if further.isEmpty then accepted child
                    else searchFrom onlyDirectories fuel further child
                  else pure (.ok [])
              match matched with
              | .error error => pure (.error error)
              | .ok matched =>
                match ← searchFrom onlyDirectories fuel (component :: beyond) child with
                | .error error => pure (.error error)
                | .ok below => pure (.ok (matched ++ below))
          else
            let specials :=
              if component.beginsWithPoint then ["..", "."].filter component.matchesName else []
            match ← gather specials fun name => onward (join path name) with
            | .error error => pure (.error error)
            | .ok special =>
              match ← gather ((ascending names).filter component.matchesName)
                  fun name => onward (continued path name) with
              | .error error => pure (.error error)
              | .ok found => pure (.ok (special ++ found))

/-- The paths that a pattern stands for. -/
def search (pattern : Pattern) : m (Except Unlisted (List String)) :=
  searchFrom host pattern.onlyDirectories (depthLimit + pattern.components.length)
    pattern.components (if pattern.isAbsolute then "/" else ".")

end
end Readings.Files
