import Readings.Files.Host
import Readings.Text.Utf8

/-!
A file system held in memory, as a host. Files stand at lists of names below the working directory;
a directory is there when it was made or when a file stands below it.
-/
namespace Readings.Files

/-- Where something stands: the names on the way from the working directory. -/
abbrev Location := List String

structure Tree where
  files : List (Location × List UInt8)
  directories : List Location
deriving Inhabited

namespace Tree

/-- The tree of files given by their relative paths. -/
def ofFiles (files : List (String × List UInt8)) : Tree :=
  ⟨files.map fun (path, content) => (components path, content), []⟩

def content? (tree : Tree) (location : Location) : Option (List UInt8) := tree.files.lookup location

def hasFile (tree : Tree) (location : Location) : Bool := (tree.content? location).isSome

/-- Whether a directory is there. The working directory always is. -/
def hasDirectory (tree : Tree) (location : Location) : Bool :=
  location.isEmpty || tree.directories.contains location
    || tree.files.any fun (file, _) => location.length < file.length && location.isPrefixOf file

/-- Refuses a location that is no directory. -/
def requireDirectory (tree : Tree) (location : Location) : Except FileError Unit :=
  if tree.hasDirectory location then .ok ()
  else if tree.hasFile location then .error .notDirectory
  else .error .missing

/-- The location that names lead to from another; every name on the way needs a directory. -/
def walk (tree : Tree) (location : Location) : List String → Except FileError Location
  | [] => .ok location
  | name :: rest => do
    tree.requireDirectory location
    if name = "" || name = "." then tree.walk location rest
    else if name = ".." then tree.walk location.dropLast rest
    else tree.walk (location ++ [name]) rest

/-- The location of a path. A slash at the end asks for a directory; nothing stands outside the
working directory. -/
def locate (tree : Tree) (path : String) : Except FileError Location := do
  if path = "" || path.startsWith "/" then .error .missing
  else tree.walk [] (Text.split '/' path)

/-- The content of the file at a path. -/
def read (tree : Tree) (path : String) : Except FileError (List UInt8) := do
  let location ← tree.locate path
  if tree.hasDirectory location then .error .isDirectory
  else
    match tree.content? location with
    | some content => .ok content
    | none => .error .missing

/-- The names in a directory. -/
def names (tree : Tree) (path : String) : Except FileError (List String) := do
  let location ← tree.locate path
  tree.requireDirectory location
  let below := tree.files.map Prod.fst ++ tree.directories
  .ok (below.filterMap fun other =>
    if location.isPrefixOf other then other[location.length]? else none).eraseDups

/-- The tree with one more directory. -/
def makeDirectory (tree : Tree) (path : String) : Except FileError Tree := do
  let location ← tree.locate path
  if tree.hasDirectory location || tree.hasFile location then .error .alreadyThere
  else .ok { tree with directories := tree.directories ++ [location] }

/-- The tree with a text as the content of a file. -/
def write (tree : Tree) (path text : String) : Except FileError Tree := do
  if path.endsWith "/" && (tree.locate path).toOption.isNone then
    let location ← tree.locate (String.ofList (path.toList.dropLast))
    if tree.hasFile location then .error .notDirectory else .error .isDirectory
  else
    let location ← tree.locate path
    if tree.hasDirectory location then .error .isDirectory
    else
      .ok { tree with
        files := tree.files.filter (·.1 ≠ location) ++ [(location, Text.Utf8.encode text)] }

end Tree

/-- A tree with what is left of standard input. -/
structure Surroundings where
  tree : Tree
  input : List UInt8
deriving Inhabited

/-- Keeps the changed tree of an action that succeeded. -/
def Surroundings.change (action : Tree → Except FileError Tree) :
    StateM Surroundings (Except FileError Unit) := do
  match action (← get).tree with
  | .ok tree =>
    modify fun surroundings => { surroundings with tree }
    pure (.ok ())
  | .error error => pure (.error error)

/-- The host of a tree. Standard input can be read once. -/
def Tree.host : Host (StateM Surroundings) where
  read path := do pure ((← get).tree.read path)
  input := modifyGet fun surroundings => (surroundings.input, { surroundings with input := [] })
  isThere path := do
    let tree := (← get).tree
    pure (match tree.locate path with
      | .ok location => tree.hasFile location || tree.hasDirectory location
      | .error _ => false)
  isDirectory path := do
    let tree := (← get).tree
    pure (match tree.locate path with
      | .ok location => tree.hasDirectory location
      | .error _ => false)
  names path := do pure ((← get).tree.names path)
  makeDirectory path := Surroundings.change (·.makeDirectory path)
  write path text := Surroundings.change (·.write path text)

end Readings.Files
