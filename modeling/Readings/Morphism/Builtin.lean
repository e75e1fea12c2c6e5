import Readings.Descriptor.Basic

/-!
The morphisms that have names, so that a schema document can ask for them.
-/
namespace Readings

inductive Builtin
  | length
  | keys
  | merge
  | first
deriving DecidableEq

namespace Builtin

/-- Every builtin, in the order they are listed. -/
def all : List Builtin := [.length, .keys, .merge, .first]

def name : Builtin → String
  | .length => "length"
  | .keys => "keys"
  | .merge => "merge"
  | .first => "first"

/-- Characters of a text, items of an array, keys of an object; undefined for anything else. -/
def lengthOf : Morphism
  | .string text => .number (.ofNat text.length)
  | .array items => .number (.ofNat items.length)
  | .object entries => .number (.ofNat entries.length)
  | _ => .undefined

/-- The keys of an object in order; undefined for anything else. -/
def keysOf : Morphism
  | .object entries => .array ((Entries.keys entries).map .string)
  | _ => .undefined

/-- One more item of a merge: an object is written over what there is, anything else is skipped. -/
def mergeItem (merged : Entries Value) : Value → Entries Value
  | .object entries => Entries.extend merged entries
  | _ => merged

/-- Folds the objects among the items of an array into one object: a later item wins on a shared
key, which keeps its first place. What is not an array is left as it is. -/
def merged : Morphism
  | .array items => .object (items.foldl mergeItem [])
  | other => other

/-- The first item of an array; undefined when there is none. -/
def firstOf : Morphism
  | .array (item :: _) => item
  | _ => .undefined

def morphism : Builtin → Morphism
  | .length => lengthOf
  | .keys => keysOf
  | .merge => merged
  | .first => firstOf

def named? (name : String) : Option Builtin := all.find? (·.name == name)

/-- The morphism of a name, or the error that there is none. -/
def lookup (name : String) : Except SchemaError Morphism :=
  match named? name with
  | some builtin => .ok builtin.morphism
  | none => .error (.unknownMorphism name)

end Builtin
end Readings
