import Readings.Double.Basic
import Readings.Text.Lines

/-!
JSON data as it is written, and the tables that its objects become. A table remembers the order in
which keys first came: writing to a key that is already there replaces its value and keeps its
place. Every table of the library is built this way, so the order of keys in an answer is the order
in which they were met.

Integers are kept apart from other numbers, and the members of an object keep their order and their
repetitions; `settled` is the reading in which a repeated key counts once. A JSON Pointer is a path
into the data written as text: the empty text points to the whole, and any other starts with a slash
before each step, in which `~1` stands for a slash and `~0` for a tilde.
-/
namespace Readings

/-! ## Tables -/

/-- Keys with their values, in order of first insertion. -/
abbrev Entries (α : Type) := List (String × α)

namespace Entries
variable {α β : Type}

/-- Writes a key: in place when it is known, at the end otherwise. -/
def insert : Entries α → String → α → Entries α
  | [], key, value => [(key, value)]
  | (known, old) :: rest, key, value =>
    if known = key then (known, value) :: rest else (known, old) :: insert rest key value

/-- Writes every pair of `more` in turn. -/
def extend (entries more : Entries α) : Entries α :=
  more.foldl (fun table pair => insert table pair.1 pair.2) entries

/-- The table that writing the pairs in turn leaves. -/
def ofPairs (pairs : List (String × α)) : Entries α := extend [] pairs

def find? (entries : Entries α) (key : String) : Option α := entries.lookup key

def keys (entries : Entries α) : List String := entries.map Prod.fst

def values (entries : Entries α) : List α := entries.map Prod.snd

/-- Each key is there once. -/
def Distinct (entries : Entries α) : Prop := entries.keys.Nodup

end Entries

/-! ## Data -/

inductive Json
  | null
  | bool (b : Bool)
  | integer (n : Int)
  | float (x : Double)
  | string (text : String)
  | array (items : List Json)
  | object (members : List (String × Json))
deriving Inhabited

namespace Json

mutual
/-- Whether two pieces of data are the same, down to the order of members. -/
def decideEq : (json other : Json) → Decidable (json = other)
  | .null, other => match other with
    | .null => isTrue rfl
    | .bool _ | .integer _ | .float _ | .string _ | .array _ | .object _ => isFalse nofun
  | .bool b, other => match other with
    | .bool c => decidable_of_iff (b = c) (Json.bool.injEq b c ▸ Iff.rfl)
    | .null | .integer _ | .float _ | .string _ | .array _ | .object _ => isFalse nofun
  | .integer n, other => match other with
    | .integer m => decidable_of_iff (n = m) (Json.integer.injEq n m ▸ Iff.rfl)
    | .null | .bool _ | .float _ | .string _ | .array _ | .object _ => isFalse nofun
  | .float x, other => match other with
    | .float y => decidable_of_iff (x = y) (Json.float.injEq x y ▸ Iff.rfl)
    | .null | .bool _ | .integer _ | .string _ | .array _ | .object _ => isFalse nofun
  | .string text, other => match other with
    | .string more => decidable_of_iff (text = more) (Json.string.injEq text more ▸ Iff.rfl)
    | .null | .bool _ | .integer _ | .float _ | .array _ | .object _ => isFalse nofun
  | .array items, other => match other with
    | .array others => match decideItems items others with
      | isTrue same => isTrue (congrArg Json.array same)
      | isFalse apart => isFalse fun same => apart (Json.array.inj same)
    | .null | .bool _ | .integer _ | .float _ | .string _ | .object _ => isFalse nofun
  | .object members, other => match other with
    | .object others => match decideMembers members others with
      | isTrue same => isTrue (congrArg Json.object same)
      | isFalse apart => isFalse fun same => apart (Json.object.inj same)
    | .null | .bool _ | .integer _ | .float _ | .string _ | .array _ => isFalse nofun

def decideItems : (items others : List Json) → Decidable (items = others)
  | [], [] => isTrue rfl
  | [], _ :: _ | _ :: _, [] => isFalse nofun
  | item :: rest, other :: others => match decideEq item other, decideItems rest others with
    | isTrue same, isTrue all => isTrue (same ▸ all ▸ rfl)
    | isFalse apart, _ => isFalse fun same => apart (List.cons.inj same).1
    | _, isFalse apart => isFalse fun same => apart (List.cons.inj same).2

def decideMembers : (members others : List (String × Json)) → Decidable (members = others)
  | [], [] => isTrue rfl
  | [], _ :: _ | _ :: _, [] => isFalse nofun
  | (key, item) :: rest, (name, other) :: others =>
    match decEq key name, decideEq item other, decideMembers rest others with
    | isTrue named, isTrue same, isTrue all => isTrue (named ▸ same ▸ all ▸ rfl)
    | isFalse apart, _, _ => isFalse fun same => apart (Prod.mk.inj (List.cons.inj same).1).1
    | _, isFalse apart, _ => isFalse fun same => apart (Prod.mk.inj (List.cons.inj same).1).2
    | _, _, isFalse apart => isFalse fun same => apart (List.cons.inj same).2
end

instance : DecidableEq Json := decideEq

/-- One past the largest unsigned word of 64 bits. -/
def wordLimit : Nat := 1 <<< 64

/-- The size of the least signed word of 64 bits, and one past the largest. -/
def signedLimit : Nat := 1 <<< 63

/-- The integers that are signed words. -/
def InWord (n : Int) : Prop := -signedLimit ≤ n ∧ n < signedLimit

instance (n : Int) : Decidable (InWord n) := by
  unfold InWord
  infer_instance

/-- A number that is not finite has no JSON form and becomes null. -/
def ofDouble (x : Double) : Json := if x.isFinite then .float x else .null

mutual
/-- Every object with each key once: the later value wins and stands in the place of the first. -/
def settled : Json → Json
  | .array items => .array (settledItems items)
  | .object members => .object (Entries.ofPairs (settledMembers members))
  | .null => .null
  | .bool b => .bool b
  | .integer n => .integer n
  | .float x => .float x
  | .string text => .string text

def settledItems : List Json → List Json
  | [] => []
  | item :: rest => item.settled :: settledItems rest

def settledMembers : List (String × Json) → List (String × Json)
  | [] => []
  | (key, value) :: rest => (key, value.settled) :: settledMembers rest
end

/-! ## Pointers -/

/-- A step with `~1` read as a slash. -/
def unescapeSlash : List Char → List Char
  | '~' :: '1' :: rest => '/' :: unescapeSlash rest
  | c :: rest => c :: unescapeSlash rest
  | [] => []

/-- A step with `~0` read as a tilde. -/
def unescapeTilde : List Char → List Char
  | '~' :: '0' :: rest => '~' :: unescapeTilde rest
  | c :: rest => c :: unescapeTilde rest
  | [] => []

/-- The index that a step spells: decimal digits without a needless zero in front. -/
def indexOf? (step : List Char) : Option Nat :=
  if step.isEmpty || !step.all Char.isDigit || (step.head? = some '0' && step.length ≠ 1) then none
  else some (step.foldl (fun n digit => n * 10 + (digit.toNat - 48)) 0)

/-- What one step leads to: a member of an object or an item of an array. -/
def child? (step : List Char) : Json → Option Json
  | .object members => Entries.find? members (String.ofList step)
  | .array items => (indexOf? step).bind (items[·]?)
  | _ => none

/-- What a pointer leads to. -/
def pointTo? (json : Json) (pointer : String) : Option Json :=
  match pointer.toList with
  | [] => some json
  | '/' :: steps =>
    (Text.splitChars '/' steps).foldl
      (fun target step => target.bind (child? (unescapeTilde (unescapeSlash step)))) (some json)
  | _ => none

end Json
end Readings
