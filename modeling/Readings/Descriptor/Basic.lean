import Readings.Morphism.Basic
import Readings.Value.Literal

/-!
Descriptors: a closed grammar of shapes. A descriptor is data and looks at no input. Recursion is
written with a binder, `recursive`, and references to the symbol it binds; the constructors below
keep the few rules of form there are. What can be wrong with a descriptor while it is built is an
error of its own kind; casting raises none of these, since bad input is part of a cast's outcome.
-/
namespace Readings

/-! ## Errors -/

inductive SchemaError
  | unknownPrimitive (name : String)
  | undefinedName (name : String)
  | duplicateName (name : String)
  | danglingReference (description : String)
  | unguardedRecursion (description : String)
  | invalidLiteral (text : String)
  | unknownMorphism (name : String)
  | malformedDocument (path message : String)
deriving DecidableEq, Inhabited

namespace SchemaError

private def ticked (name : String) : String := "`" ++ name ++ "`"

/-- The wording of an error. -/
def message : SchemaError → String
  | .unknownPrimitive name => "unknown primitive kind " ++ ticked name
  | .undefinedName name => ticked name ++ " is not defined in this recursive group"
  | .duplicateName name => ticked name ++ " is defined more than once"
  | .danglingReference description =>
    "reference to " ++ ticked description ++ " has no enclosing binder"
  | .unguardedRecursion description =>
    ticked description ++ " recurses without passing through an array, tuple, record or object"
  | .invalidLiteral text => "enumeration members must be primitive literals, got " ++ text
  | .unknownMorphism name => "unknown morphism " ++ ticked name
  | .malformedDocument path message => "at JSON path " ++ path ++ " → " ++ message

end SchemaError

/-! ## Shapes -/

inductive PrimitiveKind
  | string
  | number
  | bigint
  | boolean
  | symbol
  | null
  | undefined
deriving DecidableEq, Inhabited

namespace PrimitiveKind

/-- Every kind, in the order they are listed. -/
def all : List PrimitiveKind := [.string, .number, .bigint, .boolean, .symbol, .null, .undefined]

def name : PrimitiveKind → String
  | .string => "string"
  | .number => "number"
  | .bigint => "bigint"
  | .boolean => "boolean"
  | .symbol => "symbol"
  | .null => "null"
  | .undefined => "undefined"

/-- Whether a value is of exactly this kind. -/
def admits : PrimitiveKind → Value → Bool
  | .string, .string _ | .number, .number _ | .bigint, .bigint _ | .boolean, .bool _
  | .symbol, .symbol _ | .null, .null | .undefined, .undefined => true
  | _, _ => false

/-- The kind of a name, or the error that there is none. -/
def ofName (name : String) : Except SchemaError PrimitiveKind :=
  match all.find? (·.name == name) with
  | some kind => .ok kind
  | none => .error (.unknownPrimitive name)

end PrimitiveKind

/-- A shape of values. -/
inductive Descriptor
  /-- Any value. -/
  | unknown
  /-- No value. -/
  | never
  /-- Every value of a primitive kind. -/
  | primitive (kind : PrimitiveKind)
  /-- Arrays of an item shape. -/
  | array (item : Descriptor)
  /-- Arrays of as many items as there are shapes, each of its shape. -/
  | tuple (items : List Descriptor)
  /-- Objects whose values all have one shape. -/
  | record (item : Descriptor)
  /-- Objects with the declared keys; others are dropped. -/
  | object (fields : List (String × Descriptor))
  /-- The members of a set of literals. -/
  | enumeration (members : List Literal)
  /-- Every reading of every member. -/
  | union (members : List Descriptor)
  /-- The readings of all members side by side. -/
  | intersection (members : List Descriptor)
  /-- A constant, whatever the input. -/
  | pure (value : Value)
  /-- The readings of `inner`, each transformed. -/
  | map (composition : Composition) (inner : Descriptor)
  /-- The body that a symbol is bound to. -/
  | reference (symbol : Symbol)
  /-- The body, in which references to the symbol stand for the body itself. -/
  | recursive (symbol : Symbol) (body : Descriptor)
deriving Inhabited

namespace Descriptor

def tag : Descriptor → String
  | .unknown => "unknown"
  | .never => "never"
  | .primitive kind => kind.name
  | .array _ => "array"
  | .tuple _ => "tuple"
  | .record _ => "record"
  | .object _ => "object"
  | .enumeration _ => "enumeration"
  | .union _ => "union"
  | .intersection _ => "intersection"
  | .pure _ => "pure"
  | .map .. => "map"
  | .reference _ => "reference"
  | .recursive .. => "recursive"

/-! ## Constructors with a rule -/

/-- An object shape; a key declared again replaces the earlier shape and keeps its place. -/
def ofFields (fields : List (String × Descriptor)) : Descriptor := .object (Entries.ofPairs fields)

/-- The set of the given literals. -/
def oneOf (literals : List Literal) : Descriptor := .enumeration (Literal.distinct literals)

def nullable (inner : Descriptor) : Descriptor := .union [inner, .primitive .null]

def optional (inner : Descriptor) : Descriptor := .union [inner, .primitive .undefined]

/-- Transforms the readings of a shape. Over a `map` this extends its composition, so that the
transformations of a node stand in one list. -/
def mapWith (morphism : Morphism) : Descriptor → Descriptor
  | .map composition inner => .map (.compose morphism composition) inner
  | inner => .map (.compose morphism .id) inner

/-- The shape of an atom's name: a word of its own or a primitive kind. -/
def ofAtom (name : String) : Except SchemaError Descriptor :=
  if name = "unknown" then .ok .unknown
  else if name = "never" then .ok .never
  else (PrimitiveKind.ofName name).map .primitive

/-! ## Measures -/

mutual
/-- How many recursion binders there are anywhere. -/
def binders : Descriptor → Nat
  | .unknown | .never | .primitive _ | .enumeration _ | .pure _ | .reference _ => 0
  | .array item => item.binders
  | .record item => item.binders
  | .map _ inner => inner.binders
  | .tuple items => bindersAll items
  | .union members => bindersAll members
  | .intersection members => bindersAll members
  | .object fields => bindersFields fields
  | .recursive _ body => 1 + body.binders

def bindersAll : List Descriptor → Nat
  | [] => 0
  | item :: rest => item.binders + bindersAll rest

def bindersFields : List (String × Descriptor) → Nat
  | [] => 0
  | (_, item) :: rest => item.binders + bindersFields rest
end

mutual
/-- How many nodes a descriptor has. -/
def size : Descriptor → Nat
  | .unknown | .never | .primitive _ | .enumeration _ | .pure _ | .reference _ => 1
  | .array item => 1 + item.size
  | .record item => 1 + item.size
  | .map _ inner => 1 + inner.size
  | .tuple items => 1 + sizeAll items
  | .union members => 1 + sizeAll members
  | .intersection members => 1 + sizeAll members
  | .object fields => 1 + sizeFields fields
  | .recursive _ body => 1 + body.size

def sizeAll : List Descriptor → Nat
  | [] => 0
  | item :: rest => item.size + sizeAll rest

def sizeFields : List (String × Descriptor) → Nat
  | [] => 0
  | (_, item) :: rest => item.size + sizeFields rest
end

/-! ## Text -/

mutual
/-- The text of a descriptor. A composition shows as the number of its morphisms. -/
def text : Descriptor → String
  | .unknown => "unknown"
  | .never => "never"
  | .primitive kind => kind.name
  | .array item => "array<" ++ item.text ++ ">"
  | .tuple items => "[" ++ ", ".intercalate (textAll items) ++ "]"
  | .record item => "record<" ++ item.text ++ ">"
  | .object fields =>
    "\x7b" ++ ",".intercalate (textFields fields) ++ (if fields.isEmpty then "\x7d" else " \x7d")
  | .enumeration members => "enum(" ++ " | ".intercalate (members.map Literal.text) ++ ")"
  | .union members => "(" ++ " | ".intercalate (textAll members) ++ ")"
  | .intersection members => "(" ++ " & ".intercalate (textAll members) ++ ")"
  | .pure value => "pure(" ++ value.text ++ ")"
  | .map composition inner => "map[" ++ toString composition.size ++ "](" ++ inner.text ++ ")"
  | .reference symbol => symbol.description
  | .recursive symbol body => "μ" ++ symbol.description ++ ". " ++ body.text

def textAll : List Descriptor → List String
  | [] => []
  | item :: rest => item.text :: textAll rest

def textFields : List (String × Descriptor) → List String
  | [] => []
  | (key, item) :: rest => (" " ++ key ++ ": " ++ item.text) :: textFields rest
end

end Descriptor
end Readings
