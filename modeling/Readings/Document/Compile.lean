import Readings.Closure.Fix
import Readings.Document.Reader
import Readings.Morphism.Builtin

/-!
Compiling a schema document. All definitions are lowered in document order, then each is closed in
that order, then the root is lowered and closed; the first error wins.
-/
namespace Readings

/-- A compiled document: the closed root and every closed definition. -/
structure Schema where
  root : Descriptor
  definitions : Entries Descriptor

/-- The literal that JSON data is. -/
def Literal.ofJson (json : Json) : Except SchemaError Literal :=
  match ofValue? (Value.ofJson json) with
  | some literal => .ok literal
  | none => .error (.invalidLiteral json.compact)

namespace Node

mutual
/-- The raw descriptor of a node, where each definition's name refers to its symbol. -/
def lower (symbols : Entries Symbol) : Node → Except SchemaError Descriptor
  | .atom name => Descriptor.ofAtom name
  | .array item => do .ok (.array (← item.lower symbols))
  | .tuple items => do .ok (.tuple (← lowerAll symbols items))
  | .record item => do .ok (.record (← item.lower symbols))
  | .object fields => do .ok (.ofFields (← lowerFields symbols fields))
  | .enumeration literals => do .ok (.oneOf (← literals.mapM Literal.ofJson))
  | .union members => do .ok (.union (← lowerAll symbols members))
  | .intersection members => do .ok (.intersection (← lowerAll symbols members))
  | .nullable inner => do .ok (.nullable (← inner.lower symbols))
  | .optional inner => do .ok (.optional (← inner.lower symbols))
  | .pure value => .ok (.pure (.ofJson value))
  | .map morphism inner => do
    let morphism ← Builtin.lookup morphism
    .ok (.mapWith morphism (← inner.lower symbols))
  | .reference name =>
    match Entries.find? symbols name with
    | some symbol => .ok (.reference symbol)
    | none => .error (.undefinedName name)

def lowerAll (symbols : Entries Symbol) : List Node → Except SchemaError (List Descriptor)
  | [] => .ok []
  | node :: rest => do
    let first ← node.lower symbols
    .ok (first :: (← lowerAll symbols rest))

def lowerFields (symbols : Entries Symbol) :
    List (String × Node) → Except SchemaError (List (String × Descriptor))
  | [] => .ok []
  | (key, node) :: rest => do
    let first ← node.lower symbols
    .ok ((key, first) :: (← lowerFields symbols rest))
end

end Node

namespace Document

/-- One symbol for each definition, with serials counted up from `serial`. -/
def symbols (serial : Nat) (document : Document) : Entries Symbol :=
  (Entries.keys document.definitions).zipIdx.map fun (name, index) => (name, ⟨serial + index, name⟩)

/-- Compiles a document, drawing the symbols of its definitions from `serial` on. -/
def compile (serial : Nat) (document : Document) : Except SchemaError Schema := do
  let symbols := document.symbols serial
  let bodies ← document.definitions.mapM fun (_, node) => node.lower symbols
  let group : Group := ⟨(Entries.values symbols).zip bodies⟩
  let definitions ← symbols.mapM fun (name, symbol) => do .ok (name, ← group.close symbol)
  let root ← document.root.lower symbols
  .ok ⟨← group.closeType root, definitions⟩

end Document

/-- Reads and compiles the schema that bytes spell. -/
def Schema.ofBytes (serial : Nat) (bytes : List UInt8) : Except SchemaError Schema := do
  (← Document.ofBytes bytes).compile serial

/-- Reads and compiles the schema that a text spells. -/
def Schema.ofText (serial : Nat) (text : String) : Except SchemaError Schema :=
  ofBytes serial (Text.Utf8.encode text)

end Readings
