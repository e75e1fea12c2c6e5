import Readings.Descriptor.Basic
import Readings.Document.Node
import Readings.Json.Reader
import Readings.Text.Quoted

/-!
Reading a schema document from text. Only the first value of the text is looked at. A node is read
whole before its form is judged, so a fault of syntax is told at its place inside, and a fault of
form at the node. A fault of form is placed where the reader stands after it tried to close the map
or array around the node.
-/
namespace Readings.Document

/-- Why a text is no schema document. -/
inductive Cause
  | malformed (cause : Json.Cause)
  | invalidType (found expected : String)
  | invalidLength (length : Nat)
  | unknownField (name : String)
  | duplicateField (name : String)
  | missingField (name : String)
  | noNode

/-- The wording of a cause. -/
def Cause.message : Cause → String
  | .malformed cause => cause.message
  | .invalidType found expected => "invalid type: " ++ found ++ ", expected " ++ expected
  | .invalidLength length =>
    "invalid length " ++ toString length ++ ", expected struct SchemaDocument with 2 elements"
  | .unknownField name => "unknown field `" ++ name ++ "`, expected `root` or `definitions`"
  | .duplicateField name => "duplicate field `" ++ name ++ "`"
  | .missingField name => "missing field `" ++ name ++ "`"
  | .noNode => "data did not match any variant of untagged enum Node"

structure Fault where
  cause : Cause
  offset : Nat
  path : List Json.Step

def Fault.below (step : Json.Step) (fault : Fault) : Fault :=
  ⟨fault.cause, fault.offset, step :: fault.path⟩

/-- The error that a fault in a text is. -/
def Fault.error (bytes : List UInt8) (fault : Fault) : SchemaError :=
  .malformedDocument (Json.pathText fault.path)
    (Json.located bytes fault.offset fault.cause.message)

open Json (Cursor Read)

/-- A reading of JSON inside a document. -/
def ofSyntax {α : Type} (reading : Except Json.Fault α) : Except Fault α :=
  reading.mapError fun fault => ⟨.malformed fault.cause, fault.offset, fault.path⟩

/-- A fault seen from inside one step. -/
def within {α : Type} (step : Json.Step) (reading : Except Fault α) : Except Fault α :=
  reading.mapError (·.below step)

/-- Where the reader stands after it tried to close an object at the cursor. -/
def afterObject (cursor : Cursor) : Cursor :=
  let cursor := cursor.skipBlanks
  if cursor.rest.head? = some 125 then cursor.advance 1 else cursor

/-- Where the reader stands after it tried to close an array at the cursor. -/
def afterArray (cursor : Cursor) : Cursor :=
  let cursor := cursor.skipBlanks
  if cursor.rest.head? = some 93 then cursor.advance 1
  else if cursor.rest.head? = some 44 then (cursor.advance 1).skipBlanks
  else cursor

/-- A fault of form, placed behind a cursor. -/
def misshapen {α : Type} (cause : Cause) (cursor : Cursor) : Except Fault α :=
  .error ⟨cause, cursor.offset, []⟩

/-- How a scalar is named where another kind of value was expected. -/
def kindText : Json → String
  | .null => "null"
  | .bool b => "boolean `" ++ (Json.bool b).compact ++ "`"
  | .integer n => "integer `" ++ toString n ++ "`"
  | .float x => "floating point `" ++ x.text ++ "`"
  | .string text => "string " ++ Text.escaped false text
  | .array _ => "sequence"
  | .object _ => "map"

/-- The fault of a value of the wrong kind: a scalar is read before it is refused, a container is
not entered. -/
def refuseKind {α : Type} (expected : String) (byte : UInt8) (cursor : Cursor) : Except Fault α :=
  if byte = 91 then misshapen (.invalidType "sequence" expected) cursor
  else if byte = 123 then misshapen (.invalidType "map" expected) cursor
  else do
    let (scalar, behind) ← ofSyntax (Json.readScalar byte cursor)
    misshapen (.invalidType (kindText scalar) expected) behind

/-- A node, read whole; `close` tells where a fault of its form is placed. -/
def readNode (levels : Nat) (close : Cursor → Cursor) (cursor : Cursor) :
    Except Fault (Read Node) := do
  let (json, behind) ← ofSyntax (Json.readValue levels cursor)
  match Node.ofJson? json with
  | some node => .ok (node, behind)
  | none => misshapen .noNode (close behind)

/-- The members of the map of definitions, added to those already read. Every member takes a byte,
so the length of what is left bounds their number. -/
def readDefinitionMembers (levels : Nat) :
    Nat → Bool → Entries Node → Cursor → Except Fault (Read (Entries Node))
  | 0, _, _, cursor => ofSyntax (cursor.failAhead .endOfObject)
  | fuel + 1, isFirst, definitions, cursor => do
    let (more, cursor) ← within .unreadKey (ofSyntax (Json.nextKey isFirst cursor))
    if more then
      let (key, cursor) ← within .unreadKey (ofSyntax (Json.readKey cursor))
      let ((), cursor) ← ofSyntax (Json.readColon cursor)
      let (node, cursor) ← within (.key key) (readNode levels afterObject cursor)
      readDefinitionMembers levels fuel false (Entries.insert definitions key node) cursor
    else .ok (definitions, cursor.advance 1)

/-- The map of definitions. -/
def readDefinitions (levels : Nat) (cursor : Cursor) : Except Fault (Read (Entries Node)) :=
  let cursor := cursor.skipBlanks
  match cursor.rest with
  | [] => ofSyntax (cursor.failAhead .endOfValue)
  | byte :: _ =>
    if byte = 123 then
      readDefinitionMembers (levels - 1) cursor.rest.length true [] (cursor.advance 1)
    else refuseKind "a map" byte cursor

/-- The fields of a document written as an object. -/
def readFields (levels : Nat) :
    Nat → Bool → Option Node → Option (Entries Node) → Cursor → Except Fault Document
  | 0, _, _, _, cursor => ofSyntax (cursor.failAhead .endOfObject)
  | fuel + 1, isFirst, root, definitions, cursor => do
    let (more, cursor) ← within .unreadKey (ofSyntax (Json.nextKey isFirst cursor))
    if more then
      let (key, cursor) ← within .unreadKey (ofSyntax (Json.readKey cursor))
      if key = "root" then
        if root.isSome then misshapen (.duplicateField key) (afterObject cursor)
        else do
          let ((), cursor) ← ofSyntax (Json.readColon cursor)
          let (node, cursor) ← within (.key key) (readNode levels afterObject cursor)
          readFields levels fuel false (some node) definitions cursor
      else if key = "definitions" then
        if definitions.isSome then misshapen (.duplicateField key) (afterObject cursor)
        else do
          let ((), cursor) ← ofSyntax (Json.readColon cursor)
          let (table, cursor) ← within (.key key) (readDefinitions levels cursor)
          readFields levels fuel false root (some table) cursor
      else within (.key key) (misshapen (.unknownField key) (afterObject cursor))
    else
      match root with
      | some root => .ok ⟨root, definitions.getD []⟩
      | none => misshapen (.missingField "root") (afterObject cursor)

/-- The parts of a document written as an array. -/
def readParts (levels : Nat) (cursor : Cursor) : Except Fault Document := do
  let (more, cursor) ← ofSyntax (Json.nextItem true cursor)
  if more then
    let (root, cursor) ← within (.index 0) (readNode levels afterArray cursor)
    let (more, cursor) ← ofSyntax (Json.nextItem false cursor)
    if more then
      let (definitions, cursor) ← within (.index 1) (readDefinitions levels cursor)
      let _ ← ofSyntax (Json.closeArray cursor)
      .ok ⟨root, definitions⟩
    else .ok ⟨root, []⟩
  else misshapen (.invalidLength 0) (afterArray cursor)

/-- The document that bytes spell. -/
def readBytes (bytes : List UInt8) : Except Fault Document :=
  let cursor := (Cursor.start bytes).skipBlanks
  let levels := Json.nestingLimit - 1
  match cursor.rest with
  | [] => ofSyntax (cursor.failAhead .endOfValue)
  | byte :: _ =>
    if byte = 123 then readFields levels cursor.rest.length true none none (cursor.advance 1)
    else if byte = 91 then readParts levels (cursor.advance 1)
    else refuseKind "struct SchemaDocument" byte cursor

/-- The document that bytes spell, or the error that they do not. -/
def ofBytes (bytes : List UInt8) : Except SchemaError Document :=
  (readBytes bytes).mapError (·.error bytes)

end Readings.Document
