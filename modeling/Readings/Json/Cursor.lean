import Readings.Json.Fault

/-!
A place in JSON text, and the answers of a reader that starts there. A fault found on a byte that
was read counts that byte; a fault found by looking ahead counts the byte looked at, unless the text
has ended.
-/
namespace Readings.Json

/-- What is left of a text, and how many bytes were read. -/
structure Cursor where
  rest : List UInt8
  offset : Nat
deriving DecidableEq

/-- What was read, and the cursor behind it. -/
abbrev Read (α : Type) := α × Cursor

/-- Whether a byte is a decimal digit. -/
def isDigit (byte : UInt8) : Bool := 48 ≤ byte && byte ≤ 57

/-- The blanks of JSON: space, line feed, tab and carriage return. -/
def isBlank (byte : UInt8) : Bool := byte == 32 || byte == 10 || byte == 9 || byte == 13

namespace Cursor

/-- The cursor at the start of a text. -/
def start (bytes : List UInt8) : Cursor := ⟨bytes, 0⟩

/-- Reads so many bytes, or to the end. -/
def advance : Nat → Cursor → Cursor
  | 0, cursor => cursor
  | _ + 1, ⟨[], offset⟩ => ⟨[], offset⟩
  | count + 1, ⟨_ :: rest, offset⟩ => advance count ⟨rest, offset + 1⟩

/-- The cursor behind the blanks. -/
def skipBlanks (cursor : Cursor) : Cursor :=
  cursor.advance (cursor.rest.takeWhile isBlank).length

/-- A fault behind what was read. -/
def fail {α : Type} (cursor : Cursor) (cause : Cause) : Except Fault α :=
  .error ⟨cause, cursor.offset, []⟩

/-- A fault at the next byte. -/
def failAhead {α : Type} (cursor : Cursor) (cause : Cause) : Except Fault α :=
  .error ⟨cause, cursor.offset + (if cursor.rest.isEmpty then 0 else 1), []⟩

end Cursor
end Readings.Json
