/-!
Where and why JSON text cannot be read. A fault has a cause, the number of bytes that count as read,
and the path from the value being read down to the place; line and column are worked out from the
text when the fault is told.
-/
namespace Readings.Json

inductive Cause
  | endOfValue
  | endOfList
  | endOfObject
  | endOfString
  | expectedValue
  | expectedWord
  | expectedColon
  | expectedItemSeparator
  | expectedMemberSeparator
  | keyNotString
  | trailingComma
  | trailingCharacters
  | recursionLimit
  | invalidNumber
  | numberOutOfRange
  | invalidEscape
  | loneSurrogate
  | brokenSurrogatePair
  | invalidCodePoint
  | controlCharacter
deriving DecidableEq

/-- The wording of a cause. -/
def Cause.message : Cause → String
  | .endOfValue => "EOF while parsing a value"
  | .endOfList => "EOF while parsing a list"
  | .endOfObject => "EOF while parsing an object"
  | .endOfString => "EOF while parsing a string"
  | .expectedValue => "expected value"
  | .expectedWord => "expected ident"
  | .expectedColon => "expected `:`"
  | .expectedItemSeparator => "expected `,` or `]`"
  | .expectedMemberSeparator => "expected `,` or `\x7d`"
  | .keyNotString => "key must be a string"
  | .trailingComma => "trailing comma"
  | .trailingCharacters => "trailing characters"
  | .recursionLimit => "recursion limit exceeded"
  | .invalidNumber => "invalid number"
  | .numberOutOfRange => "number out of range"
  | .invalidEscape => "invalid escape"
  | .loneSurrogate => "lone leading surrogate in hex escape"
  | .brokenSurrogatePair => "unexpected end of hex escape"
  | .invalidCodePoint => "invalid unicode code point"
  | .controlCharacter => "control character (\\u0000-\\u001F) found while parsing a string"

/-- One step down into a value. -/
inductive Step
  | index (i : Nat)
  | key (key : String)
  /-- A key that could not be read. -/
  | unreadKey
deriving DecidableEq

/-- The text of a path: keys are joined by points, an index follows in brackets, and the path to the
value itself is a single point. -/
def pathText (steps : List Step) : String :=
  if steps.isEmpty then "." else
    steps.foldl (fun text step =>
      let point := if text.isEmpty then "" else "."
      match step with
      | .index i => text ++ "[" ++ toString i ++ "]"
      | .key key => text ++ point ++ key
      | .unreadKey => text ++ point ++ "?") ""

structure Fault where
  cause : Cause
  offset : Nat
  path : List Step
deriving DecidableEq

/-- The same fault, seen from one step further out. -/
def Fault.below (step : Step) (fault : Fault) : Fault :=
  ⟨fault.cause, fault.offset, step :: fault.path⟩

/-- The line (from one) and the column (bytes since the line began) after so many bytes. -/
def position (bytes : List UInt8) (offset : Nat) : Nat × Nat :=
  (bytes.take offset).foldl
    (fun place byte => if byte = 10 then (place.1 + 1, 0) else (place.1, place.2 + 1)) (1, 0)

/-- A message with the place it is about. -/
def located (bytes : List UInt8) (offset : Nat) (message : String) : String :=
  let (line, column) := position bytes offset
  message ++ " at line " ++ toString line ++ " column " ++ toString column

/-- The wording of a fault in the text it was found in. -/
def Fault.message (bytes : List UInt8) (fault : Fault) : String :=
  located bytes fault.offset fault.cause.message

end Readings.Json
