import Readings.Json.Number
import Readings.Text.Utf8

/-!
The JSON reader. Containers may nest 127 deep. A fault carries the path to the place, so that
readers of whole documents can tell where in the data they stopped. Strings are checked for
well-formed encoding when their closing quote is met.
-/
namespace Readings.Json

/-- How many containers, counted from outside, may not be entered any more. -/
def nestingLimit : Nat := 128

/-! ## Strings -/

/-- The byte that an escape letter stands for. -/
def escapeByte? (letter : UInt8) : Option UInt8 :=
  match Char.ofNat letter.toNat with
  | '"' => some 34
  | '\\' => some 92
  | '/' => some 47
  | 'b' => some 8
  | 'f' => some 12
  | 'n' => some 10
  | 'r' => some 13
  | 't' => some 9
  | _ => none

/-- The value of a hexadecimal digit. -/
def hexValue? (byte : UInt8) : Option Nat :=
  if isDigit byte then some (byte.toNat - 48)
  else if 97 ≤ byte && byte ≤ 102 then some (byte.toNat - 87)
  else if 65 ≤ byte && byte ≤ 70 then some (byte.toNat - 55)
  else none

/-- The number that four hexadecimal digits spell. -/
def hexFour? (a b c d : UInt8) : Option Nat := do
  some (4096 * (← hexValue? a) + 256 * (← hexValue? b) + 16 * (← hexValue? c) + (← hexValue? d))

/-- A code unit that opens a surrogate pair. -/
def isLeading (unit : Nat) : Bool := 0xD800 ≤ unit && unit ≤ 0xDBFF

/-- A code unit that closes a surrogate pair. -/
def isTrailing (unit : Nat) : Bool := 0xDC00 ≤ unit && unit ≤ 0xDFFF

/-- The bytes of a code point, in reverse. -/
def reversedBytes (point : Nat) : List UInt8 := (String.utf8EncodeChar (Char.ofNat point)).reverse

/-- The bytes of a string up to its closing quote, escapes resolved; `done` holds those so far in
reverse. -/
def stringBytes (done : List UInt8) (offset : Nat) : List UInt8 → Except Fault (Read (List UInt8))
  | [] => .error ⟨.endOfString, offset, []⟩
  | byte :: rest =>
    if byte = 34 then .ok (done.reverse, ⟨rest, offset + 1⟩)
    else if byte < 32 then .error ⟨.controlCharacter, offset + 1, []⟩
    else if byte ≠ 92 then stringBytes (byte :: done) (offset + 1) rest
    else match rest with
      | [] => .error ⟨.endOfString, offset + 1, []⟩
      | letter :: rest =>
        match escapeByte? letter with
        | some plain => stringBytes (plain :: done) (offset + 2) rest
        | none =>
          if letter ≠ 117 then .error ⟨.invalidEscape, offset + 2, []⟩
          else match rest with
            | a :: b :: c :: d :: rest =>
              match hexFour? a b c d with
              | none => .error ⟨.invalidEscape, offset + 6, []⟩
              | some unit =>
                if isTrailing unit then .error ⟨.loneSurrogate, offset + 6, []⟩
                else if ¬ isLeading unit then
                  stringBytes (reversedBytes unit ++ done) (offset + 6) rest
                else match rest with
                  | [] => .error ⟨.endOfString, offset + 6, []⟩
                  | slash :: rest =>
                    if slash ≠ 92 then .error ⟨.brokenSurrogatePair, offset + 7, []⟩
                    else match rest with
                      | [] => .error ⟨.endOfString, offset + 7, []⟩
                      | letter :: rest =>
                        if letter ≠ 117 then .error ⟨.brokenSurrogatePair, offset + 8, []⟩
                        else match rest with
                          | a :: b :: c :: d :: rest =>
                            match hexFour? a b c d with
                            | none => .error ⟨.invalidEscape, offset + 12, []⟩
                            | some second =>
                              if isTrailing second then
                                stringBytes
                                  (reversedBytes
                                    ((unit - 0xD800) * 1024 + (second - 0xDC00) + 0x10000) ++ done)
                                  (offset + 12) rest
                              else .error ⟨.loneSurrogate, offset + 12, []⟩
                          | short => .error ⟨.endOfString, offset + 8 + short.length, []⟩
            | short => .error ⟨.endOfString, offset + 2 + short.length, []⟩

/-- A string; `cursor` stands behind its opening quote. Ill-formed encoding is told at the first bad
byte. -/
def readString (cursor : Cursor) : Except Fault (Read String) := do
  let (bytes, behind) ← stringBytes [] cursor.offset cursor.rest
  match Text.Utf8.decode bytes with
  | .ok text => .ok (text, behind)
  | .error _ =>
    match Text.Utf8.decode (cursor.rest.take (behind.offset - cursor.offset - 1)) with
    | .ok _ => .error ⟨.invalidCodePoint, behind.offset, []⟩
    | .error bad => .error ⟨.invalidCodePoint, cursor.offset + bad + 1, []⟩

/-! ## Containers -/

/-- Whether another item of an array follows, with the cursor at it; `isFirst` before any item. -/
def nextItem (isFirst : Bool) (cursor : Cursor) : Except Fault (Read Bool) :=
  let cursor := cursor.skipBlanks
  match cursor.rest with
  | [] => cursor.failAhead .endOfList
  | byte :: _ =>
    if byte = 93 then .ok (false, cursor)
    else if isFirst then .ok (true, cursor)
    else if byte = 44 then
      let cursor := (cursor.advance 1).skipBlanks
      match cursor.rest with
      | [] => cursor.failAhead .endOfValue
      | byte :: _ => if byte = 93 then cursor.failAhead .trailingComma else .ok (true, cursor)
    else cursor.failAhead .expectedItemSeparator

/-- Whether another member of an object follows, with the cursor at its key. -/
def nextKey (isFirst : Bool) (cursor : Cursor) : Except Fault (Read Bool) :=
  let cursor := cursor.skipBlanks
  match cursor.rest with
  | [] => cursor.failAhead .endOfObject
  | byte :: _ =>
    if byte = 125 then .ok (false, cursor)
    else if isFirst then
      if byte = 34 then .ok (true, cursor) else cursor.failAhead .keyNotString
    else if byte = 44 then
      let cursor := (cursor.advance 1).skipBlanks
      match cursor.rest with
      | [] => cursor.failAhead .endOfValue
      | byte :: _ =>
        if byte = 34 then .ok (true, cursor)
        else if byte = 125 then cursor.failAhead .trailingComma
        else cursor.failAhead .keyNotString
    else cursor.failAhead .expectedMemberSeparator

/-- A key; `cursor` stands at its opening quote. -/
def readKey (cursor : Cursor) : Except Fault (Read String) := readString (cursor.advance 1)

/-- The colon behind a key. -/
def readColon (cursor : Cursor) : Except Fault (Read Unit) :=
  let cursor := cursor.skipBlanks
  match cursor.rest with
  | [] => cursor.failAhead .endOfObject
  | byte :: _ => if byte = 58 then .ok ((), cursor.advance 1) else cursor.failAhead .expectedColon

/-- The close of an array whose items have been read. -/
def closeArray (cursor : Cursor) : Except Fault (Read Unit) :=
  let cursor := cursor.skipBlanks
  match cursor.rest with
  | [] => cursor.failAhead .endOfList
  | byte :: _ =>
    if byte = 93 then .ok ((), cursor.advance 1)
    else if byte = 44 then
      let cursor := (cursor.advance 1).skipBlanks
      cursor.failAhead (if cursor.rest.head? = some 93 then .trailingComma else .trailingCharacters)
    else cursor.failAhead .trailingCharacters

/-- A fault seen from inside one step. -/
def within {α : Type} (step : Step) (reading : Except Fault (Read α)) :
    Except Fault (Read α) :=
  reading.mapError (·.below step)

/-- The items of an array, each read by `item`, up to the closing bracket. Every item takes a byte,
so the length of what is left bounds their number. -/
def readItems (item : Cursor → Except Fault (Read Json)) :
    Nat → Nat → Cursor → Except Fault (Read (List Json))
  | 0, _, cursor => cursor.failAhead .endOfList
  | fuel + 1, index, cursor => do
    let (more, cursor) ← nextItem (index == 0) cursor
    if more then
      let (value, cursor) ← within (.index index) (item cursor)
      let (rest, cursor) ← readItems item fuel (index + 1) cursor
      .ok (value :: rest, cursor)
    else .ok ([], cursor.advance 1)

/-- The members of an object, up to the closing brace. -/
def readMembers (item : Cursor → Except Fault (Read Json)) :
    Nat → Bool → Cursor → Except Fault (Read (List (String × Json)))
  | 0, _, cursor => cursor.failAhead .endOfObject
  | fuel + 1, isFirst, cursor => do
    let (more, cursor) ← within .unreadKey (nextKey isFirst cursor)
    if more then
      let (key, cursor) ← within .unreadKey (readKey cursor)
      let ((), cursor) ← readColon cursor
      let (value, cursor) ← within (.key key) (item cursor)
      let (rest, cursor) ← readMembers item fuel false cursor
      .ok ((key, value) :: rest, cursor)
    else .ok ([], cursor.advance 1)

/-! ## Values -/

/-- The letters left of a word that stands for a value. -/
def readWord (value : Json) : List UInt8 → Cursor → Except Fault (Read Json)
  | [], cursor => .ok (value, cursor)
  | letter :: letters, cursor =>
    match cursor.rest with
    | [] => cursor.fail .endOfValue
    | byte :: _ =>
      if byte = letter then readWord value letters (cursor.advance 1)
      else (cursor.advance 1).fail .expectedWord

/-- A scalar that starts with the byte at the cursor. -/
def readScalar (byte : UInt8) (cursor : Cursor) : Except Fault (Read Json) :=
  let behind := cursor.advance 1
  if byte = 110 then readWord .null [117, 108, 108] behind
  else if byte = 116 then readWord (.bool true) [114, 117, 101] behind
  else if byte = 102 then readWord (.bool false) [97, 108, 115, 101] behind
  else if byte = 45 then readNumber true behind
  else if isDigit byte then readNumber false cursor
  else if byte = 34 then do
    let (text, cursor) ← readString behind
    .ok (.string text, cursor)
  else cursor.failAhead .expectedValue

/-- A value inside which containers may nest one less than `levels` deep. -/
def readValue : Nat → Cursor → Except Fault (Read Json)
  | 0, cursor => cursor.failAhead .recursionLimit
  | levels + 1, cursor =>
    let cursor := cursor.skipBlanks
    match cursor.rest with
    | [] => cursor.failAhead .endOfValue
    | byte :: _ =>
      if byte = 91 then
        if levels = 0 then cursor.failAhead .recursionLimit
        else do
          let (items, cursor) ←
            readItems (readValue levels) cursor.rest.length 0 (cursor.advance 1)
          .ok (.array items, cursor)
      else if byte = 123 then
        if levels = 0 then cursor.failAhead .recursionLimit
        else do
          let (members, cursor) ←
            readMembers (readValue levels) cursor.rest.length true (cursor.advance 1)
          .ok (.object members, cursor)
      else readScalar byte cursor

/-- The one value that makes up a whole text; only blanks may follow it. -/
def readBytes (bytes : List UInt8) : Except Fault Json := do
  let (value, cursor) ← readValue nestingLimit (.start bytes)
  let cursor := cursor.skipBlanks
  if cursor.rest.isEmpty then .ok value else cursor.failAhead .trailingCharacters

/-- The data that a text spells, each key of an object once, or the wording of what is wrong. -/
def parse (text : String) : Except String Json :=
  let bytes := Text.Utf8.encode text
  match readBytes bytes with
  | .ok value => .ok value.settled
  | .error fault => .error (fault.message bytes)

end Readings.Json
