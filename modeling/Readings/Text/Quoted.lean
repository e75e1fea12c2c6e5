import Readings.Text.Hidden

/-!
Quoted text. JSON escapes quotes and backslashes, and characters below the blank by letter where a
letter exists and by four lower-case hexadecimal digits otherwise; everything else stands for
itself. Text quoted for people gives fewer controls a letter and writes every character that would
not show by its code point in hexadecimal.
-/
namespace Readings.Text

/-! ## In JSON -/

/-- One hexadecimal digit in lower case. -/
def hexDigit (n : Nat) : Char := Nat.digitChar (n % 16)

/-- How one character is written between quotes. -/
def quotedChar (c : Char) : List Char :=
  if c = '"' then ['\\', '"']
  else if c = '\\' then ['\\', '\\']
  else if c.toNat = 8 then ['\\', 'b']
  else if c.toNat = 9 then ['\\', 't']
  else if c.toNat = 10 then ['\\', 'n']
  else if c.toNat = 12 then ['\\', 'f']
  else if c.toNat = 13 then ['\\', 'r']
  else if c.toNat < 32 then ['\\', 'u', '0', '0', hexDigit (c.toNat / 16), hexDigit c.toNat]
  else [c]

/-- The text between quotes. -/
def quoted (text : String) : String :=
  String.ofList ('"' :: (text.toList.flatMap quotedChar ++ ['"']))

/-! ## For people -/

/-- How one character is written. A single quote is escaped only where `single` asks for it. -/
def escapedChar (single : Bool) (c : Char) : List Char :=
  if c.toNat = 0 then ['\\', '0']
  else if c = '\t' then ['\\', 't']
  else if c = '\r' then ['\\', 'r']
  else if c = '\n' then ['\\', 'n']
  else if c = '"' then ['\\', '"']
  else if c = '\\' then ['\\', '\\']
  else if c = '\'' then (if single then ['\\', '\''] else ['\''])
  else if isHidden c then ['\\', 'u', '\x7b'] ++ Nat.toDigits 16 c.toNat ++ ['\x7d']
  else [c]

/-- The text between double quotes. -/
def escaped (single : Bool) (text : String) : String :=
  String.ofList ('"' :: (text.toList.flatMap (escapedChar single) ++ ['"']))

end Readings.Text
