/-!
Text in parts and in lines. A separator stands between two parts, so that there is always one more
part than there are separators. A line ends at a line feed, or at a carriage return and a line feed;
an ending at the very end of the text opens no further line. Blanks are the characters with
Unicode's White_Space property.
-/
namespace Readings.Text

/-! ## Parts -/

/-- The parts between separators; there is always one more part than there are separators. -/
def splitChars (separator : Char) : List Char → List (List Char)
  | [] => [[]]
  | c :: rest =>
    if c = separator then [] :: splitChars separator rest
    else
      match splitChars separator rest with
      | [] => [[c]]
      | part :: parts => (c :: part) :: parts

/-- The parts of a text between separators. -/
def split (separator : Char) (text : String) : List String :=
  (splitChars separator text.toList).map String.ofList

/-! ## Lines -/

/-- The characters with the White_Space property. -/
def isWhite (c : Char) : Bool :=
  let point := c.toNat
  (9 ≤ point && point ≤ 13) || point == 0x20 || point == 0x85 || point == 0xA0 || point == 0x1680
    || (0x2000 ≤ point && point ≤ 0x200A) || point == 0x2028 || point == 0x2029 || point == 0x202F
    || point == 0x205F || point == 0x3000

/-- Whether a text holds nothing but white space. -/
def isBlank (text : String) : Bool := text.toList.all isWhite

/-- A line without the carriage return at its end; the line is given in reverse. -/
def stripReturn : List Char → List Char
  | '\r' :: rest => rest
  | line => line

/-- The lines of characters, after the line begun so far in reverse. -/
def linesFrom (begun : List Char) : List Char → List String
  | [] => if begun.isEmpty then [] else [String.ofList begun.reverse]
  | '\n' :: rest => String.ofList (stripReturn begun).reverse :: linesFrom [] rest
  | c :: rest => linesFrom (c :: begun) rest

/-- The lines of a text. -/
def lines (text : String) : List String := linesFrom [] text.toList

end Readings.Text
