/-!
Coloured text for terminals. A style opens with an escape sequence and closes with a reset; a reset
inside the text would end the style early, so the style opens again after it.
-/
namespace Readings

/-- The styles a report uses. -/
inductive Style
  | red
  | green
  | yellow
  | bold
  | dim
  | boldRed
deriving DecidableEq

namespace Style

/-- The parameters of a style's escape sequence. -/
def code : Style → String
  | .red => "31"
  | .green => "32"
  | .yellow => "33"
  | .bold => "1"
  | .dim => "2"
  | .boldRed => "1;31"

/-- The sequence that opens a style. -/
def opening (style : Style) : String := "\x1b[" ++ style.code ++ "m"

/-- The sequence that ends every style. -/
def reset : String := "\x1b[0m"

/-- Opens a style again after each reset in a text. -/
def reopen (style : List Char) : List Char → List Char
  | [] => []
  | '\x1b' :: '[' :: '0' :: 'm' :: rest =>
    '\x1b' :: '[' :: '0' :: 'm' :: (style ++ reopen style rest)
  | c :: rest => c :: reopen style rest

/-- A text in a style, or the text alone where there is no colour. -/
def paint (colour : Bool) (style : Style) (text : String) : String :=
  if colour then
    style.opening ++ String.ofList (reopen style.opening.toList text.toList) ++ reset
  else text

end Style
end Readings
