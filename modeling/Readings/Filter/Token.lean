import Readings.Filter.Basic
import Readings.Json.Reader

/-!
The words and marks of filter text.
-/
namespace Readings.Filter

inductive Token
  /-- A point that no name follows. -/
  | dot
  /-- A point and the name behind it. -/
  | field (name : String)
  | word (name : String)
  | literal (value : Json)
  | mark (c : Char)
  | doubleEqual
deriving Inhabited

/-- Whether a character can begin a name. -/
def beginsName (c : Char) : Bool := c.isAlpha || c == '_'

/-- Whether a character can continue a name. -/
def continuesName (c : Char) : Bool := c.isAlphanum || c == '_'

/-- The characters of a text literal behind its opening quote, up to and with the closing one, and
what follows. -/
def literalSpan : List Char → List Char × List Char
  | '\\' :: c :: rest =>
    let (inside, behind) := literalSpan rest
    ('\\' :: c :: inside, behind)
  | '"' :: rest => (['"'], rest)
  | c :: rest =>
    let (inside, behind) := literalSpan rest
    (c :: inside, behind)
  | [] => ([], [])

/-- The digits in front, and what follows. -/
def digitSpan (chars : List Char) : List Char × List Char := chars.span Char.isDigit

/-- The characters of a number and what follows. -/
def numberSpan (chars : List Char) : List Char × List Char :=
  let (whole, behind) := digitSpan chars
  let (fraction, behind) := match behind with
    | '.' :: rest =>
      let (digits, rest) := digitSpan rest
      if digits.isEmpty then ([], behind) else ('.' :: digits, rest)
    | _ => ([], behind)
  let (exponent, behind) := match behind with
    | letter :: rest =>
      if letter = 'e' ∨ letter = 'E' then
        let (sign, rest) := match rest with
          | '+' :: rest => (['+'], rest)
          | '-' :: rest => (['-'], rest)
          | _ => ([], rest)
        let (digits, rest) := digitSpan rest
        if digits.isEmpty then ([], behind) else (letter :: (sign ++ digits), rest)
      else ([], behind)
    | [] => ([], behind)
  (whole ++ fraction ++ exponent, behind)

/-- The JSON value of a literal's characters. -/
def literalOf (chars : List Char) : Except Failure Token :=
  match Json.parse (String.ofList chars) with
  | .ok value => .ok (.literal value)
  | .error _ => .error .malformed

/-- The tokens of characters. Every token takes a character, so their number bounds the fuel. -/
def tokensWithin : Nat → List Char → Except Failure (List Token)
  | 0, chars => if chars.isEmpty then .ok [] else .error .malformed
  | fuel + 1, chars =>
    match chars with
    | [] => .ok []
    | c :: rest =>
      if c = ' ' ∨ c = '\t' ∨ c = '\n' ∨ c = '\r' then tokensWithin fuel rest
      else if c = '.' then
        match rest with
        | next :: _ =>
          if beginsName next then do
            let (name, behind) := rest.span continuesName
            .ok (.field (String.ofList name) :: (← tokensWithin fuel behind))
          else if next = '.' then .error .malformed
          else do .ok (.dot :: (← tokensWithin fuel rest))
        | [] => .ok [.dot]
      else if beginsName c then do
        let (name, behind) := chars.span continuesName
        .ok (.word (String.ofList name) :: (← tokensWithin fuel behind))
      else if c.isDigit then do
        let (number, behind) := numberSpan chars
        .ok ((← literalOf number) :: (← tokensWithin fuel behind))
      else if c = '"' then do
        let (inside, behind) := literalSpan rest
        .ok ((← literalOf ('"' :: inside)) :: (← tokensWithin fuel behind))
      else if c = '=' then
        match rest with
        | '=' :: rest => do .ok (.doubleEqual :: (← tokensWithin fuel rest))
        | _ => .error .malformed
      else if c ∈ "|,+-?:()[]\x7b\x7d".toList then do
        .ok (.mark c :: (← tokensWithin fuel rest))
      else .error .malformed

/-- The tokens of a text. -/
def tokens (text : String) : Except Failure (List Token) := tokensWithin text.length text.toList

end Readings.Filter
