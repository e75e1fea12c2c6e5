import Readings.Text.Lines

/-!
File patterns. In one component of a path `?` stands for any character, `*` for any characters,
`[...]` for one of the characters or ranges listed and `[!...]` for any other; a component `**`
stands for any number of directories. Braces mean nothing special.
-/
namespace Readings.Files

/-- One part of a pattern. -/
inductive Token
  | char (c : Char)
  | anyChar
  | anyChars
  | anyDirectories
  /-- One character from inclusive ranges, or from outside them. -/
  | oneFrom (isNegated : Bool) (ranges : List (Char × Char))
deriving DecidableEq

/-- Why a text is no pattern. -/
inductive PatternFault
  | invalidRange
  | tooManyStars
  | recursionInComponent
deriving DecidableEq

def PatternFault.message : PatternFault → String
  | .invalidRange => "invalid range pattern"
  | .tooManyStars => "wildcards are either regular `*` or recursive `**`"
  | .recursionInComponent => "recursive wildcards must form a single path component"

/-- A fault at a position, counted in characters. -/
structure PatternError where
  position : Nat
  fault : PatternFault
deriving DecidableEq

def PatternError.message (error : PatternError) : String :=
  "Pattern syntax error near position " ++ toString error.position ++ ": " ++ error.fault.message

/-- The ranges that the inside of brackets lists. -/
def rangesOf : List Char → List (Char × Char)
  | first :: '-' :: last :: rest => (first, last) :: rangesOf rest
  | c :: rest => (c, c) :: rangesOf rest
  | [] => []

/-- The inside of brackets, and what follows the closing one. At least one character stands inside,
so a bracket that comes first does not close. -/
def bracketSpan : List Char → Option (List Char × List Char)
  | first :: rest =>
    let inside := rest.takeWhile (· ≠ ']')
    match rest.drop inside.length with
    | _ :: behind => some (first :: inside, behind)
    | [] => none
  | [] => none

/-- The tokens of characters that start at a position behind `before`. Every step takes a character,
so their number bounds the fuel. -/
def tokensWithin : Nat → Nat → Option Char → List Char → Except PatternError (List Token)
  | 0, _, _, _ => .ok []
  | fuel + 1, position, before, chars =>
    match chars with
    | [] => .ok []
    | '?' :: rest => do .ok (.anyChar :: (← tokensWithin fuel (position + 1) (some '?') rest))
    | '[' :: '!' :: rest =>
      match bracketSpan rest with
      | some (inside, behind) => do
        let taken := inside.length + 3
        .ok (.oneFrom true (rangesOf inside) ::
          (← tokensWithin fuel (position + taken) (some ']') behind))
      | none => .error ⟨position, .invalidRange⟩
    | '[' :: rest =>
      match bracketSpan rest with
      | some (inside, behind) => do
        let taken := inside.length + 2
        .ok (.oneFrom false (rangesOf inside) ::
          (← tokensWithin fuel (position + taken) (some ']') behind))
      | none => .error ⟨position, .invalidRange⟩
    | '*' :: rest =>
      let stars := (rest.takeWhile (· = '*')).length + 1
      let behind := rest.drop (stars - 1)
      if stars = 1 then do
        .ok (.anyChars :: (← tokensWithin fuel (position + 1) (some '*') behind))
      else if 2 < stars then .error ⟨position + 2, .tooManyStars⟩
      else if before.isSome && before ≠ some '/' then
        .error ⟨position - 1, .recursionInComponent⟩
      else
        match behind with
        | [] => .ok [.anyDirectories]
        | '/' :: rest => do
          .ok (.anyDirectories :: (← tokensWithin fuel (position + 3) (some '/') rest))
        | _ => .error ⟨position + 2, .recursionInComponent⟩
    | c :: rest => do .ok (.char c :: (← tokensWithin fuel (position + 1) (some c) rest))

/-- The tokens of a pattern text. -/
def tokens (text : String) : Except PatternError (List Token) :=
  tokensWithin text.length 0 none text.toList

/-- Whether a character is one that a bracket token admits. -/
def admits (isNegated : Bool) (ranges : List (Char × Char)) (c : Char) : Bool :=
  (ranges.any fun (first, last) => first ≤ c && c ≤ last) != isNegated

/-- What is left of characters after any number of them. -/
def suffixes : List Char → List (List Char)
  | [] => [[]]
  | c :: rest => (c :: rest) :: suffixes rest

/-- Whether a name has the form of the tokens. -/
def fits : List Token → List Char → Bool
  | [], name => name.isEmpty
  | .char c :: rest, name =>
    match name with
    | d :: more => c == d && fits rest more
    | [] => false
  | .anyChar :: rest, name =>
    match name with
    | _ :: more => fits rest more
    | [] => false
  | .oneFrom isNegated ranges :: rest, name =>
    match name with
    | d :: more => admits isNegated ranges d && fits rest more
    | [] => false
  | .anyChars :: rest, name => (suffixes name).any (fits rest)
  | .anyDirectories :: rest, name => (suffixes name).any (fits rest)

/-- One component of a pattern. -/
structure Component where
  tokens : List Token
deriving DecidableEq

namespace Component

/-- Whether the component stands for any number of directories. -/
def isRecursive (component : Component) : Bool := component.tokens.contains .anyDirectories

/-- The characters of tokens that all stand for themselves. -/
def plainChars : List Token → Option (List Char)
  | [] => some []
  | .char c :: rest => (plainChars rest).map (c :: ·)
  | _ :: _ => none

/-- The name that a component without special characters is. -/
def name? (component : Component) : Option String := (plainChars component.tokens).map String.ofList

/-- Whether a component begins with a point itself. -/
def beginsWithPoint (component : Component) : Bool := component.tokens.head? == some (.char '.')

def matchesName (component : Component) (name : String) : Bool := fits component.tokens name.toList

end Component

/-- A pattern: the components of a path, from the root or from the working directory. -/
structure Pattern where
  isAbsolute : Bool
  components : List Component
  /-- Whether only directories count, because the text ends in a slash. -/
  onlyDirectories : Bool

/-- The parts of a path text between slashes; a slash at the end opens no further part. -/
def partsOf (chars : List Char) : List (List Char) :=
  let parts := Text.splitChars '/' chars
  if parts.getLast? = some [] then parts.dropLast else parts

/-- The pattern that a text spells. The whole text is checked before its components are. -/
def Pattern.ofText (text : String) : Except PatternError Pattern := do
  let _ ← Files.tokens text
  let isAbsolute := text.toList.head? = some '/'
  let parts := partsOf (if isAbsolute then text.toList.drop 1 else text.toList)
  let components ← parts.mapM fun part => do .ok ⟨← Files.tokens (String.ofList part)⟩
  .ok ⟨isAbsolute, components, text.toList.getLast? = some '/'⟩

/-- Whether a text has characters that make it a pattern rather than a path. -/
def isPattern (text : String) : Bool :=
  text.toList.any fun c => c = '*' || c = '?' || c = '[' || c = '\x7b'

end Readings.Files
