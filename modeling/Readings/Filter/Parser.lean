import Readings.Filter.Token

/-!
Reading filter text. From loosest to tightest bind: the pipe, the comma, equality, addition,
negation, and steps into a value. Every function gives the filter it read and the tokens behind it;
`fuel` bounds how deep they call each other.
-/
namespace Readings.Filter

/-- A filter and the tokens behind it. -/
abbrev Parsed := Filter × List Token

/-- The filter that a name alone stands for. -/
def named (name : String) : Except Failure Filter :=
  match name with
  | "true" => .ok (.constant (.bool true))
  | "false" => .ok (.constant (.bool false))
  | "null" => .ok (.constant .null)
  | "empty" => .ok .empty
  | "nan" => .ok (.constant (.float .nan))
  | "infinite" => .ok (.constant (.float (.infinite false)))
  | "length" => .ok .length
  | _ => .error (.undefined name)

/-- Takes question marks, and tells whether there was one. -/
def takeOptional : List Token → Bool × List Token
  | .mark '?' :: rest => (true, (takeOptional rest).2)
  | tokens => (false, tokens)

/-- The tokens behind a mark that must come next. -/
def expect (c : Char) : List Token → Except Failure (List Token)
  | .mark found :: rest => if found = c then .ok rest else .error .malformed
  | _ => .error .malformed

/-- A step under a fixed key. -/
def underKey (of : Filter) (key : String) (isOptional : Bool) : Filter :=
  .part of (.constant (.string key)) isOptional

mutual
/-- Filters joined by pipes; `commas` tells whether commas may join them too. -/
def pipeline : Nat → Bool → List Token → Except Failure Parsed
  | 0, _, _ => .error .malformed
  | fuel + 1, commas, tokens => do
    let (first, behind) ← equality fuel tokens
    let (first, behind) ← if commas then moreCommas fuel first behind else .ok (first, behind)
    match behind with
    | .mark '|' :: rest =>
      let (second, behind) ← pipeline fuel commas rest
      .ok (.pipe first second, behind)
    | _ => .ok (first, behind)

def moreCommas : Nat → Filter → List Token → Except Failure Parsed
  | 0, _, _ => .error .malformed
  | fuel + 1, first, tokens =>
    match tokens with
    | .mark ',' :: rest => do
      let (second, behind) ← equality fuel rest
      moreCommas fuel (.both first second) behind
    | _ => .ok (first, tokens)

def equality : Nat → List Token → Except Failure Parsed
  | 0, _ => .error .malformed
  | fuel + 1, tokens => do
    let (left, behind) ← negation fuel tokens
    let (left, behind) ← moreTerms fuel left behind
    match behind with
    | .doubleEqual :: rest =>
      let (right, behind) ← negation fuel rest
      let (right, behind) ← moreTerms fuel right behind
      .ok (.equal left right, behind)
    | _ => .ok (left, behind)

def moreTerms : Nat → Filter → List Token → Except Failure Parsed
  | 0, _, _ => .error .malformed
  | fuel + 1, left, tokens =>
    match tokens with
    | .mark '+' :: rest => do
      let (right, behind) ← negation fuel rest
      moreTerms fuel (.add left right) behind
    | _ => .ok (left, tokens)

def negation : Nat → List Token → Except Failure Parsed
  | 0, _ => .error .malformed
  | fuel + 1, tokens =>
    match tokens with
    | .mark '-' :: rest => do
      let (inner, behind) ← negation fuel rest
      .ok (.negate inner, behind)
    | _ => do
      let (atom, behind) ← atom fuel tokens
      steps fuel atom behind

/-- What stands without an operator. -/
def atom : Nat → List Token → Except Failure Parsed
  | 0, _ => .error .malformed
  | fuel + 1, tokens =>
    match tokens with
    | .dot :: .literal (.string key) :: rest =>
      let (isOptional, behind) := takeOptional rest
      .ok (underKey .input key isOptional, behind)
    | .dot :: rest => .ok (.input, rest)
    | .field name :: rest =>
      let (isOptional, behind) := takeOptional rest
      .ok (underKey .input name isOptional, behind)
    | .literal value :: rest => .ok (.constant value, rest)
    | .word "select" :: .mark '(' :: rest => do
      let (condition, behind) ← pipeline fuel true rest
      .ok (.select condition, ← expect ')' behind)
    | .word name :: rest => do .ok (← named name, rest)
    | .mark '(' :: rest => do
      let (inner, behind) ← pipeline fuel true rest
      .ok (inner, ← expect ')' behind)
    | .mark '[' :: .mark ']' :: rest => .ok (.collect .empty, rest)
    | .mark '[' :: rest => do
      let (inner, behind) ← pipeline fuel true rest
      .ok (.collect inner, ← expect ']' behind)
    | .mark '\x7b' :: .mark '\x7d' :: rest => .ok (.build [], rest)
    | .mark '\x7b' :: rest => do
      let (members, behind) ← members fuel rest
      .ok (.build members, behind)
    | _ => .error .malformed

/-- Steps into the value before them. -/
def steps : Nat → Filter → List Token → Except Failure Parsed
  | 0, _, _ => .error .malformed
  | fuel + 1, whole, tokens =>
    match tokens with
    | .field name :: rest =>
      let (isOptional, behind) := takeOptional rest
      steps fuel (underKey whole name isOptional) behind
    | .dot :: .literal (.string key) :: rest =>
      let (isOptional, behind) := takeOptional rest
      steps fuel (underKey whole key isOptional) behind
    | .dot :: .mark '[' :: rest => steps fuel whole (.mark '[' :: rest)
    | .mark '[' :: .mark ']' :: rest =>
      let (isOptional, behind) := takeOptional rest
      steps fuel (.parts whole isOptional) behind
    | .mark '[' :: rest => do
      let (key, behind) ← pipeline fuel true rest
      let (isOptional, behind) := takeOptional (← expect ']' behind)
      steps fuel (.part whole key isOptional) behind
    | _ => .ok (whole, tokens)

/-- The members of an object up to its closing brace. A name alone takes the part of the input under
that name. -/
def members : Nat → List Token → Except Failure (List (String × Filter) × List Token)
  | 0, _ => .error .malformed
  | fuel + 1, tokens => do
    let (key, behind) ← match tokens with
      | .word name :: rest => .ok (name, rest)
      | .literal (.string name) :: rest => .ok (name, rest)
      | _ => .error .malformed
    let (value, behind) ← match behind with
      | .mark ':' :: rest => pipeline fuel false rest
      | _ => .ok (underKey .input key false, behind)
    match behind with
    | .mark '\x7d' :: rest => .ok ([(key, value)], rest)
    | .mark ',' :: rest =>
      let (more, behind) ← members fuel rest
      .ok ((key, value) :: more, behind)
    | _ => .error .malformed
end

/-- The filter that a text spells. -/
def parse (text : String) : Except Failure Filter := do
  let tokens ← tokens text
  let (filter, behind) ← pipeline (8 * tokens.length + 8) true tokens
  if behind.isEmpty then .ok filter else .error .malformed

/-- The data an output is read back as; a number that has no JSON form comes back as null. -/
def reread (json : Json) : Except Failure Json :=
  match Json.parse json.compact with
  | .ok read => .ok read
  | .error _ => .error (.inapplicable "write the output")

/-- Applies the filter that a text spells. Every output is written as JSON and read back. -/
def run (text : String) (json : Json) : Except Failure (List Json) := do
  (← (← parse text).apply json).mapM reread

end Readings.Filter
