import Readings.Json.Basic
import Readings.Json.Cursor

/-!
Numbers in JSON text. An integer that fits a 64-bit word, signed or unsigned, is exact. Any other
number is a double computed in two roundings: as many digits as fit a word make a significand, which
is scaled by a power of ten. The result can differ from the nearest double in the last place.
-/
namespace Readings.Json

/-- The largest exponent that can be written. -/
def exponentLimit : Nat := 1 <<< 31 - 1

/-- The largest power of ten among the doubles. -/
def largestPower : Nat := 308

/-- The double nearest to a power of ten. -/
def powerOfTen (exponent : Nat) : Double := .ofScientific false 1 exponent

/-- Divides by `10 ^ 308` so many times, stopping at zero. -/
def shrink : Nat → Double → Double
  | 0, x => x
  | times + 1, x => if x.isZero then x else shrink times (x.div (powerOfTen largestPower))

/-- The double `significand * 10 ^ exponent`, scaled one power at a time; none when it overflows. -/
def scaled (significand : Nat) (exponent : Int) : Option Double :=
  let start := Double.ofNat significand
  match exponent with
  | .ofNat e =>
    if e ≤ largestPower then
      let product := start.mul (powerOfTen e)
      if product.isInfinite then none else some product
    else if start.isZero then some start
    else none
  | .negSucc e =>
    let times := e / largestPower
    some ((shrink times start).div (powerOfTen (e + 1 - times * largestPower)))

/-- The digits in front of a text. -/
def digitRun : List UInt8 → List Nat
  | byte :: rest => if isDigit byte then (byte.toNat - 48) :: digitRun rest else []
  | [] => []

/-- Digits taken into a significand while it stays a word, with how many were left over. -/
def gather (significand : Nat) : List Nat → Nat × Nat
  | [] => (significand, 0)
  | digit :: rest =>
    if significand * 10 + digit < wordLimit then gather (significand * 10 + digit) rest
    else (significand, rest.length + 1)

/-- The sign applied to a double. -/
def withSign (negative : Bool) (x : Double) : Json := .float (if negative then x.neg else x)

/-- A number with its scale; `cursor` stands behind it. -/
def finishFloat (negative : Bool) (significand : Nat) (exponent : Int) (cursor : Cursor) :
    Except Fault (Read Json) :=
  match scaled significand exponent with
  | some x => .ok (withSign negative x, cursor)
  | none => cursor.fail .numberOutOfRange

/-- The value of exponent digits, or how many were read when it outgrew its limit. -/
def exponentValue (exponent read : Nat) : List Nat → Except Nat Nat
  | [] => .ok exponent
  | digit :: rest =>
    if exponent * 10 + digit ≤ exponentLimit then
      exponentValue (exponent * 10 + digit) (read + 1) rest
    else .error (read + 1)

/-- The exponent of a number; `cursor` stands behind the letter that announces it. -/
def readExponent (negative : Bool) (significand : Nat) (start : Int) (cursor : Cursor) :
    Except Fault (Read Json) :=
  let (down, cursor) := match cursor.rest with
    | byte :: _ => if byte = 43 then (false, cursor.advance 1)
      else if byte = 45 then (true, cursor.advance 1) else (false, cursor)
    | [] => (false, cursor)
  match cursor.rest with
  | [] => cursor.fail .endOfValue
  | byte :: _ =>
    if isDigit byte then
      let digits := digitRun cursor.rest
      let behind := cursor.advance digits.length
      match exponentValue 0 0 digits with
      | .ok e => finishFloat negative significand (if down then start - e else start + e) behind
      | .error read =>
        if significand ≠ 0 ∧ ¬ down then (cursor.advance read).fail .numberOutOfRange
        else .ok (withSign negative .zero, behind)
    else (cursor.advance 1).fail .invalidNumber

/-- What may follow the digits of a number that is not an integer: an exponent or nothing. -/
def readScale (negative : Bool) (significand : Nat) (exponent : Int) (cursor : Cursor) :
    Except Fault (Read Json) :=
  match cursor.rest with
  | byte :: _ =>
    if byte = 101 ∨ byte = 69 then readExponent negative significand exponent (cursor.advance 1)
    else finishFloat negative significand exponent cursor
  | [] => finishFloat negative significand exponent cursor

/-- The fraction of a number; `cursor` stands behind the point. Digits that no longer fit the
significand are dropped. -/
def readFraction (negative : Bool) (significand : Nat) (exponent : Int) (cursor : Cursor) :
    Except Fault (Read Json) :=
  let digits := digitRun cursor.rest
  if digits.isEmpty then
    cursor.failAhead (if cursor.rest.isEmpty then .endOfValue else .invalidNumber)
  else
    let (significand, dropped) := gather significand digits
    readScale negative significand (exponent - (digits.length - dropped : Nat))
      (cursor.advance digits.length)

/-- An integer that ended without a fraction or an exponent. Zero with a sign, and what is below the
signed words, are doubles. -/
def wordJson (negative : Bool) (n : Nat) : Json :=
  if ¬ negative then .integer n
  else if n = 0 ∨ signedLimit < n then withSign true (.ofNat n)
  else .integer (-n)

/-- A number; `cursor` stands behind its sign. -/
def readNumber (negative : Bool) (cursor : Cursor) : Except Fault (Read Json) :=
  match cursor.rest with
  | [] => cursor.fail .endOfValue
  | byte :: _ =>
    if ¬ isDigit byte then (cursor.advance 1).fail .invalidNumber
    else
      let digits := if byte = 48 then [0] else digitRun cursor.rest
      let behind := cursor.advance digits.length
      let (significand, excess) := gather 0 digits
      match behind.rest with
      | [] => if excess = 0 then .ok (wordJson negative significand, behind)
        else finishFloat negative significand excess behind
      | next :: _ =>
        if byte = 48 ∧ isDigit next then behind.failAhead .invalidNumber
        else if next = 46 then readFraction negative significand excess (behind.advance 1)
        else if next = 101 ∨ next = 69 then
          readExponent negative significand excess (behind.advance 1)
        else if excess = 0 then .ok (wordJson negative significand, behind)
        else finishFloat negative significand excess behind

end Readings.Json
