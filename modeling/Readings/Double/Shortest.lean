import Readings.Double.Basic

/-!
The shortest decimal that reads back as a given double. Of the decimals with the fewest digits the
one nearest to the double is taken, and between two equally near ones the one whose last digit is
even.
-/
namespace Readings

/-- The positive decimal `digits * 10 ^ scale`. -/
structure Decimal where
  digits : Nat
  scale : Int
deriving DecidableEq

namespace Decimal

/-- How many decimal digits a natural number is written with. -/
def digitCount (n : Nat) : Nat := (Nat.toDigits 10 n).length

/-- Drops zeros from the end of the digits; `fuel` bounds how many. -/
def trim : Nat → Decimal → Decimal
  | 0, decimal => decimal
  | fuel + 1, decimal =>
    if decimal.digits % 10 = 0 then trim fuel ⟨decimal.digits / 10, decimal.scale + 1⟩ else decimal

/-- The exponent of the first digit of `units * 2 ^ (-1074)`, for a positive count of units. -/
def leadingExponent (units : Nat) : Int :=
  let whole := units / Double.unitsPerOne
  if whole = 0 then -(digitCount (Double.unitsPerOne / units) : Int) else digitCount whole - 1

end Decimal

namespace Magnitude

/-- The distance in units down to the next smaller double: half a grain at a power of two. -/
def gapBelow (units : Nat) : Nat :=
  if units = 1 <<< units.log2 ∧ 52 < units.log2 then grain units / 2 else grain units

/-- Whether a decimal rounds to the double of `units` units. The midpoints to the neighbours belong
to the double exactly when its significand is even. All quantities are four times their size, so
that half a gap is a whole number. -/
def readsBackTo (units : Nat) (decimal : Decimal) : Bool :=
  let even := units / grain units % 2 = 0
  let low := 4 * units - 2 * gapBelow units
  let high := 4 * units + 2 * grain units
  let (num, den) := match decimal.scale with
    | .ofNat e => (4 * decimal.digits * Nat.pow 10 e * Double.unitsPerOne, 1)
    | .negSucc e => (4 * decimal.digits * Double.unitsPerOne, Nat.pow 10 (e + 1))
  if even then low * den ≤ num && num ≤ high * den else low * den < num && num < high * den

/-- The two neighbours of a double on the decimal grid of a scale, each with whether it reads back,
and which of them is nearer (`.eq` on a tie). -/
def neighbours (units : Nat) (scale : Int) : Decimal × Decimal × Ordering :=
  let (num, den) := match scale with
    | .ofNat e => (units, Nat.pow 10 e * Double.unitsPerOne)
    | .negSucc e => (units * Nat.pow 10 (e + 1), Double.unitsPerOne)
  let lower := num / den
  (⟨lower, scale⟩, ⟨lower + 1, scale⟩, compare (2 * (num % den)) den)

/-- The decimal with `count` digits nearest to the double, if one of them reads back. -/
def shortestOf (units : Nat) (leading : Int) (count : Nat) : Option Decimal :=
  let (lower, upper, nearer) := neighbours units (leading - (count - 1 : Nat))
  match readsBackTo units lower && lower.digits != 0, readsBackTo units upper with
  | true, true =>
    match nearer with
    | .lt => some lower
    | .gt => some upper
    | .eq => some (if lower.digits % 2 = 0 then lower else upper)
  | true, false => some lower
  | false, true => some upper
  | false, false => none

/-- The shortest decimal of a positive magnitude. Seventeen digits always suffice, so the exact
expansion at the end is never needed. -/
def shortest (magnitude : Magnitude) : Decimal :=
  let leading := Decimal.leadingExponent magnitude.units
  let found := ((List.range 17).findSome? fun i => shortestOf magnitude.units leading (i + 1)).getD
    ⟨magnitude.units * Nat.pow 5 1074, -1074⟩
  found.trim (Decimal.digitCount found.digits)

end Magnitude
end Readings
