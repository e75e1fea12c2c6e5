/-!
Exact binary64 numbers. A finite double is a sign and a whole number of *units*, one unit being the
smallest positive double, `2 ^ (-1074)`. A count of units belongs to a double when it keeps 53
significant bits and stays below `2 ^ 2098`; each finite double then has one representation, and an
operation is exact arithmetic on units followed by one rounding.
-/
namespace Readings

/-- The natural number nearest to `num / den`; a half goes to the even neighbour. -/
def roundDiv (num den : Nat) : Nat :=
  let quotient := num / den
  let twice := 2 * (num % den)
  if den < twice ∨ (twice = den ∧ quotient % 2 = 1) then quotient + 1 else quotient

theorem roundDiv_le (num den : Nat) : roundDiv num den ≤ num / den + 1 := by
  unfold roundDiv
  dsimp only
  split <;> omega

/-- The gap, in units, between neighbouring doubles around `units`. -/
def grain (units : Nat) : Nat := 1 <<< (units.log2 - 52)

/-- The least power of two past the largest double, in units. -/
def overflow : Nat := 1 <<< 2098

/-- A count of units that some double has: 53 significant bits, and below the overflow threshold. -/
def Representable (units : Nat) : Prop := grain units ∣ units ∧ units < overflow

instance (units : Nat) : Decidable (Representable units) := by
  unfold Representable
  infer_instance

theorem representable_zero : Representable 0 := by
  decide +kernel

/-- A significand of at most 53 bits, or the power of two just above, lies on its own grid. -/
theorem grain_dvd_shifted (significand shift : Nat) (bound : significand ≤ 1 <<< 53) :
    grain (significand * 1 <<< shift) ∣ significand * 1 <<< shift := by
  unfold grain
  rw [Nat.one_shiftLeft] at bound
  rw [Nat.one_shiftLeft, Nat.one_shiftLeft]
  by_cases zero : significand = 0
  · subst zero
    simp
  rcases Nat.lt_or_eq_of_le bound with below | rfl
  · have positive := Nat.mul_ne_zero zero (Nat.pos_iff_ne_zero.mp (Nat.two_pow_pos shift))
    have scaled := Nat.mul_lt_mul_of_pos_right below (Nat.two_pow_pos shift)
    rw [← Nat.pow_add] at scaled
    have bits := (Nat.log2_lt positive).mpr scaled
    exact Nat.dvd_trans (Nat.pow_dvd_pow 2 (by omega)) (Nat.dvd_mul_left ..)
  · rw [← Nat.pow_add, Nat.log2_two_pow]
    exact Nat.pow_dvd_pow 2 (by omega)

/-- Rounding on the grid of the integral part leaves at most `2 ^ 53` steps. -/
theorem roundDiv_grain_le (num den : Nat) :
    roundDiv num (den * grain (num / den)) ≤ 1 <<< 53 := by
  refine Nat.le_trans (roundDiv_le ..) ?_
  rw [← Nat.div_div_eq_div_mul]
  have below : num / den < grain (num / den) * 1 <<< 53 := by
    unfold grain
    rw [Nat.one_shiftLeft, Nat.one_shiftLeft, ← Nat.pow_add]
    exact Nat.lt_of_lt_of_le Nat.lt_log2_self (Nat.pow_le_pow_right (by omega) (by omega))
  exact Nat.div_lt_of_lt_mul below

/-- The size of a finite double, in units. -/
structure Magnitude where
  units : Nat
  representable : Representable units
deriving DecidableEq

/-- The representable count of units nearest to `num / den`, a half going to the even neighbour;
none when that is past the largest double. -/
def Magnitude.round (num den : Nat) : Option Magnitude :=
  let step := grain (num / den)
  let units := roundDiv num (den * step) * step
  if small : units < overflow then
    some ⟨units, grain_dvd_shifted _ _ (roundDiv_grain_le num den), small⟩
  else none

/-- A double: not a number, an infinity, or a signed finite number (zero has both signs). -/
inductive Double
  | nan
  | infinite (negative : Bool)
  | finite (negative : Bool) (magnitude : Magnitude)
deriving DecidableEq

namespace Double

/-- How many units make one. -/
def unitsPerOne : Nat := 1 <<< 1074

/-- The double nearest to `num / den` units; past the largest double it is infinite. -/
def ofUnits (negative : Bool) (num den : Nat) : Double :=
  match Magnitude.round num den with
  | some magnitude => .finite negative magnitude
  | none => .infinite negative

/-- The double nearest to `num / den`. -/
def ofRatio (negative : Bool) (num den : Nat) : Double :=
  ofUnits negative (num * unitsPerOne) den

/-- The double nearest to an integer. -/
def ofInt (n : Int) : Double := ofRatio (decide (n < 0)) n.natAbs 1

/-- The double nearest to a natural number. -/
def ofNat (n : Nat) : Double := ofRatio false n 1

/-- The double nearest to `digits * 10 ^ exponent`. -/
def ofScientific (negative : Bool) (digits : Nat) (exponent : Int) : Double :=
  match exponent with
  | .ofNat e => ofRatio negative (digits * Nat.pow 10 e) 1
  | .negSucc e => ofRatio negative digits (Nat.pow 10 (e + 1))

/-- The positive zero. -/
def zero : Double := .finite false ⟨0, representable_zero⟩

instance : Inhabited Double := ⟨zero⟩

def isFinite : Double → Bool
  | .finite .. => true
  | _ => false

def isZero : Double → Bool
  | .finite _ magnitude => magnitude.units == 0
  | _ => false

def isInfinite : Double → Bool
  | .infinite _ => true
  | _ => false

def neg : Double → Double
  | .nan => .nan
  | .infinite negative => .infinite (!negative)
  | .finite negative magnitude => .finite (!negative) magnitude

/-- A sign and a size as an integer. -/
def signed (negative : Bool) (size : Nat) : Int := if negative then -(size : Int) else size

/-- Sum. A sum that is exactly zero is positive unless both terms are negative zeros. -/
def add : Double → Double → Double
  | .nan, _ | _, .nan => .nan
  | .infinite left, .infinite right => if left = right then .infinite left else .nan
  | .infinite left, .finite .. => .infinite left
  | .finite .., .infinite right => .infinite right
  | .finite left a, .finite right b =>
    let total := signed left a.units + signed right b.units
    if total = 0 then ofUnits (left && right) 0 1
    else ofUnits (decide (total < 0)) total.natAbs 1

/-- Product; an infinity times zero is not a number. -/
def mul : Double → Double → Double
  | .nan, _ | _, .nan => .nan
  | .infinite left, .infinite right => .infinite (left != right)
  | .infinite left, .finite right b => if b.units = 0 then .nan else .infinite (left != right)
  | .finite left a, .infinite right => if a.units = 0 then .nan else .infinite (left != right)
  | .finite left a, .finite right b => ofUnits (left != right) (a.units * b.units) unitsPerOne

/-- Quotient; a nonzero number over zero is infinite, zero over zero is not a number. -/
def div : Double → Double → Double
  | .nan, _ | _, .nan => .nan
  | .infinite _, .infinite _ => .nan
  | .infinite left, .finite right _ => .infinite (left != right)
  | .finite left _, .infinite right => ofUnits (left != right) 0 1
  | .finite left a, .finite right b =>
    if b.units = 0 then
      if a.units = 0 then .nan else .infinite (left != right)
    else ofUnits (left != right) (a.units * unitsPerOne) b.units

/-- Numeric equality: the zeros are equal, and not-a-number equals nothing. -/
def equals : Double → Double → Bool
  | .nan, _ | _, .nan => false
  | .infinite left, .infinite right => left == right
  | .finite left a, .finite right b =>
    a.units == b.units && (left == right || a.units == 0)
  | _, _ => false

/-- Equality as members of a set: like `equals`, but not-a-number equals itself. -/
def sameValueZero : Double → Double → Bool
  | .nan, .nan => true
  | left, right => left.equals right

/-- The integer a double is equal to, if there is one. -/
def toInt? : Double → Option Int
  | .finite negative magnitude =>
    if magnitude.units % unitsPerOne = 0 then
      some (signed negative (magnitude.units / unitsPerOne))
    else none
  | _ => none

end Double
end Readings
