import Readings.Double.Basic
import Mathlib.Algebra.Field.Rat

/-!
Doubles as exact numbers. A finite double is a rational number, and rounding leaves a count of units
alone that some double has. An integer that a double is equal to is therefore read back as that
double, except for the sign of zero, which integers do not have.
-/
namespace Readings

/-- Nothing is left to round where the division is exact. -/
theorem roundDiv_of_dvd {num den : Nat} (divides : den ∣ num) : roundDiv num den = num / den := by
  have none : num % den = 0 := Nat.mod_eq_zero_of_dvd divides
  unfold roundDiv
  rw [none, if_neg]
  rintro (less | ⟨zero, odd⟩)
  · exact Nat.not_lt_zero den less
  · rw [← zero, Nat.mul_zero, Nat.div_zero] at odd
    exact absurd odd (by decide)

/-- A count of units that some double has is its own rounding. -/
theorem Magnitude.round_units (magnitude : Magnitude) :
    Magnitude.round magnitude.units 1 = some magnitude := by
  obtain ⟨units, onGrid, small⟩ := magnitude
  have same : roundDiv units (1 * grain (units / 1)) * grain (units / 1) = units := by
    rw [Nat.one_mul, Nat.div_one, roundDiv_of_dvd onGrid, Nat.div_mul_cancel onGrid]
  unfold Magnitude.round
  simp only [same]
  split
  · rfl
  · rename_i large
    exact absurd small large

namespace Double

theorem of_units_exact (negative : Bool) (magnitude : Magnitude) :
    ofUnits negative magnitude.units 1 = .finite negative magnitude := by
  unfold ofUnits
  rw [Magnitude.round_units]

theorem natAbs_signed (negative : Bool) (size : Nat) : (signed negative size).natAbs = size := by
  cases negative <;> simp [signed]

theorem signed_lt_zero_iff {negative : Bool} {size : Nat} :
    signed negative size < 0 ↔ negative = true ∧ size ≠ 0 := by
  cases negative <;> simp [signed]
  omega

theorem signed_mul (negative : Bool) (size factor : Nat) :
    signed negative (size * factor) = signed negative size * factor := by
  cases negative <;> simp [signed]

/-! ## Values -/

/-- The rational number that a finite double is. -/
def value? : Double → Option Rat
  | .finite negative magnitude => some (signed negative magnitude.units / unitsPerOne)
  | _ => none

theorem units_per_one_pos : 0 < unitsPerOne := by
  decide +kernel

theorem finite_of_to_int {x : Double} (exact : x.toInt? = some n) : x.isFinite = true := by
  cases x with
  | finite negative magnitude => rfl
  | _ => cases exact

/-- The integer that a double is equal to is its value. -/
theorem value_of_to_int {x : Double} (exact : x.toInt? = some n) : x.value? = some (n : Rat) := by
  cases x with
  | finite negative magnitude =>
    simp only [toInt?] at exact
    split at exact
    · rename_i divides
      cases exact
      have counted := Nat.div_mul_cancel (Nat.dvd_of_mod_eq_zero divides)
      have nonzero : (unitsPerOne : Rat) ≠ 0 := Nat.cast_ne_zero.mpr units_per_one_pos.ne'
      rw [value?, Option.some.injEq, div_eq_iff nonzero, ← counted, signed_mul, counted]
      push_cast
      rfl
    · cases exact
  | _ => cases exact

/-! ## Integers -/

/-- The same double, with one zero for the two. -/
def plainZero (x : Double) : Double := if x.isZero then zero else x

theorem plain_zero_finite (negative : Bool) (magnitude : Magnitude) :
    (finite negative magnitude).plainZero =
      .finite (negative && decide (magnitude.units ≠ 0)) magnitude := by
  obtain ⟨units, representable⟩ := magnitude
  by_cases none : units = 0
  · subst none
    simp [plainZero, isZero, zero]
  · simp [plainZero, isZero, none]

/-- The integer that a double is equal to is read back as that double. -/
theorem of_int_of_to_int {x : Double} (exact : x.toInt? = some n) : ofInt n = x.plainZero := by
  cases x with
  | finite negative magnitude =>
    simp only [toInt?] at exact
    split at exact
    · rename_i divides
      cases exact
      have counted := Nat.div_mul_cancel (Nat.dvd_of_mod_eq_zero divides)
      have nothing : magnitude.units / unitsPerOne = 0 ↔ magnitude.units = 0 :=
        ⟨fun none => by rw [← counted, none, Nat.zero_mul], fun none => by rw [none, Nat.zero_div]⟩
      rw [ofInt, ofRatio, natAbs_signed, counted, of_units_exact, plain_zero_finite]
      simp [signed_lt_zero_iff, nothing]
    · cases exact
  | _ => cases exact

end Double
end Readings
