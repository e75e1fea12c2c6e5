import Readings.Double.Shortest

/-!
How a double is written. The digits come from the shortest decimal; a layout decides where they
are positional and how an exponent is spelled.
-/
namespace Readings

/-- The decisions of a decimal notation. -/
structure DecimalLayout where
  /-- The least exponent of the first digit that is written positionally. -/
  positionalFrom : Int
  /-- The exponent of the first digit at which positional writing ends. -/
  positionalBelow : Int
  /-- What follows a positional number without a fraction. -/
  wholeMark : String
  /-- The sign of an exponent that is not negative. -/
  exponentPlus : String

/-- Numbers from `0.00001` up to sixteen integral digits are positional and always show a point;
others have one digit before the point and a signed exponent. -/
def DecimalLayout.standard : DecimalLayout := ⟨-5, 16, ".0", "+"⟩

namespace Decimal

def zeros (count : Nat) : String := String.ofList (List.replicate count '0')

/-- The text of a positive decimal whose digits do not end in zero. -/
def write (layout : DecimalLayout) (decimal : Decimal) : String :=
  let digits := Nat.toDigits 10 decimal.digits
  let leading := decimal.scale + (digits.length - 1 : Nat)
  if layout.positionalFrom ≤ leading ∧ leading < layout.positionalBelow then
    match leading with
    | .negSucc below => "0." ++ zeros below ++ String.ofList digits
    | .ofNat above =>
      if digits.length ≤ above + 1 then
        String.ofList digits ++ zeros (above + 1 - digits.length) ++ layout.wholeMark
      else
        String.ofList (digits.take (above + 1)) ++ "." ++ String.ofList (digits.drop (above + 1))
  else
    let fraction := if digits.length = 1 then "" else "." ++ String.ofList (digits.drop 1)
    let sign := if leading < 0 then "-" else layout.exponentPlus
    String.ofList (digits.take 1) ++ fraction ++ "e" ++ sign ++ toString leading.natAbs

end Decimal

/-- The text of a double. What is not finite has a name instead of digits. -/
def Double.write (layout : DecimalLayout) : Double → String
  | .nan => "NaN"
  | .infinite negative => if negative then "-inf" else "inf"
  | .finite negative magnitude =>
    let size := if magnitude.units = 0 then "0" ++ layout.wholeMark
      else magnitude.shortest.write layout
    if negative then "-" ++ size else size

/-- The text of a double in the standard layout. -/
def Double.text (x : Double) : String := x.write .standard

end Readings
