import DocTemplate.Decimal.Shortest
/-!
Written forms of numbers: positional, with a signed exponent, and with a fixed number of places.
-/
namespace DocTemplate.Decimal

namespace Digits

/-- The digits with the decimal point in its place, and no point behind a whole number. -/
def positional (x : Digits) : List Char :=
  if x.point ≤ 0 then '0' :: '.' :: (List.replicate (-x.point).toNat '0' ++ x.digits)
  else
    let before := x.point.toNat
    if x.digits.length ≤ before then x.digits ++ List.replicate (before - x.digits.length) '0'
    else x.digits.take before ++ '.' :: x.digits.drop before

def isWhole (x : Digits) : Bool := x.digits.length ≤ x.point

/-- One digit before the point, and a sign on every exponent. -/
def scientific (x : Digits) : List Char :=
  let exponent := x.point - 1
  let mantissa := match x.digits with
    | first :: second :: more => first :: '.' :: second :: more
    | few => few
  mantissa ++ 'e' :: (if exponent < 0 then '-' else '+') :: Nat.toDigits 10 exponent.natAbs

end Digits

def signed (negative : Bool) (text : List Char) : String :=
  String.ofList (if negative then '-' :: text else text)

namespace Finite

/-- Shortest digits in positional form, whatever the size. -/
def display (x : Finite) : String := signed x.negative (x.shortest .up).positional

/-- Shortest digits as a data format writes them: always recognisable as a float, and positional
only while the first digit stands between the fifth place and the sixteenth. -/
def canonical (x : Finite) : String :=
  let digits := x.shortest .even
  signed x.negative <|
    if -5 < digits.point ∧ digits.point ≤ 16 then
      if digits.isWhole then digits.positional ++ ['.', '0'] else digits.positional
    else digits.scientific

/-- The exact value rounded to `places` places, a tie to the even neighbour. The sign stays
even where every digit is zero. -/
def fixed (places : Nat) (x : Finite) : String :=
  let units := roundEven (x.significand * power 2 x.exponent * power 10 places)
    (power 2 (-x.exponent))
  let written := Nat.toDigits 10 units
  let padded := List.replicate (places + 1 - written.length) '0' ++ written
  signed x.negative
    (padded.take (padded.length - places) ++ '.' :: padded.drop (padded.length - places))

end Finite

namespace Double

def text (layout : Finite → String) : Double → String
  | .finite x => layout x
  | .infinite negative => if negative then "-inf" else "inf"
  | .nan => "NaN"

def display : Double → String := text Finite.display

def fixed (places : Nat) : Double → String := text (Finite.fixed places)

end Double
end DocTemplate.Decimal
