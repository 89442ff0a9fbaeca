import DocTemplate.Decimal.Double
/-!
Rounding exact quotients: to an integer, and to the nearest floating-point number, with ties
going to the even neighbour.
-/
namespace DocTemplate.Decimal

/-- The integer nearest to `num / den`, the even one of two equally near. -/
def roundEven (num den : Nat) : Nat :=
  let quotient := num / den
  match compare (2 * (num % den)) den with
  | .lt => quotient
  | .gt => quotient + 1
  | .eq => if quotient % 2 = 0 then quotient else quotient + 1

/-- The largest `k` with `2 ^ k ≤ num / den`, for positive `num` and `den`. -/
def binaryScale (num den : Nat) : Int :=
  let guess : Int := (num.log2 : Int) - den.log2
  if den * power 2 guess ≤ num * power 2 (-guess) then guess else guess - 1

namespace Double

/-- The number with the given significand, at most 2^53, and exponent, at least -1074. -/
def ofScaled (negative : Bool) (significand : Nat) (exponent : Int) : Double :=
  let code := significand + (exponent + 1074).toNat * 4503599627370496
  let scale := code / 4503599627370496
  if h : scale < 2047 then
    .finite ⟨negative, ⟨scale, h⟩, ⟨code % 4503599627370496, Nat.mod_lt _ (by decide)⟩⟩
  else .infinite negative

/-- The number nearest to `num / den`, for a positive `den`. -/
def nearest (negative : Bool) (num den : Nat) : Double :=
  if num = 0 then .finite (.zero negative)
  else
    let exponent := max (binaryScale num den - 52) (-1074)
    ofScaled negative (roundEven (num * power 2 (-exponent)) (den * power 2 exponent)) exponent

def ofInt (n : Int) : Double := nearest (decide (n < 0)) n.natAbs 1

/-- The number nearest to `digits * 10 ^ exponent`. Far outside the range of the format the
power of ten is never computed. -/
def ofDecimal (negative : Bool) (digits : Nat) (exponent : Int) : Double :=
  if digits = 0 then .finite (.zero negative)
  else if 310 ≤ (digits.log2 : Int) * 3 / 10 + exponent then .infinite negative
  else if (digits.log2 : Int) / 3 + 1 + exponent < -325 then .finite (.zero negative)
  else nearest negative (digits * power 10 exponent) (power 10 (-exponent))

end Double
end DocTemplate.Decimal
