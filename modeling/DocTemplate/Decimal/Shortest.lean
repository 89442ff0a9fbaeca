import DocTemplate.Decimal.Rounding
/-!
The fewest decimal digits that read back to a floating-point number, and of those the nearest.
-/
namespace DocTemplate.Decimal

/-- Significant digits and the place of the decimal point: `0.d₁d₂…` times `10 ^ point`. -/
structure Digits where
  digits : List Char
  point : Int
deriving DecidableEq

/-- What to do when two candidates of the same length are equally near. -/
inductive Tie where
  | even
  | up
deriving DecidableEq

namespace Finite

/-- The least `k` such that the absolute value is below `10 ^ k`, for a value other than zero. -/
def decimalScale (x : Finite) : Int :=
  let guess := (((x.significand.log2 : Int) + x.exponent) * 30103).fdiv 100000
  let below (k : Int) : Bool :=
    x.significand * power 2 x.exponent * power 10 (-k)
      < power 2 (-x.exponent) * power 10 k
  if below guess then guess else if below (guess + 1) then guess + 1 else guess + 2

/-- Whether `candidate * 10 ^ grid` is among the reals that round to the absolute value. The
neighbour below a power of two is nearer than the one above; the ends count for an even
significand. -/
def readsBack (x : Finite) (grid : Int) (candidate : Nat) : Bool :=
  let narrow := x.fraction.val = 0 ∧ 1 < x.scale.val
  let unit := power 2 x.exponent * power 10 (-grid)
  let found := 4 * candidate * (power 2 (-x.exponent) * power 10 grid)
  let low := unit * (4 * x.significand - if narrow then 1 else 2)
  let high := unit * (4 * x.significand + 2)
  if x.significand % 2 = 0 then low ≤ found && found ≤ high else low < found && found < high

/-- The multiple of `10 ^ grid` next to the absolute value that reads back, if there is one. -/
def onGrid? (tie : Tie) (x : Finite) (grid : Int) : Option Nat :=
  let num := x.significand * power 2 x.exponent * power 10 (-grid)
  let den := power 2 (-x.exponent) * power 10 grid
  let lower := num / den
  match x.readsBack grid lower, x.readsBack grid (lower + 1) with
  | false, false => none
  | true, false => some lower
  | false, true => some (lower + 1)
  | true, true =>
    match compare (2 * (num % den)) den, tie with
    | .lt, _ => some lower
    | .gt, _ => some (lower + 1)
    | .eq, .up => some (lower + 1)
    | .eq, .even => some (if lower % 2 = 0 then lower else lower + 1)

/-- Digits of `number * 10 ^ grid`, without zeros at the end. -/
def digitsOf (number : Nat) (grid : Int) : Digits :=
  let written := Nat.toDigits 10 number
  ⟨(written.reverse.dropWhile (· == '0')).reverse, written.length + grid⟩

/-- The shortest digits of the absolute value. Seventeen always suffice; past them stands the
exact value. -/
def shortest (tie : Tie) (x : Finite) : Digits :=
  if x.significand = 0 then ⟨['0'], 1⟩
  else
    let scale := x.decimalScale
    let found := (List.range 17).findSome? fun (count : Nat) =>
      let grid : Int := scale - (count + 1 : Nat)
      (x.onGrid? tie grid).map fun number => digitsOf number grid
    match found with
    | some digits => digits
    | none =>
      digitsOf (x.significand * power 2 x.exponent * power 5 (-x.exponent)) (min x.exponent 0)

end Finite
end DocTemplate.Decimal
