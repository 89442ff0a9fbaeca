/-!
Binary floating-point numbers of 64 bits as plain data: sign, scale and fraction, with the order
of their values and the integers among them.
-/
namespace DocTemplate.Decimal

/-- A power of a base. One stands for the powers with exponents below zero, which are written as
divisors instead. -/
def power (base : Nat) (exponent : Int) : Nat := Nat.pow base exponent.toNat

/-- A finite value. It is subnormal when `scale` is zero. -/
structure Finite where
  negative : Bool
  scale : Fin 2047
  fraction : Fin 4503599627370496
deriving DecidableEq

inductive Double where
  | finite (x : Finite)
  | infinite (negative : Bool)
  | nan
deriving DecidableEq

namespace Finite

def zero (negative : Bool) : Finite := ⟨negative, 0, 0⟩

/-- The value is `significand * 2 ^ exponent`, up to sign. -/
def significand (x : Finite) : Nat :=
  if x.scale.val = 0 then x.fraction.val else 4503599627370496 + x.fraction.val

def exponent (x : Finite) : Int :=
  if x.scale.val = 0 then -1074 else (x.scale.val : Int) - 1075

/-- The position of the value among all finite values. Both zeros have position zero. -/
def rank (x : Finite) : Int :=
  let distance : Int := x.scale.val * 4503599627370496 + x.fraction.val
  if x.negative then -distance else distance

def isIntegral (x : Finite) : Bool :=
  x.significand % power 2 (-x.exponent) == 0

/-- The absolute value without its fractional part. -/
def wholePart (x : Finite) : Nat :=
  x.significand * power 2 x.exponent / power 2 (-x.exponent)

/-- The value as an integer, where it is one of absolute value below 2^53. -/
def exactInt? (x : Finite) : Option Int :=
  if x.isIntegral ∧ x.wholePart < 9007199254740992 then
    some (if x.negative then -(x.wholePart : Int) else x.wholePart)
  else none

/-- Equality of values; the sign of zero does not count. -/
def same (x y : Finite) : Bool := x.rank == y.rank

end Finite

namespace Double

/-- Equality of values; the sign of zero does not count, and `nan` differs from itself. -/
def same : Double → Double → Bool
  | .finite x, .finite y => x.same y
  | .infinite a, .infinite b => a == b
  | _, _ => false

/-- Order of values; nothing is below or above `nan`. -/
def less : Double → Double → Bool
  | .finite x, .finite y => x.rank < y.rank
  | .finite _, .infinite negative => !negative
  | .infinite negative, .finite _ => negative
  | .infinite a, .infinite b => a && !b
  | _, _ => false

def zero : Double := .finite (.zero false)

end Double
end DocTemplate.Decimal
