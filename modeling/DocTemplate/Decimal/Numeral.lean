import DocTemplate.Decimal.Rounding
import DocTemplate.Text.Search
/-!
Decimal numerals as people write them: a sign, digits with a point among, before or behind them,
an exponent, or one of the names of infinity and of no number.
-/
namespace DocTemplate.Decimal

/-- The value of a digit in a base; letters of either case count from ten. -/
def digitValue? (base : Nat) (c : Char) : Option Nat :=
  let value :=
    if c.isDigit then c.toNat - '0'.toNat
    else if 'a' ≤ c ∧ c ≤ 'z' then c.toNat - 'a'.toNat + 10
    else if 'A' ≤ c ∧ c ≤ 'Z' then c.toNat - 'A'.toNat + 10
    else base
  if value < base then some value else none

/-- The number written by a non-empty row of digits. -/
def natural? (base : Nat) (digits : List Char) : Option Nat :=
  if digits.isEmpty then none
  else digits.foldlM (fun n c => (digitValue? base c).map (n * base + ·)) 0

/-- Takes one sign off the front; `true` stands for minus. -/
def splitSign : List Char → Bool × List Char
  | '-' :: rest => (true, rest)
  | '+' :: rest => (false, rest)
  | rest => (false, rest)

/-- An integer with an optional sign. -/
def integer? (base : Nat) (text : List Char) : Option Int :=
  let (negative, digits) := splitSign text
  (natural? base digits).map fun n => if negative then -(n : Int) else n

/-- Digits and power of ten of a numeral without sign. Either side of the point may be empty,
but not both. -/
def numeral? (text : List Char) : Option (Nat × Int) :=
  let whole := text.takeWhile Char.isDigit
  let (places, rest) := match text.dropWhile Char.isDigit with
    | '.' :: rest => (rest.takeWhile Char.isDigit, rest.dropWhile Char.isDigit)
    | rest => ([], rest)
  let exponent? := match rest with
    | [] => some 0
    | mark :: power => if mark = 'e' ∨ mark = 'E' then integer? 10 power else none
  match natural? 10 (whole ++ places), exponent? with
  | some digits, some exponent => some (digits, exponent - places.length)
  | _, _ => none

/-- The number nearest to the one written. -/
def Double.ofText? (text : String) : Option Double :=
  let (negative, unsigned) := splitSign text.toList
  match numeral? unsigned with
  | some (digits, exponent) => some (.ofDecimal negative digits exponent)
  | none =>
    match String.ofList (Text.lowerCase unsigned) with
    | "inf" | "infinity" => some (.infinite negative)
    | "nan" => some .nan
    | _ => none

end DocTemplate.Decimal
