import DocTemplate.Decimal.Numeral
import DocTemplate.Json.Basic
/-!
Numbers in TOML: integers of 64 bits in four bases, and floats. Single underscores may stand
between digits.
-/
namespace DocTemplate.Toml

/-- Digits that follow other digits, with the underscores between them dropped. -/
def moreDigits (base : Nat) : List Char → List Char × List Char
  | '_' :: c :: rest =>
    if (Decimal.digitValue? base c).isSome then
      let (digits, rest) := moreDigits base rest
      (c :: digits, rest)
    else ([], '_' :: c :: rest)
  | c :: rest =>
    if (Decimal.digitValue? base c).isSome then
      let (digits, rest) := moreDigits base rest
      (c :: digits, rest)
    else ([], c :: rest)
  | [] => ([], [])

/-- At least one digit, and more of them. -/
def someDigits? (base : Nat) : List Char → Option (List Char × List Char)
  | c :: rest =>
    if (Decimal.digitValue? base c).isSome then
      let (digits, rest) := moreDigits base rest
      some (c :: digits, rest)
    else none
  | [] => none

/-- The whole part of a number: a zero alone, or digits that begin with another one. -/
def whole? : List Char → Option (List Char × List Char)
  | '0' :: rest => some (['0'], rest)
  | text => someDigits? 10 text

def integer? (n : Int) : Option Json :=
  if n < 9223372036854775808 then (Number.ofInt? n).map .number else none

/-- The places after a point, if there is one. -/
def places? : List Char → Option (List Char × List Char)
  | '.' :: rest => someDigits? 10 rest
  | rest => some ([], rest)

/-- The power of ten, if one is given. -/
def power? : List Char → Option (Option Int × List Char)
  | mark :: rest =>
    if mark = 'e' ∨ mark = 'E' then do
      let (negative, rest) := Decimal.splitSign rest
      let (digits, rest) ← someDigits? 10 rest
      let n ← Decimal.natural? 10 digits
      some (some (if negative then -(n : Int) else n), rest)
    else some (none, mark :: rest)
  | [] => some (none, [])

/-- A decimal number. It is a float if it has places or a power of ten; one that is too large for
the format is refused. -/
def decimal? (negative : Bool) (text : List Char) : Option (Json × List Char) := do
  let (whole, rest) ← whole? text
  let (places, rest) ← places? rest
  let (power, rest) ← power? rest
  let digits ← Decimal.natural? 10 (whole ++ places)
  if places.isEmpty && power.isNone then
    let value ← integer? (if negative then -(digits : Int) else digits)
    some (value, rest)
  else
    match Decimal.Double.ofDecimal negative digits (power.getD 0 - places.length) with
    | .infinite false => none
    | value => some (.ofDouble value, rest)

def based? (base : Nat) (text : List Char) : Option (Json × List Char) := do
  let (digits, rest) ← someDigits? base text
  let value ← integer? (← Decimal.natural? base digits)
  some (value, rest)

/-- A number with an optional sign. The names of infinity and of no number have no JSON value. -/
def number? (text : List Char) : Option (Json × List Char) :=
  match text with
  | '0' :: 'x' :: rest => based? 16 rest
  | '0' :: 'o' :: rest => based? 8 rest
  | '0' :: 'b' :: rest => based? 2 rest
  | _ =>
    match Decimal.splitSign text with
    | (_, 'i' :: 'n' :: 'f' :: rest) => some (.null, rest)
    | (_, 'n' :: 'a' :: 'n' :: rest) => some (.null, rest)
    | (negative, unsigned) => decimal? negative unsigned

end DocTemplate.Toml
