import DocTemplate.Decimal.Rounding
import DocTemplate.Entries
/-!
JSON values. A number is either an integer of at most 64 bits or a float, and stays what it is:
`1` and `1.0` are different values.
-/
namespace DocTemplate

inductive Number where
  | integer (value : Int) (least : -9223372036854775808 ≤ value)
      (below : value < 18446744073709551616)
  | float (x : Decimal.Finite)
deriving DecidableEq

inductive Json where
  | null
  | boolean (value : Bool)
  | number (value : Number)
  | string (text : String)
  | array (items : List Json)
  | object (fields : Entries Json none)

namespace Number

def ofInt? (n : Int) : Option Number :=
  if least : -9223372036854775808 ≤ n then
    if below : n < 18446744073709551616 then some (.integer n least below) else none
  else none

def toDouble : Number → Decimal.Double
  | .integer n _ _ => .ofInt n
  | .float x => .finite x

def same : Number → Number → Bool
  | .integer m _ _, .integer n _ _ => m == n
  | .float x, .float y => x.same y
  | _, _ => false

end Number

namespace Json

/-- The value of a floating-point number; those that are not finite have none and become null. -/
def ofDouble : Decimal.Double → Json
  | .finite x => .number (.float x)
  | _ => .null

mutual

/-- Equality of values, number by number: the sign of a zero does not count. -/
def same : Json → Json → Bool
  | .null, .null => true
  | .boolean a, .boolean b => a == b
  | .number a, .number b => a.same b
  | .string a, .string b => a == b
  | .array a, .array b => sameItems a b
  | .object a, .object b => sameFields a b
  | _, _ => false
termination_by structural value => value

def sameItems : List Json → List Json → Bool
  | [], [] => true
  | a :: as, b :: bs => same a b && sameItems as bs
  | _, _ => false
termination_by structural items => items

def sameFields {low low' : Option String} : Entries Json low → Entries Json low' → Bool
  | .nil, .nil => true
  | .cons key _ a as, .cons key' _ b bs => key == key' && same a b && sameFields as bs
  | _, _ => false
termination_by structural fields => fields

end

end Json
end DocTemplate
