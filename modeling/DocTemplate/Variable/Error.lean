import DocTemplate.Decimal.Layout
import DocTemplate.Json.Basic
/-!
The kinds of value that a template variable can have, and what can be wrong with a variable or with
the way to one: values outside the limits, values of another kind, and paths that lead nowhere.
-/
namespace DocTemplate

inductive Kind where
  | string
  | number
  | boolean
  | array
  | object
  | null
deriving DecidableEq

def Kind.name : Kind → String
  | .string => "string"
  | .number => "number"
  | .boolean => "boolean"
  | .array => "array"
  | .object => "object"
  | .null => "null"

def Json.kind : Json → Kind
  | .null => .null
  | .boolean _ => .boolean
  | .number _ => .number
  | .string _ => .string
  | .array _ => .array
  | .object _ => .object

namespace Limit

/-- Characters of a string, blanks at its ends not counted. -/
def characters : Nat := 1000

def largest : Decimal.Double := .ofInt 10000000000

def items : Nat := 1000

def fields : Nat := 1000

end Limit

inductive VariableError where
  | emptyString
  | stringTooLong (length : Nat)
  | negativeNumber (value : Decimal.Double)
  | numberTooLarge (value : Decimal.Double)
  | notANumber
  | arrayTooLarge (length : Nat)
  | objectTooLarge (keys : Nat)
  | typeMismatch (expected actual : Kind)
  | notFound (path segment : String)
  | notAnObject (path segment : String) (kind : Kind)
  | invalidEntry (key : String) (cause : VariableError)
deriving DecidableEq

namespace VariableError

def message : VariableError → String
  | .emptyString => "EMPTY_STRING: string variable must not be empty or whitespace"
  | .stringTooLong length =>
    s!"STRING_TOO_LONG: string has {length} characters (max {Limit.characters})"
  | .negativeNumber value => s!"NEGATIVE_NUMBER: {value.display} is negative"
  | .numberTooLarge value =>
    s!"NUMBER_TOO_LARGE: {value.display} exceeds {Limit.largest.display}"
  | .notANumber => "NOT_A_NUMBER: number variable must not be NaN"
  | .arrayTooLarge length =>
    s!"ARRAY_TOO_LARGE: array has {length} elements (max {Limit.items})"
  | .objectTooLarge keys => s!"OBJECT_TOO_LARGE: object has {keys} keys (max {Limit.fields})"
  | .typeMismatch expected actual =>
    s!"TYPE_MISMATCH: expected {expected.name}, found {actual.name}"
  | .notFound path segment =>
    s!"NOT_FOUND: key '{segment}' not found while resolving '{path}'"
  | .notAnObject path segment kind =>
    s!"NOT_AN_OBJECT: '{segment}' is {kind.name}, not an object, while resolving '{path}'"
  | .invalidEntry key cause => s!"INVALID_VARIABLE: '{key}': {cause.message}"

/-- Whether a value breaks a limit, as opposed to an access that fails. -/
def isValidation : VariableError → Bool
  | .emptyString | .stringTooLong _ | .negativeNumber _ | .numberTooLarge _ | .notANumber
  | .arrayTooLarge _ | .objectTooLarge _ => true
  | .invalidEntry _ cause => cause.isValidation
  | .typeMismatch .. | .notFound .. | .notAnObject .. => false

end VariableError
end DocTemplate
