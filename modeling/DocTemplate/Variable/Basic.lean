import DocTemplate.Json.Printer
import DocTemplate.Text.Search
import DocTemplate.Variable.Error
/-!
Template variables: their kinds, the limits on their values, access by kind, and equality.
-/
namespace DocTemplate

inductive Variable where
  | string (text : String)
  | number (value : Decimal.Double)
  | boolean (value : Bool)
  | array (items : List Json)
  | object (fields : Entries Json none)
  | null

namespace Variable

/-- The rule for strings looks at the text without blanks at its ends. -/
def checkText (trimmed : List Char) : Except VariableError Unit :=
  if trimmed.isEmpty then .error .emptyString
  else if Limit.characters < trimmed.length then .error (.stringTooLong trimmed.length)
  else .ok ()

def checkNumber (value : Decimal.Double) : Except VariableError Unit :=
  if value = .nan then .error .notANumber
  else if value.less .zero then .error (.negativeNumber value)
  else if Limit.largest.less value then .error (.numberTooLarge value)
  else .ok ()

def checkItems (items : List Json) : Except VariableError Unit :=
  if Limit.items < items.length then .error (.arrayTooLarge items.length) else .ok ()

def checkFields (fields : Entries Json none) : Except VariableError Unit :=
  if Limit.fields < fields.size then .error (.objectTooLarge fields.size) else .ok ()

/-- A string within the limits; blanks at its ends are dropped. -/
def ofText (text : String) : Except VariableError Variable := do
  let trimmed := Text.trim text.toList
  checkText trimmed
  return .string (String.ofList trimmed)

def ofNumber (value : Decimal.Double) : Except VariableError Variable := do
  checkNumber value
  return .number value

def ofItems (items : List Json) : Except VariableError Variable := do
  checkItems items
  return .array items

def ofFields (fields : Entries Json none) : Except VariableError Variable := do
  checkFields fields
  return .object fields

/-- Whether a variable, however it came about, is within the limits. -/
def validate : Variable → Except VariableError Unit
  | .string text => checkText (Text.trim text.toList)
  | .number value => checkNumber value
  | .array items => checkItems items
  | .object fields => checkFields fields
  | .boolean _ | .null => .ok ()

def kind : Variable → Kind
  | .string _ => .string
  | .number _ => .number
  | .boolean _ => .boolean
  | .array _ => .array
  | .object _ => .object
  | .null => .null

def asString : Variable → Except VariableError String
  | .string text => .ok text
  | other => .error (.typeMismatch .string other.kind)

def asNumber : Variable → Except VariableError Decimal.Double
  | .number value => .ok value
  | other => .error (.typeMismatch .number other.kind)

def asBoolean : Variable → Except VariableError Bool
  | .boolean value => .ok value
  | other => .error (.typeMismatch .boolean other.kind)

def asArray : Variable → Except VariableError (List Json)
  | .array items => .ok items
  | other => .error (.typeMismatch .array other.kind)

def asObject : Variable → Except VariableError (Entries Json none)
  | .object fields => .ok fields
  | other => .error (.typeMismatch .object other.kind)

def isNull : Variable → Bool
  | .null => true
  | _ => false

/-- Nothing to show: null, a string of blanks, no items or no fields. -/
def isEmpty : Variable → Bool
  | .null => true
  | .string text => (Text.trim text.toList).isEmpty
  | .array items => items.isEmpty
  | .object fields => fields.isEmpty
  | .number _ | .boolean _ => false

/-- The text that shows a variable to people. -/
def display : Variable → String
  | .string text => Json.quoted text
  | .number value => value.display
  | .boolean value => if value then "true" else "false"
  | .array items => (Json.array items).compact
  | .object fields => (Json.object fields).compact
  | .null => "null"

/-- Equality of variables; numbers are equal as values, so `nan` differs from itself. -/
def same : Variable → Variable → Bool
  | .string a, .string b => a == b
  | .number a, .number b => a.same b
  | .boolean a, .boolean b => a == b
  | .array a, .array b => Json.sameItems a b
  | .object a, .object b => Json.sameFields a b
  | .null, .null => true
  | _, _ => false

end Variable
end DocTemplate
