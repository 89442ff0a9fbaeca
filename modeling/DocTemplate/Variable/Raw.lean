import DocTemplate.Variable.Basic
/-!
Variables and the JSON values they stand for. A number that is a whole number of absolute value
below 2^53 becomes an integer, any other finite number a float.
-/
namespace DocTemplate.Variable

/-- Any JSON value is a variable; no limit is checked. -/
def ofJson : Json → Variable
  | .null => .null
  | .boolean value => .boolean value
  | .number value => .number value.toDouble
  | .string text => .string text
  | .array items => .array items
  | .object fields => .object fields

theorem exactInt?_range {x : Decimal.Finite} {n : Int} (h : x.exactInt? = some n) :
    -9007199254740992 < n ∧ n < 9007199254740992 := by
  unfold Decimal.Finite.exactInt? at h
  split at h
  · next hx =>
    cases h
    have := hx.2
    split <;> omega
  · cases h

/-- The number as an integer where it is exactly one, else as a float. -/
def numberOf (x : Decimal.Finite) : Number :=
  match h : x.exactInt? with
  | some n => .integer n (by have := exactInt?_range h; omega) (by have := exactInt?_range h; omega)
  | none => .float x

/-- The JSON value of a variable. A number that is not finite has none and becomes null. -/
def toJson : Variable → Json
  | .string text => .string text
  | .number (.finite x) => .number (numberOf x)
  | .number _ => .null
  | .boolean value => .boolean value
  | .array items => .array items
  | .object fields => .object fields
  | .null => .null

/-- A number without JSON text. -/
structure NotFinite where
  value : Decimal.Double

def NotFinite.message (e : NotFinite) : String :=
  s!"NOT_FINITE: number {e.value.display} has no JSON representation"

/-- The JSON text of a variable, written without a wrapper. -/
def serialize : Variable → Except NotFinite String
  | .string text => .ok (Json.quoted text)
  | .number (.finite x) =>
    match x.exactInt? with
    | some n => .ok (toString n)
    | none => .ok x.canonical
  | .number value => .error ⟨value⟩
  | .boolean value => .ok (if value then "true" else "false")
  | .array items => .ok (Json.array items).compact
  | .object fields => .ok (Json.object fields).compact
  | .null => .ok "null"

/-- The variable that a JSON text writes, for any reader of JSON. -/
def deserialize? (read : String → Option Json) (text : String) : Option Variable :=
  (read text).map ofJson

end DocTemplate.Variable
