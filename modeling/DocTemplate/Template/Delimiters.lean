import DocTemplate.Json.Printer
import DocTemplate.Json.Written
/-!
The two marks around a placeholder. Neither is ever empty.
-/
namespace DocTemplate

inductive Side where
  | left
  | right
deriving DecidableEq

def Side.name : Side → String
  | .left => "left"
  | .right => "right"

/-- Why a template cannot be rendered. -/
inductive RenderError where
  | emptyDelimiter (side : Side)
deriving DecidableEq

def RenderError.message : RenderError → String
  | .emptyDelimiter side => s!"EMPTY_DELIMITER: {side.name} delimiter must not be empty"

structure Delimiters where
  left : String
  right : String
  left_ne : left ≠ ""
  right_ne : right ≠ ""
deriving DecidableEq

namespace Delimiters

def ofTexts (left right : String) : Except RenderError Delimiters :=
  if hl : left = "" then .error (.emptyDelimiter .left)
  else if hr : right = "" then .error (.emptyDelimiter .right)
  else .ok ⟨left, right, hl, hr⟩

def standard : Delimiters := ⟨"\x7b\x7b", "\x7d\x7d", by decide, by decide⟩

/-- What a template writes for the variable `key`. -/
def placeholder (d : Delimiters) (key : String) : String := d.left ++ "." ++ key ++ d.right

def serialize (d : Delimiters) : String :=
  "\x7b\"left\":" ++ Json.quoted d.left ++ ",\"right\":" ++ Json.quoted d.right ++ "\x7d"

def text? : Written → Option String
  | .string parts => StringPart.string? parts
  | _ => none

/-- Collects the two sides from fields in any order. Each side is a string and stands there once;
other fields may hold anything. -/
def sides? (left right : Option String) :
    List (List StringPart × Written) → Option (String × String)
  | [] => do return (← left, ← right)
  | (name, written) :: more =>
    match StringPart.string? name with
    | none => none
    | some "left" =>
      match left, text? written with
      | none, some text => sides? (some text) right more
      | _, _ => none
    | some "right" =>
      match right, text? written with
      | none, some text => sides? left (some text) more
      | _, _ => none
    | some _ => sides? left right more

/-- Both sides of written delimiters: an object has them by name, a list in their order. -/
def ofWritten? : Written → Option (String × String)
  | .object fields => sides? none none fields
  | .array [left, right] => do return (← text? left, ← text? right)
  | _ => none

/-- Delimiters from JSON text. -/
def deserialize? (text : String) : Option Delimiters := do
  let (left, right) ← (Written.read? text).bind ofWritten?
  (ofTexts left right).toOption

end Delimiters
end DocTemplate
