import DocTemplate.Command.Log.Pattern
import DocTemplate.Decimal.Numeral
import DocTemplate.Text.Alphanumeric
import DocTemplate.Text.Search
/-!
Directives of a log filter: up to which level the messages of some origin are shown.

A directive is a level alone, or `origin[span{field=value}]=level` with parts left out.
-/
namespace DocTemplate.Command.Log

/-- Levels from nothing to everything. -/
inductive Level where
  | off
  | error
  | warn
  | info
  | debug
  | trace
deriving DecidableEq

namespace Level

def rank : Level → Nat
  | .off => 0
  | .error => 1
  | .warn => 2
  | .info => 3
  | .debug => 4
  | .trace => 5

def name : Level → String
  | .off => "off"
  | .error => "error"
  | .warn => "warn"
  | .info => "info"
  | .debug => "debug"
  | .trace => "trace"

def all : List Level := [.off, .error, .warn, .info, .debug, .trace]

/-- A level by its number, which may have a plus sign, or by its name in any case. -/
def ofText? (text : List Char) : Option Level :=
  match Decimal.natural? 10 ((Text.after? ['+'] text).getD text) with
  | some n => all[n]?
  | none => all.find? (·.name.toList == Text.lowerCase text)

end Level

/-- A field that a message has to carry, and whether with a certain value. -/
structure Field where
  name : String
  hasValue : Bool

/-- The level up to which messages are shown: of an origin, or of all; within a span of the
program's work, or anywhere; with a field, or any. -/
structure Directive where
  origin : Option String
  inSpan : Bool
  field : Option Field
  level : Level

/-- Why a filter is not understood. -/
inductive FilterError where
  | malformed
  | insideCharacter
deriving DecidableEq

/-- The part of a text from one byte to another. -/
def bytesBetween (text : List Char) (start stop : Nat) : Except FilterError (List Char) :=
  match Text.cutBytes? start text with
  | some (_, rest) =>
    match Text.cutBytes? (stop - start) rest with
    | some (part, _) => .ok part
    | none => .error .insideCharacter
  | none => .error .insideCharacter

/-- A field by its name, and with the value behind an equals sign if there is one. A value is a
truth value, a number or a pattern. -/
def Field.ofText (text : List Char) : Except FilterError Field :=
  match Text.pieces '=' text with
  | name :: value :: _ =>
    if (Decimal.Double.ofText? (String.ofList value)).isSome || isPattern value then
      .ok ⟨String.ofList name, true⟩
    else .error .malformed
  | _ => if text.isEmpty then .error .malformed else .ok ⟨String.ofList text, false⟩

namespace Directive

def mayBegin (c : Char) : Bool := c == '[' || "-:_".toList.contains c || Text.isAlphanumeric c

/-- The level behind an equals sign at some byte of a word. Without one all is shown. -/
def levelFrom (word : List Char) (start : Nat) : Except FilterError Level := do
  let text ← bytesBetween word start (Text.byteSize word)
  if text.isEmpty then return .trace
  match Level.ofText? text with
  | some level => return level
  | none => throw .malformed

/-- What may follow a closing bracket: nothing, or an equals sign and a level. -/
def levelBehind (word : List Char) (start : Nat) : List Char → Except FilterError Level
  | [] => .ok .trace
  | '=' :: _ => levelFrom word (start + 1)
  | _ => .error .malformed

/-- Reads what stands in brackets, a span and a field, and the level behind them. -/
def ofBrackets (word : List Char) (origin : Option String) (start : Nat) (text : List Char) :
    Except FilterError Directive := do
  let spanText := text.takeWhile fun c => c != ']' && c != '\x7b'
  let spanEnd := start + Text.byteSize spanText
  match text.drop spanText.length with
  | ']' :: rest =>
    let _ ← bytesBetween word start spanEnd
    return ⟨origin, true, none, ← levelBehind word (spanEnd + 1) rest⟩
  | _ :: inner =>
    let span ← bytesBetween word start spanEnd
    let fieldText := inner.takeWhile (· != '\x7d')
    let fieldEnd := spanEnd + 1 + Text.byteSize fieldText
    match inner.drop fieldText.length with
    | _ :: rest =>
      let field ← Field.ofText (← bytesBetween word (spanEnd + 1) fieldEnd)
      match rest with
      | ']' :: rest =>
        return ⟨origin, !span.isEmpty, some field, ← levelBehind word (fieldEnd + 2) rest⟩
      | _ => throw .malformed
    | [] => throw .malformed
  | [] => throw .malformed

/-- Reads a directive. Blanks around it are passed over to tell its parts from each other, but each
part is then cut from the whole word, at the bytes where it would stand without them. -/
def ofWord (word : List Char) : Except FilterError Directive := do
  let text := Text.trim word
  if !(text.head?.any mayBegin) then throw .malformed
  let head := text.takeWhile fun c => c != '=' && c != '['
  let headEnd := Text.byteSize head
  match text.drop head.length with
  | '=' :: _ =>
    let origin ← bytesBetween word 0 headEnd
    return ⟨some (String.ofList origin), false, none, ← levelFrom word (headEnd + 1)⟩
  | _ :: rest =>
    let origin ← bytesBetween word 0 headEnd
    ofBrackets word (if head.isEmpty then none else some (String.ofList origin)) (headEnd + 1) rest
  | [] =>
    match Level.ofText? word with
    | some level => return ⟨none, false, none, level⟩
    | none => return ⟨some (String.ofList word), false, none, .trace⟩

/-- Whether the directive can decide on a message by itself, whatever the program is doing. -/
def isStatic (d : Directive) : Bool := !d.inSpan && !d.field.any (·.hasValue)

/-- How closely a directive describes messages: by the length of the origin, then by the field. -/
def precision (d : Directive) : Nat :=
  let origin := match d.origin with
    | some origin => Text.byteSize origin.toList + 1
    | none => 0
  2 * origin + (if d.field.isSome then 1 else 0)

end Directive
end DocTemplate.Command.Log
