import DocTemplate.Command.Log.Directive
/-!
Log filters: directives between commas, of which the closest decides what is shown. In a message
that is shown, a character that could steer a terminal is written as its number.
-/
namespace DocTemplate.Command.Log

abbrev Filter := List Directive

namespace Filter

/-- Warnings and what is worse. -/
def standard : Filter := [⟨none, false, none, .warn⟩]

/-- Reads a filter up to the first directive that is not understood. A text without any directive
shows errors only. -/
def ofText (text : String) : Except FilterError Filter := do
  let words := (Text.pieces ',' text.toList).filter fun word => !word.isEmpty
  let directives ← words.mapM Directive.ofWord
  return if directives.isEmpty then [⟨none, false, none, .error⟩] else directives

/-- The level for messages of an origin: that of the closest directive on them, and of equally
close ones the last. Messages carry nothing but their text. -/
def levelFor (filter : Filter) (origin : String) : Level :=
  let onOrigin := filter.filter fun d => d.isStatic && d.field.all (·.name == "message") &&
    d.origin.all fun start => start.toList.isPrefixOf origin.toList
  let closest := onOrigin.foldl (fun (best : Option Directive) d =>
    match best with
    | some b => if b.precision ≤ d.precision then some d else best
    | none => some d) none
  match closest with
  | some d => d.level
  | none => .off

/-- Where the warnings of the render command come from. -/
def renderOrigin : String := "texforge::commands::render"

/-- Whether warnings of the render command are shown. -/
def showsWarnings (filter : Filter) : Bool :=
  Level.warn.rank ≤ (filter.levelFor renderOrigin).rank

/-- The filter that is given, or the standard one in place of a malformed one. A part that would
end inside of a character leaves none at all. -/
def given? (text : Option String) : Option Filter :=
  match text.map ofText with
  | none | some (.error .malformed) => some standard
  | some (.error .insideCharacter) => none
  | some (.ok filter) => some filter

end Filter

/-- Bell, backspace, form feed, escape and delete. -/
def steersTerminal (c : Char) : Bool := "\x07\x08\x0c\x1b\x7f".toList.contains c

/-- The hexadecimal number of a character, in two digits or more. -/
def number (c : Char) : List Char :=
  let digits := Nat.toDigits 16 c.toNat
  List.replicate (2 - digits.length) '0' ++ digits

/-- The controls behind ASCII have braces around their number; all other characters, line ends and
blanks among them, stay. -/
def visible (c : Char) : List Char :=
  if steersTerminal c then '\\' :: 'x' :: number c
  else if 0x80 ≤ c.toNat ∧ c.toNat ≤ 0x9f then '\\' :: 'u' :: '\x7b' :: (number c ++ ['\x7d'])
  else [c]

def message (text : String) : String := String.ofList (text.toList.flatMap visible)

end DocTemplate.Command.Log
