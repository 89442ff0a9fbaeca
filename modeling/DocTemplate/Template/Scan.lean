import DocTemplate.Template.Substitution
/-!
The one pass over a template that replaces tokens. It moves forward only: text that was put in is
never looked at again, and an opening mark that begins no token is copied.
-/
namespace DocTemplate

/-- A place in a template: the bytes before it, and the text from it on. -/
structure Cursor where
  position : Nat
  rest : List Char
deriving DecidableEq

/-- What happens up to the next place: text that is emitted, and replacements made. -/
structure Advance where
  emitted : List Char
  replaced : Nat
  next : Cursor
deriving DecidableEq

/-- The text of a rendered template, and how many placeholders were replaced in it. -/
structure Rendered where
  text : List Char
  replaced : Nat
deriving DecidableEq

namespace Cursor

/-- Copies the text up to the next opening mark. There the longest token that matches is replaced;
if none does, one character is copied, so that an overlapping mark is still found. -/
def advance? (table : SubstitutionTable) (left : List Char) (cursor : Cursor) : Option Advance :=
  match Text.cutAt? left cursor.rest with
  | none => none
  | some (skipped, found) =>
    let start := cursor.position + Text.byteSize skipped
    match table.match? found, found with
    | some entry, _ =>
      some ⟨skipped ++ entry.replacement, 1,
        ⟨start + Text.byteSize entry.token, found.drop entry.token.length⟩⟩
    | none, c :: rest => some ⟨skipped ++ [c], 0, ⟨start + c.utf8Size, rest⟩⟩
    | none, [] => some ⟨skipped, 0, ⟨start + 1, []⟩⟩

/-- Advances until no opening mark is left, at most `fuel` times, and copies the rest. -/
def run (table : SubstitutionTable) (left : List Char) : (fuel : Nat) → Cursor → Rendered
  | 0, cursor => ⟨cursor.rest, 0⟩
  | fuel + 1, cursor =>
    match cursor.advance? table left with
    | none => ⟨cursor.rest, 0⟩
    | some advance =>
      let after := run table left fuel advance.next
      ⟨advance.emitted ++ after.text, advance.replaced + after.replaced⟩

end Cursor

/-- Replaces the tokens of the table in a template. The pass advances at least a byte at a time,
so the size of the template is fuel enough. -/
def SubstitutionTable.substitute (table : SubstitutionTable) (left template : List Char) :
    Rendered :=
  Cursor.run table left (Text.byteSize template) ⟨0, template⟩

end DocTemplate
