import DocTemplate.Text.Search
/-!
YAML text that is still to be read, and the place where it stands.
-/
namespace DocTemplate.Yaml

def isBlank (c : Char) : Bool := c == ' ' || c == '\t'

def isBreak (c : Char) : Bool :=
  c == '\n' || c == '\r' || c == '\u0085' || c == '\u2028' || c == '\u2029'

/-- A letter, a digit, a hyphen or an underscore. -/
def isWord (c : Char) : Bool := c.isAlphanum || c == '-' || c == '_'

/-- Control characters and two that are no characters may stand nowhere. -/
def isAllowed (c : Char) : Bool :=
  let n := c.toNat
  n == 0x09 || n == 0x0A || n == 0x0D || (0x20 ≤ n && n ≤ 0x7E) || n == 0x85 ||
    (0xA0 ≤ n && n != 0xFFFE && n != 0xFFFF)

/-- Whether a word ends here: at a blank, at a line break or at the end of the text. -/
def endsWord : List Char → Bool
  | [] => true
  | c :: _ => isBlank c || isBreak c

def startsWithBreak : List Char → Bool
  | [] => false
  | c :: _ => isBreak c

/-- The place counts bytes from the start of the text, lines, and characters of the line. -/
structure Source where
  index : Nat
  line : Nat
  column : Nat
  rest : List Char

namespace Source

def ofText (text : List Char) : Source := ⟨0, 0, 0, text⟩

/-- Passes over characters of one line. -/
def skip (s : Source) (count : Nat) : Source :=
  { s with
    index := s.index + Text.byteSize (s.rest.take count)
    column := s.column + count
    rest := s.rest.drop count }

/-- Passes over the characters of one line that satisfy a predicate. -/
def skipWhile (s : Source) (p : Char → Bool) : Source := s.skip (s.rest.takeWhile p).length

/-- Goes on where `rest` begins, further on in the same line. -/
def skipTo (s : Source) (rest : List Char) : Source := s.skip (s.rest.length - rest.length)

/-- Passes over a line break, and tells what it stands for in a scalar. -/
def lineBreak? (s : Source) : Option (List Char × Source) :=
  let next (size : Nat) (rest : List Char) : Source := ⟨s.index + size, s.line + 1, 0, rest⟩
  match s.rest with
  | '\r' :: '\n' :: rest => some (['\n'], next 2 rest)
  | c :: rest =>
    if c = '\u2028' ∨ c = '\u2029' then some ([c], next c.utf8Size rest)
    else if isBreak c then some (['\n'], next c.utf8Size rest)
    else none
  | [] => none

def skipBreak (s : Source) : Source :=
  match s.lineBreak? with
  | some (_, s) => s
  | none => s

/-- Whether three marks that separate documents stand here alone. -/
def atDocumentMark (s : Source) : Bool :=
  s.column == 0 &&
    match s.rest with
    | '-' :: '-' :: '-' :: rest | '.' :: '.' :: '.' :: rest => endsWord rest
    | _ => false

end Source

/-- The blanks and line breaks between two stretches of a scalar. -/
structure Gap where
  blanks : List Char
  firstBreak : List Char
  moreBreaks : List Char
  broken : Bool

namespace Gap

/-- What the gap leaves in the scalar: blanks within a line stay, one line break becomes a space,
and of several the first is dropped. -/
def text (gap : Gap) : List Char :=
  if gap.broken then
    if gap.firstBreak.head? == some '\n' then
      if gap.moreBreaks.isEmpty then [' '] else gap.moreBreaks
    else gap.firstBreak ++ gap.moreBreaks
  else gap.blanks

/-- Reads the gap at the front of the source. Past a line break no tab may stand left of
`indent`. -/
def read? (indent : Nat) : (fuel : Nat) → Gap → Source → Option (Gap × Source)
  | 0, gap, s => some (gap, s)
  | fuel + 1, gap, s =>
    match s.rest with
    | [] => some (gap, s)
    | c :: _ =>
      if isBlank c then
        if gap.broken && decide (s.column < indent) && c == '\t' then none
        else
          read? indent fuel
            (if gap.broken then gap else { gap with blanks := gap.blanks ++ [c] }) (s.skip 1)
      else
        match s.lineBreak? with
        | none => some (gap, s)
        | some (mark, s) =>
          read? indent fuel
            (if gap.broken then { gap with moreBreaks := gap.moreBreaks ++ mark }
              else ⟨[], mark, [], true⟩) s

end Gap
end DocTemplate.Yaml
