import DocTemplate.Yaml.Source
/-!
Block scalars: indented lines that are kept as they stand, or folded into longer ones.
-/
namespace DocTemplate.Yaml.Block

/-- What happens to the line breaks at the end of the scalar. -/
inductive Chomping where
  | strip
  | clip
  | keep
deriving DecidableEq

structure Header where
  chomping : Chomping
  indentation : Option Nat

def chomping? : Char → Option Chomping
  | '-' => some .strip
  | '+' => some .keep
  | _ => none

/-- An indentation of one to nine, if a digit stands here. Zero is refused. -/
def indentation? : List Char → Option (Option Nat × List Char)
  | c :: rest =>
    if c.isDigit then if c = '0' then none else some (some (c.toNat - '0'.toNat), rest)
    else some (none, c :: rest)
  | [] => some (none, [])

/-- The two indicators behind the first mark, in either order. -/
def header? (text : List Char) : Option (Header × List Char) := do
  match text.head?.bind chomping? with
  | some chomping =>
    let (indentation, rest) ← indentation? text.tail
    some (⟨chomping, indentation⟩, rest)
  | none =>
    let (indentation, rest) ← indentation? text
    match indentation, rest.head?.bind chomping? with
    | some _, some chomping => some (⟨chomping, indentation⟩, rest.tail)
    | _, _ => some (⟨.clip, indentation⟩, rest)

/-- Passes over indentation and empty lines. Returned are the line breaks and the widest column
that was seen. While `indent` is zero it is not known, and all spaces are indentation. -/
def breaks? (indent : Nat) : (fuel widest : Nat) → Source → Option (List Char × Nat × Source)
  | 0, _, _ => none
  | fuel + 1, widest, s =>
    let spaces := (s.rest.takeWhile (· == ' ')).length
    let s := s.skip (if indent = 0 then spaces else min spaces (indent - s.column))
    let widest := max widest s.column
    if (indent = 0 ∨ s.column < indent) ∧ s.rest.head? = some '\t' then none
    else
      match s.lineBreak? with
      | none => some ([], widest, s)
      | some (mark, s) =>
        (breaks? indent fuel widest s).map fun (more, widest, s) => (mark ++ more, widest, s)

/-- The parts of a scalar: its text, the break after its last line, and the breaks after that. -/
structure Body where
  text : List Char
  lastBreak : List Char
  emptyLines : List Char

/-- Reads the lines that are indented by `indent`. In front of the next line stand `lastBreak`
and `empty`; between two lines that begin with no blank a folded scalar has a space instead. -/
def lines? (folded : Bool) (indent : Nat) :
    (fuel : Nat) → (lastBreak : List Char) → (lastBlank : Bool) → (empty : List Char) →
    Source → Option (Body × Source)
  | 0, _, _, _, _ => none
  | fuel + 1, lastBreak, lastBlank, empty, s =>
    if s.column != indent || s.rest.isEmpty then some (⟨[], lastBreak, empty⟩, s)
    else
      let blank := s.rest.head?.any isBlank
      let fold := folded && lastBreak.head? == some '\n' && !lastBlank && !blank
      let glue := if fold then (if empty.isEmpty then [' '] else empty) else lastBreak ++ empty
      let line := s.rest.takeWhile fun c => !isBreak c
      let s := s.skip line.length
      let (lastBreak, s) := (s.lineBreak?).getD ([], s)
      match breaks? indent (s.rest.length + 1) 0 s with
      | none => none
      | some (empty, _, s) =>
        (lines? folded indent fuel lastBreak blank empty s).map fun (body, s) =>
          ({ body with text := glue ++ line ++ body.text }, s)

/-- The scalar behind its first mark, inside a block that is indented by `parent`, which is below
zero outside of all blocks. -/
def read? (folded : Bool) (parent : Int) (s : Source) : Option (List Char × Source) := do
  let (header, rest) ← header? s.rest
  let s := (s.skipTo rest).skipWhile isBlank
  let s := if s.rest.head? == some '#' then s.skipWhile fun c => !isBreak c else s
  guard (s.rest.isEmpty || startsWithBreak s.rest)
  let s := s.skipBreak
  let given : Nat := match header.indentation with
    | some n => if 0 ≤ parent then parent.toNat + n else n
    | none => 0
  let (empty, widest, s) ← breaks? given (s.rest.length + 1) 0 s
  let indent := if given = 0 then max (max widest (parent + 1).toNat) 1 else given
  let (body, s) ← lines? folded indent (s.rest.length + 1) [] false empty s
  let ending := match header.chomping with
    | .strip => []
    | .clip => body.lastBreak
    | .keep => body.lastBreak ++ body.emptyLines
  some (body.text ++ ending, s)

end DocTemplate.Yaml.Block
