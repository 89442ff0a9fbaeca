import DocTemplate.Yaml.Source
/-!
Plain scalars: text without quotes, which may go on over several lines.
-/
namespace DocTemplate.Yaml.Plain

def isFlowMark (c : Char) : Bool := c == ',' || c == '[' || c == ']' || c == '\x7b' || c == '\x7d'

/-- The characters up to a blank, a line break or a mark that ends the scalar. Inside brackets a
colon must not stand before another mark. -/
def word? (inFlow : Bool) : List Char → Option (List Char × List Char)
  | [] => some ([], [])
  | c :: rest =>
    if isBlank c || isBreak c then some ([], c :: rest)
    else if c = ':' then
      if inFlow && (rest.head?.any fun next => isFlowMark next || next == '?') then none
      else if endsWord rest then some ([], c :: rest)
      else (word? inFlow rest).map fun (word, rest) => (c :: word, rest)
    else if inFlow && isFlowMark c then some ([], c :: rest)
    else (word? inFlow rest).map fun (word, rest) => (c :: word, rest)

/-- The scalar from here on, the source behind it, and whether a line was ended last. Before the
next word stands `gap`. -/
def read? (inFlow : Bool) (indent : Nat) :
    (fuel : Nat) → Gap → Source → Option (List Char × Source × Bool)
  | 0, _, _ => none
  | fuel + 1, gap, s =>
    if s.atDocumentMark || s.rest.head? == some '#' then some ([], s, gap.broken)
    else
      match word? inFlow s.rest with
      | none => none
      | some (word, rest) =>
        let found := if word.isEmpty then [] else gap.text ++ word
        let broken := if word.isEmpty then gap.broken else false
        let s := s.skipTo rest
        if s.rest.isEmpty || !endsWord s.rest then some (found, s, broken)
        else
          match Gap.read? indent s.rest.length ⟨[], [], [], false⟩ s with
          | none => none
          | some (next, s) =>
            if !inFlow && decide (s.column < indent) then some (found, s, next.broken)
            else
              (read? inFlow indent fuel next s).map fun (more, s, broken) =>
                (found ++ more, s, broken)

end DocTemplate.Yaml.Plain
