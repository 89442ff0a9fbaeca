import DocTemplate.Decimal.Numeral
import DocTemplate.Yaml.Source
/-!
Quoted scalars: between single quotes only a quote is written twice, between double quotes stand
escapes.
-/
namespace DocTemplate.Yaml.Quoted

/-- The character with this code, unless the code is that of a surrogate or too large. -/
def scalar? (count : Nat) (text : List Char) : Option (Char × List Char) := do
  guard (count ≤ text.length)
  let n ← Decimal.natural? 16 (text.take count)
  guard (n < 0xD800 || (0xE000 ≤ n && n < 0x110000))
  some (Char.ofNat n, text.drop count)

/-- The character that an escape stands for, and what follows the escape. -/
def escape? : List Char → Option (Char × List Char)
  | [] => none
  | c :: rest =>
    match c with
    | '0' => some ('\x00', rest)
    | 'a' => some ('\x07', rest)
    | 'b' => some ('\x08', rest)
    | 't' | '\t' => some ('\t', rest)
    | 'n' => some ('\n', rest)
    | 'v' => some ('\x0b', rest)
    | 'f' => some ('\x0c', rest)
    | 'r' => some ('\r', rest)
    | 'e' => some ('\x1b', rest)
    | ' ' | '\x22' | '/' | '\\' => some (c, rest)
    | 'N' => some ('\u0085', rest)
    | '_' => some ('\u00a0', rest)
    | 'L' => some ('\u2028', rest)
    | 'P' => some ('\u2029', rest)
    | 'x' => scalar? 2 rest
    | 'u' => scalar? 4 rest
    | 'U' => scalar? 8 rest
    | _ => none

/-- The characters up to a blank, a line break, the closing quote or an escaped line break. -/
def stretch? (quote : Char) : (fuel : Nat) → List Char → Option (List Char × List Char)
  | 0, text => some ([], text)
  | _ + 1, [] => some ([], [])
  | fuel + 1, c :: rest =>
    if isBlank c || isBreak c then some ([], c :: rest)
    else if quote == '\x27' && c == '\x27' && rest.head? == some '\x27' then
      (stretch? quote fuel (rest.drop 1)).map fun (text, rest) => (c :: text, rest)
    else if c == quote then some ([], c :: rest)
    else if quote == '\x22' && c == '\\' then
      if startsWithBreak rest then some ([], c :: rest)
      else
        match escape? rest with
        | none => none
        | some (c, rest) =>
          (stretch? quote fuel rest).map fun (text, rest) => (c :: text, rest)
    else (stretch? quote fuel rest).map fun (text, rest) => (c :: text, rest)

/-- The scalar from here to its closing quote. A mark between documents may not stand in it. -/
def readFrom? (quote : Char) : (fuel : Nat) → Source → Option (List Char × Source)
  | 0, _ => none
  | fuel + 1, s =>
    if s.atDocumentMark || s.rest.isEmpty then none
    else
      match stretch? quote s.rest.length s.rest with
      | none => none
      | some (text, rest) =>
        let s := s.skipTo rest
        let (s, joined) := match s.rest with
          | '\\' :: _ => ((s.skip 1).skipBreak, true)
          | _ => (s, false)
        if s.rest.head? == some quote then some (text, s.skip 1)
        else
          match Gap.read? 0 s.rest.length ⟨[], [], [], joined⟩ s with
          | none => none
          | some (gap, s) =>
            (readFrom? quote fuel s).map fun (more, s) => (text ++ gap.text ++ more, s)

/-- The scalar behind an opening quote, and the source behind the closing one. -/
def read? (quote : Char) (s : Source) : Option (List Char × Source) :=
  readFrom? quote (s.rest.length + 1) s

end DocTemplate.Yaml.Quoted
