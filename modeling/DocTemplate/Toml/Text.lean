import DocTemplate.Decimal.Numeral
/-!
TOML text: blanks, line ends and comments, the four kinds of strings, and keys.
-/
namespace DocTemplate.Toml

def isBlank (c : Char) : Bool := c == ' ' || c == '\t'

/-- Characters that may stand in comments and between quotes: no control character but the tab. -/
def isPrintable (c : Char) : Bool := c == '\t' || (0x20 ≤ c.toNat && c.toNat != 0x7F)

def skipBlanks (text : List Char) : List Char := text.dropWhile isBlank

def newline? : List Char → Option (List Char)
  | '\n' :: rest => some rest
  | '\r' :: '\n' :: rest => some rest
  | _ => none

/-- The text without a comment at its front. -/
def skipComment : List Char → List Char
  | '#' :: rest => rest.dropWhile isPrintable
  | text => text

/-- Blanks and a comment up to the end of the line, and the lines after it. -/
def lineEnd? (text : List Char) : Option (List Char) :=
  match skipComment (skipBlanks text) with
  | [] => some []
  | rest => newline? rest

/-- Skips blanks, comments and ends of lines. -/
def skipLines (inComment : Bool) : List Char → List Char
  | '\r' :: '\n' :: rest => skipLines false rest
  | c :: rest =>
    if c = '\n' then skipLines false rest
    else if inComment then if isPrintable c then skipLines true rest else c :: rest
    else if isBlank c then skipLines false rest
    else if c = '#' then skipLines true rest
    else c :: rest
  | [] => []

/-- The character with this code, unless the code is that of a surrogate or too large. -/
def scalar? (digits : List Char) : Option Char := do
  let n ← Decimal.natural? 16 digits
  if h : n.isValidChar then some ⟨n.toUInt32, by
    have : n < 4294967296 := by unfold Nat.isValidChar at h; omega
    simpa [UInt32.isValidChar, Nat.toUInt32, UInt32.toNat_ofNat_of_lt' this] using h⟩
  else none

/-- The character that an escape stands for, and what follows the escape. -/
def escape? : List Char → Option (Char × List Char)
  | 'b' :: rest => some ('\x08', rest)
  | 't' :: rest => some ('\t', rest)
  | 'n' :: rest => some ('\n', rest)
  | 'f' :: rest => some ('\x0c', rest)
  | 'r' :: rest => some ('\r', rest)
  | '\x22' :: rest => some ('\x22', rest)
  | '\\' :: rest => some ('\\', rest)
  | 'u' :: rest => do
    guard (4 ≤ rest.length)
    some (← scalar? (rest.take 4), rest.drop 4)
  | 'U' :: rest => do
    guard (8 ≤ rest.length)
    some (← scalar? (rest.take 8), rest.drop 8)
  | _ => none

/-- A string on one line, with escapes, from behind its opening quote. -/
def basicString? : (fuel : Nat) → List Char → Option (List Char × List Char)
  | 0, _ => none
  | _ + 1, [] => none
  | _ + 1, '\x22' :: rest => some ([], rest)
  | fuel + 1, '\\' :: rest => do
    let (c, rest) ← escape? rest
    let (text, rest) ← basicString? fuel rest
    some (c :: text, rest)
  | fuel + 1, c :: rest => do
    guard (isPrintable c)
    let (text, rest) ← basicString? fuel rest
    some (c :: text, rest)

/-- A string on one line in which every character stands for itself. -/
def literalString? : List Char → Option (List Char × List Char)
  | [] => none
  | '\x27' :: rest => some ([], rest)
  | c :: rest => do
    guard (isPrintable c)
    let (text, rest) ← literalString? rest
    some (c :: text, rest)

/-- The end of a string between triple quotes: one or two quotes before the last three belong to
the string. -/
def closing? (quote : Char) : List Char → Option (List Char × List Char)
  | a :: b :: c :: rest =>
    if a = quote ∧ b = quote ∧ c = quote then
      match rest with
      | d :: e :: more =>
        if d = quote ∧ e = quote then some ([quote, quote], more)
        else if d = quote then some ([quote], e :: more)
        else some ([], rest)
      | [d] => if d = quote then some ([quote], []) else some ([], rest)
      | [] => some ([], [])
    else none
  | _ => none

def skipFirstNewline (text : List Char) : List Char := (newline? text).getD text

/-- Skips blanks and ends of lines. -/
def skipBlankLines (text : List Char) : List Char :=
  match text with
  | ' ' :: rest | '\t' :: rest | '\n' :: rest | '\r' :: '\n' :: rest => skipBlankLines rest
  | _ => text

/-- A string over several lines, with escapes. A backslash at the end of a line joins the next
text to it. -/
def basicLines? : (fuel : Nat) → List Char → Option (List Char × List Char)
  | 0, _ => none
  | fuel + 1, text =>
    match closing? '\x22' text with
    | some found => some found
    | none =>
      match text with
      | [] => none
      | '\\' :: rest =>
        match newline? (skipBlanks rest) with
        | some more => basicLines? fuel (skipBlankLines more)
        | none => do
          let (c, rest) ← escape? rest
          let (text, rest) ← basicLines? fuel rest
          some (c :: text, rest)
      | c :: rest =>
        match newline? text with
        | some more => do
          let (text, rest) ← basicLines? fuel more
          some ('\n' :: text, rest)
        | none => do
          guard (isPrintable c)
          let (text, rest) ← basicLines? fuel rest
          some (c :: text, rest)

/-- A string over several lines in which every character stands for itself. -/
def literalLines? : (fuel : Nat) → List Char → Option (List Char × List Char)
  | 0, _ => none
  | fuel + 1, text =>
    match closing? '\x27' text with
    | some found => some found
    | none =>
      match newline? text, text with
      | some more, _ => do
        let (text, rest) ← literalLines? fuel more
        some ('\n' :: text, rest)
      | none, c :: rest => do
        guard (isPrintable c)
        let (text, rest) ← literalLines? fuel rest
        some (c :: text, rest)
      | none, [] => none

/-- A string of any of the four kinds, from its first quote on. -/
def string? (text : List Char) : Option (String × List Char) :=
  let found := match text with
    | '\x22' :: '\x22' :: '\x22' :: rest => basicLines? (rest.length + 1) (skipFirstNewline rest)
    | '\x22' :: rest => basicString? (rest.length + 1) rest
    | '\x27' :: '\x27' :: '\x27' :: rest =>
      literalLines? (rest.length + 1) (skipFirstNewline rest)
    | '\x27' :: rest => literalString? rest
    | _ => none
  found.map fun (chars, rest) => (String.ofList chars, rest)

def isBare (c : Char) : Bool := c.isAlphanum || c == '_' || c == '-'

/-- One part of a key: bare, or a string on one line. -/
def keyPart? (text : List Char) : Option (String × List Char) :=
  match text with
  | '\x22' :: rest =>
    (basicString? (rest.length + 1) rest).map fun (chars, rest) => (String.ofList chars, rest)
  | '\x27' :: rest => (literalString? rest).map fun (chars, rest) => (String.ofList chars, rest)
  | _ =>
    if (text.takeWhile isBare).isEmpty then none
    else some (String.ofList (text.takeWhile isBare), text.dropWhile isBare)

/-- The parts of a dotted key, with the blanks around them. -/
def keyParts? : (fuel : Nat) → List Char → Option (List String × List Char)
  | 0, _ => none
  | fuel + 1, text => do
    let (part, rest) ← keyPart? (skipBlanks text)
    match skipBlanks rest with
    | '.' :: more =>
      let (parts, rest) ← keyParts? fuel more
      some (part :: parts, rest)
    | rest => some ([part], rest)

/-- A key has fewer than eighty parts. -/
def key? (text : List Char) : Option (List String × List Char) := do
  let (parts, rest) ← keyParts? (text.length + 1) text
  guard (parts.length < 80)
  some (parts, rest)

end DocTemplate.Toml
