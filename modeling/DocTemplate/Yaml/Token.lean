import DocTemplate.Yaml.Block
import DocTemplate.Yaml.Plain
import DocTemplate.Yaml.Quoted
/-!
Tokens of a YAML text. Indentation opens and closes blocks, and a colon makes a key of what stood
before it in the same line.
-/
namespace DocTemplate.Yaml

inductive Token where
  | version (major minor : Nat)
  | tagHandle (handle start : String)
  | documentStart
  | documentEnd
  | streamEnd
  | sequenceStart
  | mappingStart
  | blockEnd
  | flowSequenceStart
  | flowSequenceEnd
  | flowMappingStart
  | flowMappingEnd
  | flowEntry
  | blockEntry
  | key
  | value
  | alias (name : String)
  | anchor (name : String)
  | tag (handle suffix : String)
  | scalar (text : String) (plain : Bool)
deriving DecidableEq

/-- A place where a key may have begun: the number of tokens before it, and where it stands. It is
required where a block goes on and nothing but a key can stand. -/
structure KeyStart where
  required : Bool
  tokens : Nat
  index : Nat
  line : Nat
  column : Nat

/-- The tokens read so far, the last one first; the indentation of the open blocks, the innermost
one first; and for each level of brackets the place where a key may have begun. -/
structure Lexer where
  source : Source
  tokens : List Token
  count : Nat
  indent : Int
  indents : List Int
  keys : List (Option KeyStart)
  keyAllowed : Bool

namespace Lexer

def start (text : List Char) : Lexer := ⟨.ofText text, [], 0, -1, [], [none], true⟩

def inFlow (l : Lexer) : Bool := 1 < l.keys.length

def push (l : Lexer) (token : Token) : Lexer :=
  { l with tokens := token :: l.tokens, count := l.count + 1 }

/-- Puts a token behind the first `before` tokens. -/
def insertAt (l : Lexer) (before : Nat) (token : Token) : Lexer :=
  { l with tokens := l.tokens.insertIdx (l.count - before) token, count := l.count + 1 }

def skip (l : Lexer) (count : Nat) : Lexer := { l with source := l.source.skip count }

def allowKey (l : Lexer) (allowed : Bool) : Lexer := { l with keyAllowed := allowed }

/-- Passes over blanks, comments and line breaks. A line break outside of brackets lets a key
begin; before one, tabs are no indentation. A byte order mark may begin a line; like a space it
takes a column. -/
def skipToToken : (fuel : Nat) → Lexer → Lexer
  | 0, l => l
  | fuel + 1, l =>
    let s := l.source
    let s := if s.column == 0 && s.rest.head? == some '\ufeff' then s.skip 1 else s
    let s := s.skipWhile fun c => c == ' ' || ((l.inFlow || !l.keyAllowed) && c == '\t')
    let s := if s.rest.head? == some '#' then s.skipWhile fun c => !isBreak c else s
    match s.lineBreak? with
    | some (_, s) =>
      skipToToken fuel { l with source := s, keyAllowed := l.keyAllowed || !l.inFlow }
    | none => { l with source := s }

/-- A key stands in one line and takes at most 1024 bytes. A place that is too far back is
forgotten, unless a key had to stand there. -/
def dropStaleKeys? (l : Lexer) : Option Lexer := do
  let keys ← l.keys.mapM fun (key : Option KeyStart) =>
    match key with
    | none => some none
    | some key =>
      if key.line < l.source.line ∨ key.index + 1024 < l.source.index then
        if key.required then none else some none
      else some (some key)
  some { l with keys }

/-- Forgets the place where a key may have begun on this level. -/
def dropKey? (l : Lexer) : Option Lexer :=
  match l.keys with
  | some key :: more => if key.required then none else some { l with keys := none :: more }
  | _ => some l

/-- Remembers that a key may begin here, if one may. -/
def saveKey? (l : Lexer) : Option Lexer :=
  if l.keyAllowed then do
    let l ← l.dropKey?
    let s := l.source
    let key : KeyStart :=
      ⟨!l.inFlow && l.indent == s.column, l.count, s.index, s.line, s.column⟩
    some { l with keys := some key :: l.keys.tail }
  else some l

/-- Closes the blocks that are indented further than `column`. -/
def closeBlocks (column : Int) : List Int → Lexer → Lexer
  | [], l => l
  | outer :: more, l =>
    if column < l.indent then
      closeBlocks column more { l.push .blockEnd with indent := outer, indents := more }
    else l

def unindent (l : Lexer) (column : Int) : Lexer :=
  if l.inFlow then l else closeBlocks column l.indents l

/-- Opens a block at a column behind the first `before` tokens, if it is indented further than the
block around it. -/
def openBlock (l : Lexer) (column before : Nat) (token : Token) : Lexer :=
  if !l.inFlow && decide (l.indent < column) then
    { l.insertAt before token with indent := column, indents := l.indent :: l.indents }
  else l

def streamEnd? (l : Lexer) : Option Lexer := do
  let l ← (l.unindent (-1)).dropKey?
  some (l.push .streamEnd)

/-- A number of at most nine digits. -/
def versionNumber? (text : List Char) : Option (Nat × List Char) := do
  let digits := text.takeWhile Char.isDigit
  guard (digits.length ≤ 9)
  some (← Decimal.natural? 10 digits, text.dropWhile Char.isDigit)

/-- Characters of the address in a tag. Commas and brackets may stand only between angle
brackets. -/
def isTagChar (quoted : Bool) (c : Char) : Bool :=
  isWord c || ";/?:@&=+$.%!~*\x27()".toList.contains c || (quoted && ",[]".toList.contains c)

/-- The character of a UTF-8 sequence, each byte written as a percent sign and two digits. -/
def percent? (text : List Char) : Option (Char × List Char) := do
  let byte? (text : List Char) : Option (UInt8 × List Char) :=
    match text with
    | '%' :: a :: b :: rest => (Decimal.natural? 16 [a, b]).map fun n => (n.toUInt8, rest)
    | _ => none
  let (first, rest) ← byte? text
  let count := if first < 0x80 then 0 else if first < 0xC0 then 4 else
    if first < 0xE0 then 1 else if first < 0xF0 then 2 else if first < 0xF8 then 3 else 4
  guard (count < 4)
  let (bytes, rest) ← (List.range count).foldlM (fun (bytes, rest) _ => do
    let (byte, rest) ← byte? rest
    some (bytes ++ [byte], rest)) ([first], rest)
  let text ← String.fromUTF8? (ByteArray.mk bytes.toArray)
  some (← text.toList.head?, rest)

/-- The address at the front of the text. -/
def address? (quoted : Bool) : (fuel : Nat) → List Char → Option (List Char × List Char)
  | 0, text => some ([], text)
  | _ + 1, [] => some ([], [])
  | fuel + 1, c :: rest =>
    if !isTagChar quoted c then some ([], c :: rest)
    else
      match if c = '%' then percent? (c :: rest) else some (c, rest) with
      | none => none
      | some (c, rest) => (address? quoted fuel rest).map fun (more, rest) => (c :: more, rest)

/-- A handle: an exclamation mark, and possibly a word and another one. -/
def handle? (text : List Char) : Option (List Char × List Char) :=
  match text with
  | '!' :: rest =>
    let word := rest.takeWhile isWord
    match rest.dropWhile isWord with
    | '!' :: rest => some ('!' :: word ++ ['!'], rest)
    | rest => some ('!' :: word, rest)
  | _ => none

/-- A directive: the version of the format, or a handle for tags. -/
def directive? (l : Lexer) : Option Lexer := do
  let l ← (l.unindent (-1)).dropKey?
  let text := l.source.rest.tail
  let rest := text.dropWhile isWord
  let (token, rest) ← match String.ofList (text.takeWhile isWord) with
    | "YAML" => do
      let (major, rest) ← versionNumber? (rest.dropWhile isBlank)
      guard (rest.head? == some '.')
      let (minor, rest) ← versionNumber? rest.tail
      some (Token.version major minor, rest)
    | "TAG" => do
      guard (rest.head?.any isBlank)
      let (handle, rest) ← handle? (rest.dropWhile isBlank)
      guard ((handle == ['!'] || handle.getLast? == some '!') && rest.head?.any isBlank)
      let rest := rest.dropWhile isBlank
      let (start, rest) ← address? true rest.length rest
      guard (!start.isEmpty && endsWord rest)
      some (Token.tagHandle (String.ofList handle) (String.ofList start), rest)
    | _ => none
  let rest := rest.dropWhile isBlank
  let rest := if rest.head? == some '#' then rest.dropWhile fun c => !isBreak c else rest
  guard (rest.isEmpty || startsWithBreak rest)
  some (({ l with source := (l.source.skipTo rest).skipBreak }.allowKey false).push token)

def documentMark? (l : Lexer) (token : Token) : Option Lexer := do
  let l ← (l.unindent (-1)).dropKey?
  some ((l.allowKey false).skip 3 |>.push token)

def openFlow? (l : Lexer) (token : Token) : Option Lexer := do
  let l ← l.saveKey?
  some (({ l with keys := none :: l.keys, keyAllowed := true }.skip 1).push token)

def closeFlow? (l : Lexer) (token : Token) : Option Lexer := do
  let l ← l.dropKey?
  let keys := if l.inFlow then l.keys.tail else l.keys
  some (({ l with keys, keyAllowed := false }.skip 1).push token)

def flowEntry? (l : Lexer) : Option Lexer := do
  let l ← l.dropKey?
  some ((l.allowKey true).skip 1 |>.push .flowEntry)

/-- An item of a block, or its explicit key. Outside of brackets either begins a line or stands
behind another one. -/
def blockMark? (l : Lexer) (block token : Token) (keyAllowed : Bool) : Option Lexer := do
  guard (l.inFlow || l.keyAllowed)
  let l ← (l.openBlock l.source.column l.count block).dropKey?
  some ((l.allowKey keyAllowed).skip 1 |>.push token)

/-- A colon. If a key may have begun before, it was one, and a block may begin with it. -/
def value? (l : Lexer) : Option Lexer :=
  match l.keys with
  | some key :: more =>
    let l := (l.insertAt key.tokens .key).openBlock key.column key.tokens .mappingStart
    some (({ l with keys := none :: more, keyAllowed := false }.skip 1).push .value)
  | _ =>
    if !l.inFlow && !l.keyAllowed then none
    else
      let l := l.openBlock l.source.column l.count .mappingStart
      some ((l.allowKey !l.inFlow).skip 1 |>.push .value)

/-- The name behind the mark of an anchor or alias. -/
def reference? (l : Lexer) (token : String → Token) : Option Lexer := do
  let l ← l.saveKey?
  let text := l.source.rest.tail
  let name := text.takeWhile isWord
  let rest := text.dropWhile isWord
  guard (!name.isEmpty && (endsWord rest || rest.head?.any "?:,]\x7d%@\x60".toList.contains))
  some (({ l with source := l.source.skipTo rest }.allowKey false).push
    (token (String.ofList name)))

/-- The parts of a tag: a handle and what follows it. Between angle brackets, and for the mark
alone, there is no handle. -/
def tagParts? (text : List Char) : Option (String × String × List Char) :=
  match text with
  | '!' :: '<' :: rest => do
    let (suffix, rest) ← address? true rest.length rest
    guard (!suffix.isEmpty && rest.head? == some '>')
    some ("", String.ofList suffix, rest.tail)
  | _ => do
    let (handle, rest) ← handle? text
    let (suffix, rest) ← address? false rest.length rest
    if 1 < handle.length && handle.getLast? == some '!' then do
      guard (!suffix.isEmpty)
      some (String.ofList handle, String.ofList suffix, rest)
    else if handle.length == 1 && suffix.isEmpty then some ("", "!", rest)
    else some ("!", String.ofList (handle.tail ++ suffix), rest)

def tag? (l : Lexer) : Option Lexer := do
  let l ← l.saveKey?
  let (handle, suffix, rest) ← tagParts? l.source.rest
  guard (endsWord rest || (l.inFlow && rest.head? == some ','))
  some (({ l with source := l.source.skipTo rest }.allowKey false).push (.tag handle suffix))

def blockScalar? (l : Lexer) (folded : Bool) : Option Lexer := do
  let l ← l.dropKey?
  let (text, source) ← Block.read? folded l.indent (l.source.skip 1)
  some (({ l with source }.allowKey true).push (.scalar (String.ofList text) false))

def quotedScalar? (l : Lexer) (quote : Char) : Option Lexer := do
  let l ← l.saveKey?
  let (text, source) ← Quoted.read? quote (l.source.skip 1)
  some (({ l with source }.allowKey false).push (.scalar (String.ofList text) false))

/-- A key may begin behind a plain scalar that ended with its line. -/
def plainScalar? (l : Lexer) : Option Lexer := do
  let l ← l.saveKey?
  let (text, source, broken) ← Plain.read? l.inFlow (l.indent + 1).toNat
    (l.source.rest.length + 1) ⟨[], [], [], false⟩ l.source
  some (({ l with source }.allowKey broken).push (.scalar (String.ofList text) true))

/-- Blanks, and marks that can begin no plain scalar, apart from three that can if a word follows
them. -/
def isIndicator (c : Char) : Bool :=
  isBlank c || "-?:,[]\x7b\x7d#&*!|>\x27\x22%@\x60".toList.contains c

/-- The token that begins with the next characters. -/
def next? (l : Lexer) : Option Lexer :=
  let s := l.source
  if s.column == 0 && s.rest.head? == some '%' then l.directive?
  else if s.atDocumentMark then
    l.documentMark? (if s.rest.head? == some '-' then .documentStart else .documentEnd)
  else
    match s.rest with
    | [] => none
    | c :: rest =>
      if c = '[' then l.openFlow? .flowSequenceStart
      else if c = '\x7b' then l.openFlow? .flowMappingStart
      else if c = ']' then l.closeFlow? .flowSequenceEnd
      else if c = '\x7d' then l.closeFlow? .flowMappingEnd
      else if c = ',' then l.flowEntry?
      else if c = '-' ∧ endsWord rest then l.blockMark? .sequenceStart .blockEntry true
      else if c = '?' ∧ (l.inFlow ∨ endsWord rest) then
        l.blockMark? .mappingStart .key (!l.inFlow)
      else if c = ':' ∧ (l.inFlow ∨ endsWord rest) then l.value?
      else if c = '*' then l.reference? .alias
      else if c = '&' then l.reference? .anchor
      else if c = '!' then l.tag?
      else if c = '|' ∧ ¬l.inFlow then l.blockScalar? false
      else if c = '>' ∧ ¬l.inFlow then l.blockScalar? true
      else if c = '\x27' ∨ c = '\x22' then l.quotedScalar? c
      else if !isIndicator c || (c == '-' && !rest.head?.any isBlank) ||
          (!l.inFlow && (c == '?' || c == ':') && !endsWord rest) then l.plainScalar?
      else none

/-- Reads tokens to the end of the text. Each takes at least one character. -/
def run? : (fuel : Nat) → Lexer → Option Lexer
  | 0, _ => none
  | fuel + 1, l => do
    let l ← (l.skipToToken (l.source.rest.length + 1)).dropStaleKeys?
    let l := l.unindent l.source.column
    if l.source.rest.isEmpty then l.streamEnd? else run? fuel (← l.next?)

end Lexer

def Token.ofText? (text : String) : Option (List Token) := do
  let chars := text.toList
  guard (chars.all isAllowed)
  let l ← Lexer.run? (chars.length + 1) (.start chars)
  some l.tokens.reverse

end DocTemplate.Yaml
