import DocTemplate.Decimal.Numeral
import DocTemplate.Text.Alphanumeric
import DocTemplate.Text.Search
/-!
Which texts are patterns, that is regular expressions without references back, without looking
around, and without counted repetition.
-/
namespace DocTemplate.Command.Log.Pattern

/-- What a character or an escape stands for: itself, any of a kind, or a place in the text. -/
inductive Primitive where
  | letter (c : Char)
  | kind
  | place

/-- The character with a number in so many hexadecimal digits. -/
def hexadecimal? (digits : Nat) (text : List Char) : Option (Primitive × List Char) :=
  let number := text.take digits
  if number.length < digits then none
  else
    match Decimal.natural? 16 number with
    | some n => if n.isValidChar then some (.letter (.ofNat n), text.drop digits) else none
    | none => none

/-- Controls that have a letter for their escape. -/
def controls : List (Char × Char) :=
  [('a', '\x07'), ('f', '\x0c'), ('n', '\n'), ('r', '\r'), ('t', '\t'), ('v', '\x0b')]

/-- What follows a backslash. Categories of characters have one letter; the edges of words are
refused. -/
def escape? : List Char → Option (Primitive × List Char)
  | [] => none
  | c :: rest =>
    match controls.lookup c, c, rest with
    | some control, _, _ => some (.letter control, rest)
    | none, 'x', _ => hexadecimal? 2 rest
    | none, 'u', _ => hexadecimal? 4 rest
    | none, 'U', _ => hexadecimal? 8 rest
    | none, 'p', category :: rest | none, 'P', category :: rest =>
      if "clmnpsz".toList.contains category.toLower then some (.kind, rest) else none
    | none, _, _ =>
      if "dswDSW".toList.contains c then some (.kind, rest)
      else if c == 'A' || c == 'z' then some (.place, rest)
      else if c.toNat < 0x80 && !c.isAlphanum && c != '<' && c != '>' then some (.letter c, rest)
      else none

/-- One member of a set: a character or an escape. -/
def member? : List Char → Option (Primitive × List Char)
  | [] => none
  | '\\' :: rest => escape? rest
  | c :: rest => some (.letter c, rest)

/-- What follows the opening bracket of a set: a caret turns it around, hyphens there are members,
and so is a closing bracket that comes first. -/
def openSet (text : List Char) : List Char :=
  let text := (Text.after? ['^'] text).getD text
  match text with
  | '-' :: _ => text.dropWhile (· == '-')
  | ']' :: rest => rest
  | _ => text

def classNames : List String :=
  ["alnum", "alpha", "ascii", "blank", "cntrl", "digit", "graph", "lower", "print", "punct",
   "space", "upper", "word", "xdigit"]

/-- What follows a named class such as `[:alpha:]`, if its inner part begins the text. -/
def afterClass? (text : List Char) : Option (List Char) := do
  let text ← Text.after? [':'] text
  let text := (Text.after? ['^'] text).getD text
  let name := text.takeWhile (· != ':')
  let rest ← Text.after? [':', ']'] (text.drop name.length)
  if classNames.contains (String.ofList name) then some rest else none

/-- What follows a set in which `inner` sets are open. The first argument bounds the steps. -/
def afterSet? : Nat → (inner : Nat) → List Char → Option (List Char)
  | 0, _, _ | _, _, [] => none
  | steps + 1, inner, '[' :: rest =>
    match afterClass? rest with
    | some rest => afterSet? steps inner rest
    | none => afterSet? steps (inner + 1) (openSet rest)
  | steps + 1, inner, ']' :: rest =>
    if inner = 0 then some rest else afterSet? steps (inner - 1) rest
  | steps + 1, inner, '&' :: '&' :: rest | steps + 1, inner, '-' :: '-' :: rest
  | steps + 1, inner, '~' :: '~' :: rest => afterSet? steps inner rest
  | steps + 1, inner, text => do
    let (first, rest) ← member? text
    match first, rest with
    | .place, _ => none
    | _, '-' :: ']' :: _ | _, '-' :: '-' :: _ => afterSet? steps inner rest
    | _, '-' :: more =>
      match first, ← member? more with
      | .letter a, (.letter b, rest) => if a ≤ b then afterSet? steps inner rest else none
      | _, _ => none
    | _, _ => afterSet? steps inner rest

/-- Flags are letters, each at most once, and at most one hyphen in front of the last of them. -/
def areFlags (flags : List Char) : Bool :=
  flags.all "imsUuRx-".toList.contains && decide flags.Nodup && flags.getLast? != some '-'

/-- The name of a group begins with a letter or a low line. -/
def isGroupName : List Char → Bool
  | [] => false
  | first :: more =>
    (first == '_' || (Text.isAlphanumeric first && !first.isDigit)) &&
      more.all fun c => "_.[]".toList.contains c || Text.isAlphanumeric c

/-- What follows the opening parenthesis of a group and the name or flags of the group, and whether
the group is still open there. -/
def openGroup? : List Char → Option (Bool × List Char)
  | '?' :: rest =>
    match Text.after? ['P', '<'] rest <|> Text.after? ['<'] rest with
    | some named =>
      let name := named.takeWhile (· != '>')
      if isGroupName name && named.contains '>' then some (true, named.drop (name.length + 1))
      else none
    | none =>
      let flags := rest.takeWhile fun c => c != ':' && c != ')'
      if !areFlags flags then none
      else
        match rest.drop flags.length with
        | ':' :: rest => some (true, rest)
        | ')' :: rest => if flags.isEmpty then none else some (false, rest)
        | _ => none
  | rest => some (true, rest)

/-- Whether a pattern goes on like this, with so many groups open and, in front, something to
repeat or not. The first argument bounds the steps. -/
def goesOn : Nat → (groups : Nat) → (repeatable : Bool) → List Char → Bool
  | 0, _, _, _ => false
  | _, groups, _, [] => groups = 0
  | steps + 1, groups, repeatable, c :: rest =>
    match c with
    | '(' =>
      match openGroup? rest with
      | some (isOpen, rest) => goesOn steps (if isOpen then groups + 1 else groups) false rest
      | none => false
    | ')' => 0 < groups && goesOn steps (groups - 1) true rest
    | '|' => goesOn steps groups false rest
    | '[' =>
      match afterSet? (rest.length + 1) 0 (openSet rest) with
      | some rest => goesOn steps groups true rest
      | none => false
    | '?' | '*' | '+' => repeatable && goesOn steps groups true rest
    | '\x7b' => false
    | '\\' =>
      match escape? rest with
      | some (_, rest) => goesOn steps groups true rest
      | none => false
    | _ => goesOn steps groups true rest

end Pattern

def isPattern (text : List Char) : Bool := Pattern.goesOn (text.length + 1) 0 false text

end DocTemplate.Command.Log
