import DocTemplate.Decimal.Numeral
import DocTemplate.Json.Basic
/-!
JSON text as it is written, before numbers and strings are given a meaning: fields in the order of
the text, repeated names included. A text can be well written and still mean no value.
-/
namespace DocTemplate

/-- A character of a string, or the 16-bit code that an escape stands for. -/
inductive StringPart where
  | plain (c : Char)
  | code (n : Nat)

/-- A number with its sign, the digits on both sides of the point, and its exponent. -/
structure WrittenNumber where
  negative : Bool
  whole : List Char
  places : Option (List Char)
  exponent : Option Int

inductive Written where
  | null
  | boolean (value : Bool)
  | number (value : WrittenNumber)
  | string (parts : List StringPart)
  | array (items : List Written)
  | object (fields : List (List StringPart × Written))

namespace WrittenNumber

def isInteger (number : WrittenNumber) : Bool := number.places.isNone && number.exponent.isNone

/-- Minus zero and integers of more than 64 bits are floats. A float beyond the range of the
format is no number. -/
def value? (number : WrittenNumber) : Option Number := do
  let places := number.places.getD []
  let digits ← Decimal.natural? 10 (number.whole ++ places)
  let whole : Int := if number.negative then -(digits : Int) else digits
  let integer := if number.negative && digits == 0 then none else Number.ofInt? whole
  match number.isInteger, integer with
  | true, some integer => some integer
  | _, _ =>
    let exponent := number.exponent.getD 0 - places.length
    match Decimal.Double.ofDecimal number.negative digits exponent with
    | .finite x => some (.float x)
    | _ => none

/-- The places behind a point, if one is given; there must be a digit behind it. -/
def readPlaces? : List Char → Option (Option (List Char) × List Char)
  | '.' :: rest =>
    if (rest.takeWhile Char.isDigit).isEmpty then none
    else some (some (rest.takeWhile Char.isDigit), rest.dropWhile Char.isDigit)
  | rest => some (none, rest)

/-- The exponent behind its mark, if one is given. -/
def readExponent? : List Char → Option (Option Int × List Char)
  | [] => some (none, [])
  | mark :: power =>
    if mark = 'e' ∨ mark = 'E' then do
      let (negative, digits) := Decimal.splitSign power
      let value ← Decimal.natural? 10 (digits.takeWhile Char.isDigit)
      some (some (if negative then -(value : Int) else value), digits.dropWhile Char.isDigit)
    else some (none, mark :: power)

/-- An integer part without needless zeros, then places and an exponent if they are given. -/
def read? (text : List Char) : Option (WrittenNumber × List Char) := do
  let (negative, unsigned) := match text with
    | '-' :: rest => (true, rest)
    | _ => (false, text)
  let whole := unsigned.takeWhile Char.isDigit
  guard (whole == ['0'] || (!whole.isEmpty && whole.head? != some '0'))
  let (places, rest) ← readPlaces? (unsigned.dropWhile Char.isDigit)
  let (exponent, rest) ← readExponent? rest
  some (⟨negative, whole, places, exponent⟩, rest)

end WrittenNumber

namespace StringPart

/-- The character that a letter stands for behind a backslash. -/
def escaped? : Char → Option Char
  | '\x22' => some '\x22'
  | '\\' => some '\\'
  | '/' => some '/'
  | 'b' => some '\x08'
  | 'f' => some '\x0c'
  | 'n' => some '\n'
  | 'r' => some '\r'
  | 't' => some '\t'
  | _ => none

/-- The parts up to the closing quote, and what follows it. -/
def readAll? : List Char → Option (List StringPart × List Char)
  | [] => none
  | '\x22' :: rest => some ([], rest)
  | '\\' :: 'u' :: a :: b :: c :: d :: rest => do
    let n ← Decimal.natural? 16 [a, b, c, d]
    let (parts, rest) ← readAll? rest
    some (.code n :: parts, rest)
  | '\\' :: letter :: rest => do
    let c ← escaped? letter
    let (parts, rest) ← readAll? rest
    some (.plain c :: parts, rest)
  | c :: rest => do
    guard (0x20 ≤ c.toNat && c != '\\')
    let (parts, rest) ← readAll? rest
    some (.plain c :: parts, rest)

def isHigh (n : Nat) : Bool := 0xD800 ≤ n && n < 0xDC00

def isLow (n : Nat) : Bool := 0xDC00 ≤ n && n < 0xE000

/-- The text that the parts stand for. Codes of surrogates count only as a pair, high before low. -/
def text? : List StringPart → Option (List Char)
  | [] => some []
  | .plain c :: rest => (text? rest).map (c :: ·)
  | .code high :: .code low :: rest =>
    if isHigh high then
      if isLow low then
        (text? rest).map (Char.ofNat (0x10000 + (high - 0xD800) * 0x400 + (low - 0xDC00)) :: ·)
      else none
    else if isLow high then none
    else (text? (.code low :: rest)).map (Char.ofNat high :: ·)
  | .code n :: rest =>
    if isHigh n || isLow n then none else (text? rest).map (Char.ofNat n :: ·)

def string? (parts : List StringPart) : Option String := (text? parts).map String.ofList

end StringPart

namespace Written

def skipBlanks (text : List Char) : List Char :=
  text.dropWhile fun c => c == ' ' || c == '\t' || c == '\n' || c == '\r'

mutual

/-- The value at the front of the text. A list takes one step more than it has items, and every
item is followed by a mark, so the length of the text is fuel enough. -/
def readAt : Nat → List Char → Option (Written × List Char)
  | 0, _ => none
  | fuel + 1, text =>
    match skipBlanks text with
    | '\x7b' :: rest =>
      match skipBlanks rest with
      | '\x7d' :: rest => some (.object [], rest)
      | rest => (readFields fuel rest).map fun (fields, rest) => (.object fields, rest)
    | '[' :: rest =>
      match skipBlanks rest with
      | ']' :: rest => some (.array [], rest)
      | rest => (readItems fuel rest).map fun (items, rest) => (.array items, rest)
    | '\x22' :: rest => (StringPart.readAll? rest).map fun (parts, rest) => (.string parts, rest)
    | 'n' :: 'u' :: 'l' :: 'l' :: rest => some (.null, rest)
    | 't' :: 'r' :: 'u' :: 'e' :: rest => some (.boolean true, rest)
    | 'f' :: 'a' :: 'l' :: 's' :: 'e' :: rest => some (.boolean false, rest)
    | rest => (WrittenNumber.read? rest).map fun (written, rest) => (.number written, rest)

def readItems : Nat → List Char → Option (List Written × List Char)
  | 0, _ => none
  | fuel + 1, text =>
    match readAt fuel text with
    | none => none
    | some (item, rest) =>
      match skipBlanks rest with
      | ',' :: rest => (readItems fuel rest).map fun (items, rest) => (item :: items, rest)
      | ']' :: rest => some ([item], rest)
      | _ => none

def readFields : Nat → List Char → Option (List (List StringPart × Written) × List Char)
  | 0, _ => none
  | fuel + 1, text =>
    match skipBlanks text with
    | '\x22' :: rest =>
      match StringPart.readAll? rest with
      | none => none
      | some (name, rest) =>
        match skipBlanks rest with
        | ':' :: rest =>
          match readAt fuel rest with
          | none => none
          | some (value, rest) =>
            match skipBlanks rest with
            | ',' :: rest =>
              (readFields fuel rest).map fun (fields, rest) => ((name, value) :: fields, rest)
            | '\x7d' :: rest => some ([(name, value)], rest)
            | _ => none
        | _ => none
    | _ => none

end

/-- The one value that the whole text writes. -/
def read? (text : String) : Option Written :=
  match readAt (text.length + 1) text.toList with
  | some (written, rest) => if (skipBlanks rest).isEmpty then some written else none
  | none => none

mutual

/-- The value that is meant, if `levels` levels of nesting hold it. Of fields with one name the
last counts. -/
def valueAt : (levels : Nat) → Written → Option Json
  | _, .null => some .null
  | _, .boolean value => some (.boolean value)
  | _, .number written => written.value?.map .number
  | _, .string parts => (StringPart.string? parts).map .string
  | 0, .array _ => none
  | levels + 1, .array items => (valueItems levels items).map .array
  | 0, .object _ => none
  | levels + 1, .object fields => (valueFields levels fields .nil).map .object
termination_by structural _ written => written

def valueItems (levels : Nat) : List Written → Option (List Json)
  | [] => some []
  | item :: items => do
    let value ← valueAt levels item
    let values ← valueItems levels items
    some (value :: values)
termination_by structural items => items

def valueFields (levels : Nat) :
    List (List StringPart × Written) → Entries Json none → Option (Entries Json none)
  | [], done => some done
  | field :: fields, done => do
    let (name, value) ← valueField levels field
    valueFields levels fields (done.insert name value)
termination_by structural fields => fields

def valueField (levels : Nat) : List StringPart × Written → Option (String × Json)
  | (parts, written) => do
    let name ← StringPart.string? parts
    let value ← valueAt levels written
    some (name, value)
termination_by structural field => field

end

end Written

/-- The value of a JSON text that nests at most 127 levels deep. A number that is no integer of 64
bits is rounded to the nearest double, which not every reader of JSON does. -/
def Json.read? (text : String) : Option Json := (Written.read? text).bind (Written.valueAt 127)

end DocTemplate
