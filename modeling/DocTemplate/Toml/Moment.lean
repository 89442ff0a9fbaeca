import DocTemplate.Decimal.Numeral
/-!
Dates, times and offsets in TOML, and the one form in which they are written out again.
-/
namespace DocTemplate.Toml

def isLeap (year : Nat) : Bool := year % 4 == 0 && (year % 100 != 0 || year % 400 == 0)

def daysIn (year month : Nat) : Nat :=
  match month with
  | 2 => if isLeap year then 29 else 28
  | 4 | 6 | 9 | 11 => 30
  | _ => 31

/-- A number of exactly `count` digits. -/
def digits? (count : Nat) (text : List Char) : Option (Nat × List Char) := do
  let digits := text.take count
  guard (digits.length == count && digits.all Char.isDigit)
  some (← Decimal.natural? 10 digits, text.drop count)

/-- A number of two digits between two bounds. -/
def within? (least most : Nat) (text : List Char) : Option (Nat × List Char) := do
  let (n, rest) ← digits? 2 text
  guard (least ≤ n && n ≤ most)
  some (n, rest)

def mark? (mark : Char) : List Char → Option (List Char)
  | c :: rest => if c = mark then some rest else none
  | [] => none

def padded (width n : Nat) : String :=
  let digits := Nat.toDigits 10 n
  String.ofList (List.replicate (width - digits.length) '0' ++ digits)

/-- A day of the calendar. -/
def date? (text : List Char) : Option (String × List Char) := do
  let (year, rest) ← digits? 4 text
  let rest ← mark? '-' rest
  let (month, rest) ← within? 1 12 rest
  let rest ← mark? '-' rest
  let (day, rest) ← within? 1 (daysIn year month) rest
  some (s!"{padded 4 year}-{padded 2 month}-{padded 2 day}", rest)

/-- A fraction of a second; past the ninth digit it is cut off, and zeros at its end are
dropped. -/
def fraction? : List Char → Option (String × List Char)
  | '.' :: rest =>
    let digits := rest.takeWhile Char.isDigit
    if digits.isEmpty then none
    else
      let kept := ((digits.take 9).reverse.dropWhile (· == '0')).reverse
      some (String.ofList (if kept.isEmpty then [] else '.' :: kept), rest.dropWhile Char.isDigit)
  | rest => some ("", rest)

/-- A time of day; a minute may have a sixty-first second. -/
def time? (text : List Char) : Option (String × List Char) := do
  let (hour, rest) ← within? 0 23 text
  let rest ← mark? ':' rest
  let (minute, rest) ← within? 0 59 rest
  let rest ← mark? ':' rest
  let (second, rest) ← within? 0 60 rest
  let (fraction, rest) ← fraction? rest
  some (s!"{padded 2 hour}:{padded 2 minute}:{padded 2 second}" ++ fraction, rest)

/-- The distance from universal time, if one is given. Minus zero is plus zero. -/
def offset? : List Char → Option (String × List Char)
  | 'Z' :: rest | 'z' :: rest => some ("Z", rest)
  | sign :: text =>
    if sign = '+' ∨ sign = '-' then do
      let (hour, rest) ← within? 0 23 text
      let rest ← mark? ':' rest
      let (minute, rest) ← within? 0 59 rest
      let sign := if sign = '-' ∧ (0 < hour ∨ 0 < minute) then "-" else "+"
      some (s!"{sign}{padded 2 hour}:{padded 2 minute}", rest)
    else some ("", sign :: text)
  | [] => some ("", [])

/-- A date, a time, or both with a letter or a space between them. -/
def moment? (text : List Char) : Option (String × List Char) :=
  match date? text with
  | none => time? text
  | some (date, rest) =>
    match rest with
    | c :: more =>
      if c = 'T' ∨ c = 't' ∨ c = ' ' then
        match time? more with
        | none => some (date, rest)
        | some (time, rest) =>
          (offset? rest).map fun (offset, rest) => (date ++ "T" ++ time ++ offset, rest)
      else some (date, rest)
    | [] => some (date, rest)

/-- Whether the text can only be a date or a time. -/
def startsMoment (text : List Char) : Bool :=
  match text with
  | a :: b :: ':' :: _ => a.isDigit && b.isDigit
  | a :: b :: c :: d :: '-' :: _ => [a, b, c, d].all Char.isDigit
  | _ => false

end DocTemplate.Toml
