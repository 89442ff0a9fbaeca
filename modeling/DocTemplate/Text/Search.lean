/-!
Searching and cutting text: initial parts, first occurrences, pieces between marks, lines, the
blanks at its ends, and the bytes that a text takes in UTF-8.
-/
namespace DocTemplate.Text

/-- What follows `start` in a text that begins with it. -/
def after? : (start text : List Char) → Option (List Char)
  | [], text => some text
  | _ :: _, [] => none
  | a :: start, b :: text => if a = b then after? start text else none

/-- A text cut at the first occurrence of `pattern`: what stands before it, and the text from
the occurrence on. -/
def cutAt? (pattern : List Char) : List Char → Option (List Char × List Char)
  | [] => if pattern.isEmpty then some ([], []) else none
  | c :: text =>
    if pattern.isPrefixOf (c :: text) then some ([], c :: text)
    else (cutAt? pattern text).map fun (before, found) => (c :: before, found)

def contains (pattern text : List Char) : Bool := (cutAt? pattern text).isSome

/-- What follows the first occurrence of `pattern`. -/
def afterFirst? (pattern text : List Char) : Option (List Char) :=
  match cutAt? pattern text with
  | some (_, found) => some (found.drop pattern.length)
  | none => none

/-- The pieces between the occurrences of `mark`; there is always one more than occurrences. -/
def pieces (mark : Char) : List Char → List (List Char)
  | [] => [[]]
  | c :: text =>
    match pieces mark text with
    | [] => [[]]
    | piece :: more => if c = mark then [] :: piece :: more else (c :: piece) :: more

theorem pieces_ne_nil (mark : Char) (text : List Char) : pieces mark text ≠ [] := by
  cases text with
  | nil => exact List.cons_ne_nil _ _
  | cons c text =>
    rw [pieces]
    cases pieces mark text with
    | nil => exact List.cons_ne_nil _ _
    | cons piece more =>
      simp only
      split <;> exact List.cons_ne_nil _ _

/-- A line without the carriage return that it ends in, if it does. -/
def withoutReturn (line : List Char) : List Char :=
  if line.getLast? = some '\r' then line.dropLast else line

/-- The lines that pieces between line feeds are. A line feed takes the carriage return before it
along, and behind the last one there is a line only if there is text. -/
def linesOf : List (List Char) → List (List Char)
  | [] => []
  | [last] => if last.isEmpty then [] else [last]
  | line :: more => withoutReturn line :: linesOf more

def lines (text : List Char) : List (List Char) := linesOf (pieces '\n' text)

/-- The 25 blank characters, those with the Unicode property White_Space, as closed ranges of code
points, ascending and apart. -/
def blankRanges : List (Nat × Nat) :=
  [(0x09, 0x0D), (0x20, 0x20), (0x85, 0x85), (0xA0, 0xA0), (0x1680, 0x1680), (0x2000, 0x200A),
   (0x2028, 0x2029), (0x202F, 0x202F), (0x205F, 0x205F), (0x3000, 0x3000)]

def isBlank (c : Char) : Bool :=
  blankRanges.any fun r => r.1 ≤ c.toNat && c.toNat ≤ r.2

def trimStart (s : List Char) : List Char := s.dropWhile isBlank

def trimEnd (s : List Char) : List Char := (s.reverse.dropWhile isBlank).reverse

/-- The text without the blanks at its two ends. -/
def trim (s : List Char) : List Char := trimEnd (trimStart s)

/-- ASCII letters in lower case; every other character stays. -/
def lowerCase (s : List Char) : List Char := s.map Char.toLower

/-- Bytes of the text in UTF-8. -/
def byteSize : List Char → Nat
  | [] => 0
  | c :: text => c.utf8Size + byteSize text

/-- A text cut behind so many bytes, if a character ends there. -/
def cutBytes? : Nat → List Char → Option (List Char × List Char)
  | 0, text => some ([], text)
  | _ + 1, [] => none
  | n + 1, c :: text =>
    if c.utf8Size ≤ n + 1 then
      (cutBytes? (n + 1 - c.utf8Size) text).map fun (before, rest) => (c :: before, rest)
    else none

/-- Texts in a row, with `separator` between neighbours. -/
def joined (separator : String) : List String → String
  | [] => ""
  | [s] => s
  | s :: more => s ++ separator ++ joined separator more

end DocTemplate.Text
