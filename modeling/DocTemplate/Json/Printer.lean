import DocTemplate.Decimal.Layout
import DocTemplate.Json.Basic
import DocTemplate.Text.Search
/-!
JSON text: the compact form, and the form with one item a line.
-/
namespace DocTemplate

def Number.text : Number → String
  | .integer n _ _ => toString n
  | .float x => x.canonical

namespace Json

def hexDigit (n : Nat) : Char := "0123456789abcdef".toList.getD n '0'

/-- The two characters that delimit strings and escapes, and the control characters, are escaped;
every other character stands for itself. -/
def escape (c : Char) : List Char :=
  match c with
  | '\x22' => ['\\', '\x22']
  | '\\' => ['\\', '\\']
  | '\x08' => ['\\', 'b']
  | '\x0c' => ['\\', 'f']
  | '\n' => ['\\', 'n']
  | '\r' => ['\\', 'r']
  | '\t' => ['\\', 't']
  | c =>
    if c.toNat < 0x20 then
      ['\\', 'u', '0', '0', hexDigit (c.toNat / 16), hexDigit (c.toNat % 16)]
    else [c]

def quoted (text : String) : String :=
  String.ofList ('\x22' :: (text.toList.flatMap escape ++ ['\x22']))

mutual

/-- The text without any blank between its parts. -/
def compact : Json → String
  | .null => "null"
  | .boolean value => if value then "true" else "false"
  | .number value => value.text
  | .string text => quoted text
  | .array items => "[" ++ Text.joined "," (compactItems items) ++ "]"
  | .object fields => "\x7b" ++ Text.joined "," (compactFields fields) ++ "\x7d"
termination_by structural value => value

def compactItems : List Json → List String
  | [] => []
  | item :: items => compact item :: compactItems items
termination_by structural items => items

def compactFields {low : Option String} : Entries Json low → List String
  | .nil => []
  | .cons key _ value rest => (quoted key ++ ":" ++ compact value) :: compactFields rest
termination_by structural fields => fields

end

def indented (depth : Nat) : String := String.ofList (List.replicate (2 * depth) ' ')

/-- Lines between an opening and a closing mark, one level deeper than the marks. -/
def block (depth : Nat) (opening closing : String) (lines : List String) : String :=
  if lines.isEmpty then opening ++ closing
  else
    opening ++ "\n" ++ Text.joined ",\n" (lines.map (indented (depth + 1) ++ ·)) ++
      "\n" ++ indented depth ++ closing

mutual

/-- The text with one item a line, indented by two blanks a level. -/
def prettyAt (depth : Nat) : Json → String
  | .array items => block depth "[" "]" (prettyItems (depth + 1) items)
  | .object fields => block depth "\x7b" "\x7d" (prettyFields (depth + 1) fields)
  | .null => "null"
  | .boolean value => if value then "true" else "false"
  | .number value => value.text
  | .string text => quoted text
termination_by structural value => value

def prettyItems (depth : Nat) : List Json → List String
  | [] => []
  | item :: items => prettyAt depth item :: prettyItems depth items
termination_by structural items => items

def prettyFields (depth : Nat) {low : Option String} : Entries Json low → List String
  | .nil => []
  | .cons key _ value rest =>
    (quoted key ++ ": " ++ prettyAt depth value) :: prettyFields depth rest
termination_by structural fields => fields

end

def pretty (value : Json) : String := prettyAt 0 value

end Json
end DocTemplate
