import DocTemplate.Json.Printer
import DocTemplate.Text.Search
/-!
Types of document and their detection from the content of a template.
-/
namespace DocTemplate

/-- The types in the order in which detection prefers them. -/
inductive DocumentType where
  | beamer
  | latex
  | html
  | markdown
  | plain
deriving DecidableEq

namespace DocumentType

def all : List DocumentType := [.beamer, .latex, .html, .markdown, .plain]

def tag : DocumentType → String
  | .beamer => "beamer"
  | .latex => "latex"
  | .html => "html"
  | .markdown => "markdown"
  | .plain => "plain"

def ofTag? (tag : String) : Option DocumentType := all.find? (·.tag == tag)

/-- Extension of a rendered file, without the dot. -/
def extension : DocumentType → String
  | .beamer | .latex => "tex"
  | .html => "html"
  | .markdown => "md"
  | .plain => "txt"

def displayName : DocumentType → String
  | .beamer => "LaTeX Beamer"
  | .latex => "LaTeX"
  | .html => "HTML"
  | .markdown => "Markdown"
  | .plain => "Plain text"

def isLatexFamily : DocumentType → Bool
  | .beamer | .latex => true
  | _ => false

/-- A text that is the tag of no type. -/
structure Unknown where
  text : String

def Unknown.message (e : Unknown) : String :=
  let known := Text.joined ", " (all.map tag)
  s!"unknown document type '{e.text}' (expected one of: {known})"

/-- The type with this tag; the case of ASCII letters does not count. -/
def parse (text : String) : Except Unknown DocumentType :=
  match ofTag? (String.ofList (Text.lowerCase text.toList)) with
  | some type => .ok type
  | none => .error ⟨text⟩

def serialize (type : DocumentType) : String := Json.quoted type.tag

/-- The description of a type as an object. -/
def describe (type : DocumentType) : Json :=
  .object <| .ofList
    [("tag", .string type.tag), ("name", .string type.displayName),
     ("extension", .string type.extension), ("latex", .boolean type.isLatexFamily)]

/-- What follows the options in brackets, if there are any, with blanks before them. -/
def afterOptions? (text : List Char) : Option (List Char) :=
  match Text.trimStart text with
  | '[' :: options => Text.afterFirst? [']'] options
  | rest => some rest

/-- The name in braces, with blanks before it, and without the blanks around the name. -/
def bracedName? (text : List Char) : Option (List Char) :=
  match Text.trimStart text with
  | '\x7b' :: body => (Text.cutAt? ['\x7d'] body).map fun (name, _) => Text.trim name
  | _ => none

/-- The name in the first class command, which comes behind the options. -/
def documentClass? (content : List Char) : Option (List Char) := do
  let arguments ← Text.afterFirst? "\\documentclass".toList content
  bracedName? (← afterOptions? arguments)

/-- One to six hash marks, and then a space. -/
def isHeading (line : List Char) : Bool :=
  let marks := line.takeWhile (· == '#')
  1 ≤ marks.length && marks.length ≤ 6 && (line.drop marks.length).head? == some ' '

def holds (content : List Char) : DocumentType → Bool
  | .beamer =>
    Text.contains "\\usepackage\x7bbeamer\x7d".toList content ||
      documentClass? content == some "beamer".toList
  | .latex => Text.contains "\\documentclass".toList content
  | .html =>
    let lower := Text.lowerCase content
    Text.contains "<!doctype html".toList lower || Text.contains "<html".toList lower
  | .markdown => (Text.lines content).any isHeading
  | .plain => true

/-- The first type whose marks the content holds; any content is at least plain text. -/
def detect (content : String) : DocumentType :=
  (all.find? (holds content.toList)).getD .plain

end DocumentType
end DocTemplate
