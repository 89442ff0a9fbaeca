import DocTemplate.Json.Written
import DocTemplate.Toml.Document
import DocTemplate.Yaml.Value
/-!
Files by name: reading texts, writing them, what can go wrong with either, and the parsers of what
stands in them.
-/
namespace DocTemplate

inductive FileError where
  | missing
  | isDirectory
  | notDirectory
  | denied
  | nameTooLong
  | notText
  | other (description : String)
deriving DecidableEq

def FileError.message : FileError → String
  | .missing => "No such file or directory (os error 2)"
  | .isDirectory => "Is a directory (os error 21)"
  | .notDirectory => "Not a directory (os error 20)"
  | .denied => "Permission denied (os error 13)"
  | .nameTooLong => "File name too long (os error 36)"
  | .notText => "stream did not contain valid UTF-8"
  | .other description => description

/-- The operations on files that commands use. A write replaces the whole content, or leaves the
file as it was. -/
structure FileAccess (m : Type → Type) where
  read : (path : String) → m (Except FileError String)
  isFile : (path : String) → m Bool
  write : (path text : String) → m (Except FileError Unit)

/-- The parsers that commands use. Each gives what a text holds, or says what is wrong with it;
`misfit` says what is wrong with a text in TOML that holds something else than settings. -/
structure Parsers where
  json : (text : String) → Except String Json
  yaml : (text : String) → Except String Json
  toml : (text : String) → Except String (Entries Json none)
  misfit : (text : String) → String

namespace Parsers

def orSay {α : Type} (detail : String) : Option α → Except String α
  | some value => .ok value
  | none => .error detail

/-- The parsers of this library. What they say of a text is only that it is not of their kind. -/
def standard : Parsers where
  json text := orSay "not a JSON value" (Json.read? text)
  yaml text := orSay "not one YAML document" (Yaml.read? text)
  toml text := orSay "not a TOML document" (Toml.read? text)
  misfit _ := "not settings"

end Parsers
end DocTemplate
