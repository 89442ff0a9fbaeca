import DocTemplate.Command.Error
/-!
Files with variables. The extension of the name tells the format.
-/
namespace DocTemplate.Command

/-- The last part of a path, if it names a file. Empty parts and those that stay do not count. -/
def fileName? (path : String) : Option String :=
  let parts := ((Text.pieces '/' path.toList).map String.ofList).filter fun part =>
    part != "" && part != "."
  match parts.getLast? with
  | some ".." => none
  | last => last

/-- What stands behind the last dot of a file name, unless the name begins with that dot. -/
def extension (path : String) : String :=
  match fileName? path with
  | none => ""
  | some name =>
    let behind := (name.toList.reverse.takeWhile (· != '.')).reverse
    if name.toList.length ≤ behind.length + 1 then "" else String.ofList behind

/-- The format that an extension in lower case stands for. -/
def Format.ofExtension? (extension : String) : Option Format :=
  match extension with
  | "json" => some .json
  | "yaml" | "yml" => some .yaml
  | "toml" => some .toml
  | _ => none

def Format.read (parsers : Parsers) : Format → (text : String) → Except String Json
  | .json, text => parsers.json text
  | .yaml, text => parsers.yaml text
  | .toml, text => (parsers.toml text).map .object

/-- The collection in the text of a file. -/
def variablesOf (parsers : Parsers) (path text : String) : Except CommandError Collection :=
  let extension := String.ofList (Text.lowerCase (extension path).toList)
  match Format.ofExtension? extension with
  | none => .error (.unsupported path extension)
  | some format =>
    match format.read parsers text with
    | .error detail => .error (.malformed path format detail)
    | .ok json =>
      match Collection.ofJson json with
      | .ok c => .ok c
      | .error cause => .error (.noMapping path cause)

def loadVariables {m : Type → Type} [Monad m] (parsers : Parsers) (files : FileAccess m)
    (path : String) : m (Except CommandError Collection) := do
  match ← files.read path with
  | .ok text => return variablesOf parsers path text
  | .error cause => return .error (.variablesFile path cause)

end DocTemplate.Command
