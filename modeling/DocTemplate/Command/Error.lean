import DocTemplate.Settings
/-!
Why a command fails, and the text that says so: what was attempted, and behind it the causes.
-/
namespace DocTemplate

/-- The message of an error, and behind it that of its cause. -/
def VariableError.chain : VariableError → String
  | .invalidEntry key cause => s!"{(VariableError.invalidEntry key cause).message}: {cause.chain}"
  | other => other.message

def Failure.chain : Failure → String
  | .variable cause => cause.chain
  | .file cause => s!"{(Failure.file cause).message}: {cause.message}"
  | .render cause => s!"{(Failure.render cause).message}: {cause.message}"
  | .settings detail => (Failure.settings detail).message

namespace Command

/-- Formats of files with variables. -/
inductive Format where
  | json
  | yaml
  | toml
deriving DecidableEq

def Format.name : Format → String
  | .json => "JSON"
  | .yaml => "YAML"
  | .toml => "TOML"

inductive CommandError where
  | settings (cause : Failure)
  | namedSettings (path : String) (cause : Failure)
  | template (path : String) (cause : FileError)
  | document (path : String) (cause : FileError)
  | variablesFile (path : String) (cause : FileError)
  | unsupported (path extension : String)
  | malformed (path : String) (format : Format) (detail : String)
  | noMapping (path : String) (cause : VariableError)
  | invalid (path : String) (cause : Failure)
  | delimiters (cause : RenderError)
  | rendering (cause : RenderError)
  | unresolved (path name : String) (cause : VariableError)
  | output (path : String) (cause : FileError)

def CommandError.message : CommandError → String
  | .settings cause => cause.chain
  | .namedSettings path cause => s!"Failed to load config {path}: {cause.chain}"
  | .template path cause => s!"Failed to read template {path}: {cause.message}"
  | .document path cause => s!"Failed to read {path}: {cause.message}"
  | .variablesFile path cause => s!"Failed to read variables file {path}: {cause.message}"
  | .unsupported path extension =>
    s!"Unsupported variables file extension '{extension}' for {path} " ++
      "(expected json, yaml, yml or toml)"
  | .malformed path format detail => s!"Invalid {format.name} in {path}: {detail}"
  | .noMapping path cause => s!"Variables file {path} must contain a mapping: {cause.chain}"
  | .invalid path cause => s!"Invalid variables in {path}: {cause.chain}"
  | .delimiters cause | .rendering cause => cause.message
  | .unresolved path name cause => s!"Failed to resolve '{name}' in {path}: {cause.chain}"
  | .output path cause => s!"Failed to write {path}: {cause.message}"

end Command
end DocTemplate
