import DocTemplate.Files
import DocTemplate.Template.Delimiters
import DocTemplate.Variable.Flatten
/-!
Settings for rendering and for variables, and the TOML file that holds them.
-/
namespace DocTemplate

structure RenderSettings where
  leftDelimiter : String
  rightDelimiter : String
  defaultType : Option String

structure VariableSettings where
  strict : Bool
  flatten : Bool

structure Settings where
  render : RenderSettings
  vars : VariableSettings

/-- What can go wrong between settings, variables and templates. -/
inductive Failure where
  | settings (detail : String)
  | variable (cause : VariableError)
  | render (cause : RenderError)
  | file (cause : FileError)

namespace Failure

def message : Failure → String
  | .settings detail => s!"CONFIG_INVALID: failed to parse texforge.toml: {detail}"
  | .variable cause => cause.message
  | .render cause => s!"RENDER_FAILED: {cause.message}"
  | .file cause => s!"IO_ERROR: {cause.message}"

end Failure

namespace RenderSettings

def standard : RenderSettings :=
  ⟨Delimiters.standard.left, Delimiters.standard.right, none⟩

end RenderSettings

namespace VariableSettings

def standard : VariableSettings := ⟨false, true⟩

/-- Checks variables if the settings are strict, and then flattens them if the settings say so. -/
def prepare (s : VariableSettings) (c : Collection) : Except Failure Collection := do
  if s.strict then
    match c.validate with
    | .ok () => pure ()
    | .error cause => throw (.variable cause)
  return if s.flatten then c.flatten else c

end VariableSettings

namespace Settings

def fileName : String := "texforge.toml"

def standard : Settings := ⟨.standard, .standard⟩

def delimiters (s : Settings) : Except Failure Delimiters :=
  match Delimiters.ofTexts s.render.leftDelimiter s.render.rightDelimiter with
  | .ok d => .ok d
  | .error cause => .error (.render cause)

/-- A member of a section: a table has it under its name, a list at its place. -/
def member? (name : String) (place : Nat) : Json → Option Json
  | .object fields => fields.get? name
  | .array items => items[place]?
  | _ => none

def isSection : Json → Bool
  | .object _ | .array _ => true
  | _ => false

def textOr? (standard : String) : Option Json → Option String
  | none => some standard
  | some (.string text) => some text
  | some _ => none

def flagOr? (standard : Bool) : Option Json → Option Bool
  | none => some standard
  | some (.boolean value) => some value
  | some _ => none

def renderSettings? : Option Json → Option RenderSettings
  | none => some .standard
  | some json => do
    guard (isSection json)
    let left ← textOr? RenderSettings.standard.leftDelimiter (member? "left_delimiter" 0 json)
    let right ← textOr? RenderSettings.standard.rightDelimiter (member? "right_delimiter" 1 json)
    let type ← match member? "default_type" 2 json with
      | none => some none
      | some (.string type) => some (some type)
      | some _ => none
    some ⟨left, right, type⟩

def variableSettings? : Option Json → Option VariableSettings
  | none => some .standard
  | some json => do
    guard (isSection json)
    let strict ← flagOr? VariableSettings.standard.strict (member? "strict" 0 json)
    let flatten ← flagOr? VariableSettings.standard.flatten (member? "flatten" 1 json)
    some ⟨strict, flatten⟩

/-- Settings from the fields of a document. What is missing has its standard value, and other
fields do not count. -/
def ofFields? (fields : Entries Json none) : Option Settings := do
  some ⟨← renderSettings? (fields.get? "render"), ← variableSettings? (fields.get? "variables")⟩

def ofText (parsers : Parsers) (text : String) : Except Failure Settings :=
  match parsers.toml text with
  | .error detail => .error (.settings detail)
  | .ok fields =>
    match ofFields? fields with
    | some settings => .ok settings
    | none => .error (.settings (parsers.misfit text))

section
variable {m : Type → Type} [Monad m] (parsers : Parsers) (files : FileAccess m)

/-- Settings from a file that must exist. -/
def ofFile (path : String) : m (Except Failure Settings) := do
  match ← files.read path with
  | .ok text => return ofText parsers text
  | .error cause => return .error (.file cause)

/-- Settings from the file of the usual name in the working directory, if there is one. -/
def ofWorkingDirectory : m (Except Failure Settings) := do
  if ← files.isFile fileName then ofFile parsers files fileName else return .ok standard

end

/-- The JSON text of settings, in the order in which they are declared. -/
def serialize (s : Settings) : String :=
  let flag (value : Bool) : String := if value then "true" else "false"
  let type := match s.render.defaultType with
    | some type => Json.quoted type
    | none => "null"
  "\x7b\"render\":\x7b\"left_delimiter\":" ++ Json.quoted s.render.leftDelimiter ++
    ",\"right_delimiter\":" ++ Json.quoted s.render.rightDelimiter ++
    ",\"default_type\":" ++ type ++
    "\x7d,\"variables\":\x7b\"strict\":" ++ flag s.vars.strict ++
    ",\"flatten\":" ++ flag s.vars.flatten ++ "\x7d\x7d"

end Settings
end DocTemplate
