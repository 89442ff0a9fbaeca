import DocTemplate.Command.Arguments
import DocTemplate.Command.Log.Filter
import DocTemplate.Command.VariablesFile
import DocTemplate.Template.Registry
/-!
The commands: what they read and write, and what they print.
-/
namespace DocTemplate.Command

/-- What is seen of a command when it has ended. -/
structure Outcome where
  code : Nat
  stdout : String
  error : Option CommandError
  warnings : List String
  notes : List String

namespace Outcome

def success (stdout : String) : Outcome := ⟨0, stdout, none, [], []⟩

def failure (cause : CommandError) : Outcome := ⟨1, "", some cause, [], []⟩

/-- The end before anything is done. -/
def aborted : Outcome := ⟨101, "", none, [], []⟩

def ofExcept : Except CommandError String → Outcome
  | .ok stdout => success stdout
  | .error cause => failure cause

/-- Everything that is told besides the output, in this order. -/
def messages (o : Outcome) : List String :=
  o.warnings.map (" WARN " ++ ·) ++ o.notes ++
    (o.error.map fun cause => "Error: " ++ cause.message).toList

end Outcome

/-- A rendered document with the messages that go with it. -/
structure Page where
  text : String
  warnings : List String
  notes : List String

/-- The settings for variables after the options of a command line. -/
def RenderOptions.variableSettings (o : RenderOptions) (s : Settings) : VariableSettings :=
  ⟨s.vars.strict || o.strict, s.vars.flatten && !o.noFlatten⟩

def RenderOptions.delimiters (o : RenderOptions) (s : Settings) : Except RenderError Delimiters :=
  Delimiters.ofTexts (o.left.getD s.render.leftDelimiter) (o.right.getD s.render.rightDelimiter)

/-- The tag that is asked for, else the usual one, else that of the detected type. -/
def RenderOptions.tag (o : RenderOptions) (s : Settings) (template : String) : String :=
  match o.type, s.render.defaultType with
  | some type, _ => type
  | none, some type => type
  | none, none => (DocumentType.detect template).tag

/-- Renders a template with the variables of a file. -/
def RenderOptions.page (o : RenderOptions) (s : Settings) (verbose : Bool) (template : String)
    (given : Collection) : Except CommandError Page := do
  let c ← match (o.variableSettings s).prepare given with
    | .ok c => pure c
    | .error cause => throw (.invalid o.vars cause)
  let d ← match o.delimiters s with
    | .ok d => pure d
    | .error cause => throw (.delimiters cause)
  let tag := o.tag s template
  let warnings := match DocumentType.parse tag with
    | .ok _ => []
    | .error unknown => [Log.message (unknown.message ++ "; using the default strategy")]
  let notes :=
    if verbose then [s!"→ Rendering {o.template} as '{tag}' with {c.size} variable(s)"] else []
  match (Registry.standard d).render tag template c with
  | .ok text => return ⟨text, warnings, notes⟩
  | .error cause => throw (.rendering cause)

section
variable {m : Type → Type} [Monad m]

def RenderOptions.run (parsers : Parsers) (files : FileAccess m) (o : RenderOptions) (s : Settings)
    (verbose showsWarnings : Bool) : m Outcome := do
  match ← files.read o.template with
  | .error cause => return .failure (.template o.template cause)
  | .ok template =>
    match ← loadVariables parsers files o.vars with
    | .error cause => return .failure cause
    | .ok given =>
      match o.page s verbose template given with
      | .error cause => return .failure cause
      | .ok page =>
        let warnings := if showsWarnings then page.warnings else []
        match o.output with
        | none => return ⟨0, page.text, none, warnings, page.notes⟩
        | some path =>
          match ← files.write path page.text with
          | .ok () => return ⟨0, s!"✓ Rendered {path}\n", none, warnings, page.notes⟩
          | .error cause => return ⟨1, "", some (.output path cause), warnings, page.notes⟩

/-- The detected type of a document, by its tag or with a description. -/
def runDetect (files : FileAccess m) (file : String) (json : Bool) : m Outcome := do
  match ← files.read file with
  | .error cause => return .failure (.document file cause)
  | .ok content =>
    let type := DocumentType.detect content
    return .success ((if json then type.describe.pretty else type.tag) ++ "\n")

/-- What the vars command prints of a collection: one variable, or a line for each. -/
def listing (s : Settings) (file : String) (get : Option String) (json : Bool) (c : Collection) :
    Except CommandError String := do
  if s.vars.strict then
    match c.validate with
    | .ok () => pure ()
    | .error cause => throw (.invalid file (.variable cause))
  match get with
  | some name =>
    match c.getNested name with
    | .ok value => return (if json then value.toJson.pretty else value.display) ++ "\n"
    | .error cause => throw (.unresolved file name cause)
  | none =>
    if json then return (Json.object c.toFields).pretty ++ "\n"
    else
      let lines := c.toList.map fun (name, value) =>
        s!"{name} = {value.display} ({value.kind.name})\n"
      return String.join lines

def runVars (parsers : Parsers) (files : FileAccess m) (s : Settings) (file : String)
    (get : Option String) (json : Bool) : m Outcome := do
  match ← loadVariables parsers files file with
  | .error cause => return .failure cause
  | .ok c => return .ofExcept (listing s file get json c)

def loadSettings (parsers : Parsers) (files : FileAccess m) :
    Option String → m (Except CommandError Settings)
  | some path => do
    match ← Settings.ofFile parsers files path with
    | .ok s => return .ok s
    | .error cause => return .error (.namedSettings path cause)
  | none => do
    match ← Settings.ofWorkingDirectory parsers files with
    | .ok s => return .ok s
    | .error cause => return .error (.settings cause)

/-- Does what is asked for, with the settings that go with it. -/
def Request.run (parsers : Parsers) (files : FileAccess m) (r : Request) (showsWarnings : Bool) :
    m Outcome := do
  match ← loadSettings parsers files r.config with
  | .error cause => return .failure cause
  | .ok s =>
    match r.job with
    | .render o => o.run parsers files s r.verbose showsWarnings
    | .detect file json => runDetect files file json
    | .vars file get json => runVars parsers files s file get json

end

/-- The variables of the environment that count. -/
structure Environment where
  config : Option String
  log : Option String

/-- How a command line ends: before a request is made of it, or with the outcome of one. -/
inductive Ending where
  | stopped (stop : Stop)
  | ended (outcome : Outcome)

def versionText : String := "texforge 0.1.0\n"

/-- Runs a whole command line. -/
def run {m : Type → Type} [Monad m] (parsers : Parsers) (files : FileAccess m)
    (arguments : List String) (environment : Environment) : m Ending := do
  match Request.ofArguments arguments environment.config with
  | .error stop => return .stopped stop
  | .ok r =>
    match Log.Filter.given? environment.log with
    | none => return .ended .aborted
    | some filter => return .ended (← r.run parsers files filter.showsWarnings)

end DocTemplate.Command
