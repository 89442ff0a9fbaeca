import DocTemplate.Text.Search
/-!
Command lines: the commands, their options, and the arguments that are accepted.
-/
namespace DocTemplate.Command

/-- Everything that can be named by a mark and a word or letter. -/
inductive Key where
  | verbose
  | config
  | help
  | version
  | vars
  | type
  | left
  | right
  | output
  | strict
  | noFlatten
  | get
  | json
deriving DecidableEq

namespace Key

def long : Key → String
  | .verbose => "verbose"
  | .config => "config"
  | .help => "help"
  | .version => "version"
  | .vars => "vars"
  | .type => "type"
  | .left => "left"
  | .right => "right"
  | .output => "output"
  | .strict => "strict"
  | .noFlatten => "no-flatten"
  | .get => "get"
  | .json => "json"

def short? : Key → Option Char
  | .verbose => some 'v'
  | .help => some 'h'
  | .version => some 'V'
  | .output => some 'o'
  | _ => none

def takesValue : Key → Bool
  | .config | .vars | .type | .left | .right | .output | .get => true
  | _ => false

/-- Names of files are never empty. -/
def isPath : Key → Bool
  | .config | .vars | .output => true
  | _ => false

end Key

/-- Why no command is run. -/
inductive Stop where
  | usage
  | help
  | version
deriving DecidableEq

/-- What is given so far: keys with their values, and the name of a file. A key that still waits
for its value is `pending`; behind two hyphens there are no more keys. -/
structure Given where
  keys : List (Key × String)
  file : Option String
  pending : Option Key
  wordsOnly : Bool

namespace Given

def none : Given := ⟨[], .none, .none, false⟩

def has (g : Given) (key : Key) : Bool := g.keys.any (·.1 == key)

def value? (g : Given) (key : Key) : Option String := g.keys.lookup key

/-- Records a key with its value, which is empty for a key that takes none. No key is given
twice. -/
def record (g : Given) (key : Key) (value : String) : Except Stop Given :=
  if g.has key || (key.isPath && value.isEmpty) then .error .usage
  else if key = .help then .error .help
  else if key = .version then .error .version
  else .ok { g with keys := (key, value) :: g.keys, pending := .none }

/-- A word with two hyphens, possibly with a value behind an equals sign. -/
def long (g : Given) (known : List Key) (body : List Char) : Except Stop Given :=
  let name := String.ofList (body.takeWhile (· != '='))
  match known.find? (·.long == name), body.dropWhile (· != '=') with
  | .none, _ => .error .usage
  | some key, _ :: value =>
    if key.takesValue then g.record key (String.ofList value) else .error .usage
  | some key, [] =>
    if key.takesValue then .ok { g with pending := some key } else g.record key ""

/-- Letters behind one hyphen. What follows the letter of a key that takes a value is the value,
with or without an equals sign. -/
def letters (known : List Key) : List Char → Given → Except Stop Given
  | [], g => .ok g
  | letter :: more, g =>
    match known.find? (·.short? == some letter), more with
    | .none, _ => .error .usage
    | some key, [] =>
      if key.takesValue then .ok { g with pending := some key } else g.record key ""
    | some key, _ :: _ =>
      if key.takesValue then
        g.record key (String.ofList (if more.head? == some '=' then more.tail else more))
      else do letters known more (← g.record key "")

def isWord : List Char → Bool
  | '-' :: _ :: _ => false
  | _ => true

/-- Takes a word that is no value. A command has one, the name of a file. -/
def word (g : Given) (argument : String) : Except Stop Given :=
  if g.file.isSome || argument.isEmpty then .error .usage
  else .ok { g with file := some argument }

/-- Takes one more argument. A value in an argument of its own begins with no hyphen. -/
def take (known : List Key) (g : Given) (argument : String) : Except Stop Given :=
  match g.pending, g.wordsOnly, argument.toList with
  | some key, _, text => if isWord text then g.record key argument else .error .usage
  | .none, true, _ => g.word argument
  | .none, false, ['-', '-'] => .ok { g with wordsOnly := true }
  | .none, false, '-' :: '-' :: body => g.long known body
  | .none, false, '-' :: letter :: more => g.letters known (letter :: more)
  | .none, false, _ => g.word argument

end Given

structure RenderOptions where
  template : String
  vars : String
  type : Option String
  left : Option String
  right : Option String
  output : Option String
  strict : Bool
  noFlatten : Bool

inductive Job where
  | render (options : RenderOptions)
  | detect (file : String) (json : Bool)
  | vars (file : String) (get : Option String) (json : Bool)

/-- What a command line asks for. -/
structure Request where
  verbose : Bool
  config : Option String
  job : Job

def rootKeys : List Key := [.verbose, .config, .help, .version]

/-- The keys of a command. Those for every command may stand before its name too. -/
def keysOf? : String → Option (List Key)
  | "render" => some [.verbose, .config, .help, .vars, .type, .left, .right, .output, .strict,
      .noFlatten]
  | "detect" => some [.verbose, .config, .help, .json]
  | "vars" => some [.verbose, .config, .help, .get, .json]
  | _ => none

/-- The keys before the name of the command, the name, and the arguments behind it. -/
def splitCommand : Given → List String → Except Stop (Given × String × List String)
  | _, [] => .error .usage
  | g, argument :: more =>
    if g.pending.isNone && (g.wordsOnly || Given.isWord argument.toList) then
      if g.wordsOnly then .error .usage else .ok (g, argument, more)
    else do splitCommand (← g.take rootKeys argument) more

/-- The job of a command whose arguments have been taken. It needs one file. -/
def job? (command : String) (g : Given) : Option Job :=
  match g.pending, g.file with
  | none, some file =>
    match command with
    | "render" => (g.value? .vars).map fun vars => .render
        { template := file, vars, type := g.value? .type, left := g.value? .left,
          right := g.value? .right, output := g.value? .output, strict := g.has .strict,
          noFlatten := g.has .noFlatten }
    | "detect" => some (.detect file (g.has .json))
    | "vars" => some (.vars file (g.value? .get) (g.has .json))
    | _ => none
  | _, _ => none

/-- Help on a command, asked for by the word and not by a key. -/
def helpOn : List String → Stop
  | [] => .help
  | [command] => if (keysOf? command).isSome || command == "help" then .help else .usage
  | _ => .usage

/-- The request of a command line. Settings may be named in the environment too; behind the name of
a command they count before those in front of it, and both before the environment. -/
def Request.ofArguments (arguments : List String) (environment : Option String) :
    Except Stop Request := do
  let (before, command, more) ← splitCommand .none arguments
  if command = "help" then throw (helpOn more)
  let some keys := keysOf? command | throw .usage
  let after ← more.foldlM (Given.take keys) .none
  let some job := job? command after | throw .usage
  let outer := before.value? .config
  let inner := after.value? .config
  if environment == some "" && (outer.isNone || inner.isNone) then throw .usage
  return ⟨before.has .verbose || after.has .verbose, inner <|> outer <|> environment, job⟩

end DocTemplate.Command
