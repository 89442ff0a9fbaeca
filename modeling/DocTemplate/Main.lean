import DocTemplate.Command.Run
/-!
The program: runs a command line on the files of the system.
-/
namespace DocTemplate

def fileError (e : IO.Error) : FileError :=
  match e with
  | .noFileOrDirectory .. => .missing
  | .permissionDenied .. => .denied
  | .inappropriateType _ 21 _ => .isDirectory
  | .inappropriateType _ 20 _ => .notDirectory
  | .invalidArgument _ 36 _ => .nameTooLong
  | other => .other (toString other)

def attempt {α : Type} (action : IO α) : IO (Except FileError α) := do
  try
    return .ok (← action)
  catch e =>
    return .error (fileError e)

/-- File access to the system. -/
def systemFiles : FileAccess IO where
  read path := do
    match ← attempt (IO.FS.withFile path .read fun file => file.readBinToEnd) with
    | .error cause => return .error cause
    | .ok bytes =>
      match String.fromUTF8? bytes with
      | some text => return .ok text
      | none => return .error .notText
  isFile path := do
    match ← attempt (IO.FS.withFile path .read fun file => file.read 1) with
    | .error .missing | .error .isDirectory | .error .notDirectory => return false
    | _ => return true
  write path text := attempt (IO.FS.writeFile path text)

end DocTemplate

open DocTemplate in
def main (arguments : List String) : IO UInt32 := do
  let environment : Command.Environment :=
    ⟨← IO.getEnv "TEXFORGE_CONFIG", ← IO.getEnv "RUST_LOG"⟩
  match ← Command.run .standard systemFiles arguments environment with
  | .stopped .usage => return 2
  | .stopped .help => return 0
  | .stopped .version =>
    IO.print Command.versionText
    return 0
  | .ended outcome =>
    for line in outcome.messages do IO.eprintln line
    IO.print outcome.stdout
    return outcome.code.toUInt32
