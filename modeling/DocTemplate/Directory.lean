import DocTemplate.Entries
import DocTemplate.Files
import DocTemplate.Text.Search
/-!
A working directory in a tree of files that is held in memory.
-/
namespace DocTemplate

/-- What stands under a name. A device reads as an empty text and keeps nothing. -/
inductive FileNode where
  | file (content : ByteArray)
  | device
  | directory (children : Entries FileNode none)

/-- A tree of files, and the names that lead from its root to the directory where one works. -/
structure Directory where
  root : Entries FileNode none
  working : List String

namespace FileNode

/-- Puts something at the end of a path, with the directories on the way. -/
def place (node : FileNode) (children : Entries FileNode none) (name : String) :
    List String → Entries FileNode none
  | [] => children.insert name node
  | next :: more =>
    let inner := match children.get? name with
      | some (.directory inner) => inner
      | _ => .nil
    children.insert name (.directory (place node inner next more))

end FileNode

namespace Directory

/-- The directories that stand at the root, with the one device that is not to be missed. -/
def system : Entries FileNode none :=
  let names := ["bin", "dev", "etc", "home", "lib", "opt", "proc", "root", "run", "sbin", "srv",
    "sys", "tmp", "usr", "var"]
  FileNode.place .device (.ofList (names.map fun name => (name, .directory .nil))) "dev" ["null"]

/-- An empty directory to work in. -/
def empty : Directory :=
  ⟨FileNode.place (.directory .nil) system "tmp" ["work"], ["tmp", "work"]⟩

/-- The parts of a path between slashes. Those that stay where they are do not count. -/
def parts (path : String) : List String :=
  ((Text.pieces '/' path.toList).map String.ofList).filter fun part => part != "" && part != "."

/-- Puts something under the names that lead to it from the root. -/
def put (d : Directory) (names : List String) (node : FileNode) : Directory :=
  match names with
  | [] => d
  | name :: more => { d with root := node.place d.root name more }

/-- Puts a file into the directory. -/
def withFile (d : Directory) (path : String) (content : ByteArray) : Directory :=
  d.put (d.working ++ parts path) (.file content)

/-- Bytes in the name of a file, and in a whole path. -/
def longestName : Nat := 255

def longestPath : Nat := 4095

/-- Why nothing stands under a name. -/
def absence (name : String) : FileError :=
  if longestName < Text.byteSize name.toList then .nameTooLong else .missing

/-- Goes on from a directory, whose own names are given from the last one back, and gives the names
at the end of the way. All but the last part of a path must exist. -/
def walk (root : Entries FileNode none) :
    List (String × Entries FileNode none) → List String → Except FileError (List String)
  | passed, [] => .ok (passed.map (·.1)).reverse
  | passed, ".." :: more => walk root passed.tail more
  | passed, part :: more =>
    let here := match passed with
      | [] => root
      | (_, children) :: _ => children
    match here.get? part, more with
    | some (.directory inner), _ => walk root ((part, inner) :: passed) more
    | _, [] => .ok (part :: passed.map (·.1)).reverse
    | some _, _ :: _ => .error .notDirectory
    | none, _ :: _ => .error (absence part)

/-- What stands under names that lead to it straight. -/
def node? (here : Entries FileNode none) : List String → Option FileNode
  | [] => some (.directory here)
  | name :: more =>
    match here.get? name, more with
    | some node, [] => some node
    | some (.directory inner), _ :: _ => node? inner more
    | _, _ => none

def lastPart (path : String) : String :=
  (((Text.pieces '/' path.toList).map String.ofList).getLast?).getD ""

/-- A slash at the end of a path, or a part that stays or goes back, asks for a directory. -/
def asksForDirectory (path : String) : Bool := ["", ".", ".."].contains (lastPart path)

/-- The straight way from the root to what a path names, and what is there, if anything. -/
def find (d : Directory) (path : String) : Except FileError (List String × Option FileNode) := do
  if path.isEmpty then throw .missing
  if longestPath < Text.byteSize path.toList then throw .nameTooLong
  let start := if path.startsWith "/" then [] else d.working
  let names ← walk d.root [] (start ++ parts path)
  return (names, node? d.root names)

def read (d : Directory) (path : String) : Except FileError String := do
  match ← d.find path with
  | (names, none) => throw (absence (names.getLast?.getD ""))
  | (_, some (.directory _)) => throw .isDirectory
  | (_, some .device) => if asksForDirectory path then throw .notDirectory else return ""
  | (_, some (.file content)) =>
    if asksForDirectory path then throw .notDirectory
    match String.fromUTF8? content with
    | some text => return text
    | none => throw .notText

def isFile (d : Directory) (path : String) : Bool :=
  match d.find path with
  | .ok (_, some (.file _)) => !asksForDirectory path
  | _ => false

/-- Replaces the content of a file, or creates it where only the last part of its path is
missing. -/
def write (d : Directory) (path text : String) : Except FileError Directory := do
  let (names, found) ← d.find path
  let name := names.getLast?.getD ""
  match found, lastPart path with
  | some (.directory _), _ | _, "" => throw .isDirectory
  | some node, _ =>
    if asksForDirectory path then throw .notDirectory
    match node with
    | .device => return d
    | _ => return d.put names (.file text.toUTF8)
  | none, _ =>
    if asksForDirectory path || longestName < Text.byteSize name.toList then throw (absence name)
    return d.put names (.file text.toUTF8)

/-- File access to the directory as state. -/
def access : FileAccess (StateM Directory) where
  read path := do return (← get).read path
  isFile path := do return (← get).isFile path
  write path text := do
    match (← get).write path text with
    | .ok d =>
      set d
      return .ok ()
    | .error cause => return .error cause

end Directory
end DocTemplate
