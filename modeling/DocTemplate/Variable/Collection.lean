import DocTemplate.Variable.Path
import DocTemplate.Variable.Raw
/-!
Collections of named variables, kept in the order of their names.
-/
namespace DocTemplate

structure Collection where
  entries : Entries Variable none

namespace Collection

def empty : Collection := ⟨.nil⟩

/-- The collection of the fields of an object. -/
def ofFields (fields : Entries Json none) : Collection := ⟨fields.map Variable.ofJson⟩

/-- Only an object is a collection. -/
def ofJson : Json → Except VariableError Collection
  | .object fields => .ok (ofFields fields)
  | other => .error (.typeMismatch .object other.kind)

/-- The variables under their names, as JSON values; nothing is expanded. -/
def toFields (c : Collection) : Entries Json none := c.entries.map Variable.toJson

/-- Of pairs with one name the last counts. -/
def ofList (pairs : List (String × Variable)) : Collection := ⟨.ofList pairs⟩

def get? (c : Collection) (name : String) : Option Variable := c.entries.get? name

def tryGet (c : Collection) (name : String) : Except VariableError Variable :=
  match c.get? name with
  | some value => .ok value
  | none => .error (.notFound name name)

def has (c : Collection) (name : String) : Bool := c.entries.contains name

def set (c : Collection) (name : String) (value : Variable) : Collection :=
  ⟨c.entries.insert name value⟩

/-- Sets a variable, and tells which one it replaced. -/
def replace (c : Collection) (name : String) (value : Variable) : Option Variable × Collection :=
  (c.get? name, c.set name value)

/-- Takes a variable out, and tells which one it was. -/
def delete (c : Collection) (name : String) : Option Variable × Collection :=
  (c.get? name, ⟨c.entries.erase name⟩)

def extend (c : Collection) (pairs : List (String × Variable)) : Collection :=
  ⟨c.entries.insertMany pairs⟩

def size (c : Collection) : Nat := c.entries.size

def isEmpty (c : Collection) : Bool := c.entries.isEmpty

def names (c : Collection) : List String := c.entries.keys

def toList (c : Collection) : List (String × Variable) := c.entries.toList

/-- Equality entry by entry. -/
def same (c d : Collection) : Bool :=
  c.size == d.size &&
    (c.toList.zip d.toList).all fun ((name, value), (name', value')) =>
      name == name' && value.same value'

/-- The variable at the end of a path. Below the root the way goes through JSON objects. -/
def getNested (c : Collection) (text : String) : Except VariableError Variable :=
  let path := Path.ofText text
  match c.get? path.root, path.rest with
  | none, _ => .error (.notFound text path.root)
  | some value, [] => .ok value
  | some (.object fields), segment :: more =>
    match Json.descend fields segment more with
    | .ok value => .ok (.ofJson value)
    | .error obstacle => .error (obstacle.error path)
  | some other, _ :: _ => .error (.notAnObject text path.root other.kind)

/-- Writes a variable at the end of a path, creating the objects on the way that are missing, and
tells whether the way was free. -/
def setNested (c : Collection) (text : String) (value : Variable) :
    Except VariableError Unit × Collection :=
  let path := Path.ofText text
  let below (fields : Entries Json none) (segment : String) (more : List String) :=
    let (fields, obstacle) := Json.plant value.toJson fields segment more
    let result := match obstacle with
      | none => .ok ()
      | some obstacle => .error (obstacle.error path)
    (result, c.set path.root (.object fields))
  match path.rest, c.get? path.root with
  | [], _ => (.ok (), c.set text value)
  | segment :: more, none => below .nil segment more
  | segment :: more, some (.object fields) => below fields segment more
  | _ :: _, some other => (.error (.notAnObject text path.root other.kind), c)

/-- The first variable, in the order of names, that breaks a limit. -/
def firstInvalid? : {low : Option String} → Entries Variable low → Option (String × VariableError)
  | _, .nil => none
  | _, .cons name _ value rest =>
    match value.validate with
    | .ok () => firstInvalid? rest
    | .error cause => some (name, cause)

def validate (c : Collection) : Except VariableError Unit :=
  match firstInvalid? c.entries with
  | none => .ok ()
  | some (name, cause) => .error (.invalidEntry name cause)

def serializeEntries :
    {low : Option String} → Entries Variable low → Except Variable.NotFinite (List String)
  | _, .nil => .ok []
  | _, .cons name _ value rest => do
    let text ← value.serialize
    let more ← serializeEntries rest
    return (Json.quoted name ++ ":" ++ text) :: more

/-- The JSON text of the collection, each variable written by itself. -/
def serialize (c : Collection) : Except Variable.NotFinite String := do
  let fields ← serializeEntries c.entries
  return "\x7b" ++ Text.joined "," fields ++ "\x7d"

/-- The collection that a JSON text writes, for any reader of JSON. -/
def deserialize? (read : String → Option Json) (text : String) : Option Collection :=
  match read text with
  | some (.object fields) => some (ofFields fields)
  | _ => none

end Collection
end DocTemplate
