import DocTemplate.Json.Basic
/-!
Tables under construction. How a table came about decides what may still be added to it: no table
is defined twice, and a value is never extended.
-/
namespace DocTemplate.Toml

/-- How a table came about: by a header of its own, as a part of the path in another header, or as
a part of a dotted key. -/
inductive Origin where
  | header
  | passed
  | dotted
deriving DecidableEq

inductive Item where
  | value (value : Json)
  | table (origin : Origin) (body : Entries Item none)
  | tables (earlier : List (Entries Item none)) (last : Entries Item none)

abbrev Body := Entries Item none

namespace Item

mutual

def toJson : Item → Json
  | .value json => json
  | .table _ body => .object (bodyFields body)
  | .tables earlier last => .array (bodies earlier ++ [.object (bodyFields last)])
termination_by structural item => item

def bodyFields {low : Option String} : Entries Item low → Entries Json low
  | .nil => .nil
  | .cons key above item rest => .cons key above (toJson item) (bodyFields rest)
termination_by structural body => body

def bodies : List (Entries Item none) → List Json
  | [] => []
  | body :: more => .object (bodyFields body) :: bodies more
termination_by structural bodies => bodies

end

end Item

namespace Body

/-- Writes a value under a dotted key. Every part but the last names a table; the innermost one
must have come about by dotted keys, or be the table whose lines these are. -/
def write? (key : String) (value : Json) : (mine : Bool) → Body → List String → Option Body
  | mine, body, [] =>
    if mine && !body.contains key then some (body.insert key (.value value)) else none
  | _, body, part :: more =>
    match body.get? part with
    | none => (write? key value true .nil more).map fun inner =>
        body.insert part (.table .dotted inner)
    | some (.table .dotted inner) => (write? key value true inner more).map fun inner =>
        body.insert part (.table .dotted inner)
    | some (.table .passed inner) => (write? key value false inner more).map fun inner =>
        body.insert part (.table .passed inner)
    | some (.tables earlier last) => (write? key value false last more).map fun last =>
        body.insert part (.tables earlier last)
    | some (.table .header _) | some (.value _) => none

/-- Writes a value under all parts of a key. -/
def assign? (value : Json) (body : Body) (key : List String) : Option Body := do
  let last ← key.getLast?
  write? last value true body key.dropLast

/-- Changes the table at the end of a path of headers. In a list of tables the way leads through
the last one. -/
def alter? (change : Body → Option Body) : Body → List String → Option Body
  | body, [] => change body
  | body, part :: more =>
    match body.get? part with
    | none => (alter? change .nil more).map fun inner =>
        body.insert part (.table .passed inner)
    | some (.table origin inner) => (alter? change inner more).map fun inner =>
        body.insert part (.table origin inner)
    | some (.tables earlier last) => (alter? change last more).map fun last =>
        body.insert part (.tables earlier last)
    | some (.value _) => none

/-- Opens the table of a header. A table that was only passed through may still be opened. -/
def openTable? (key : String) (body : Body) : Option Body :=
  match body.get? key with
  | none => some (body.insert key (.table .header .nil))
  | some (.table .passed inner) => some (body.insert key (.table .header inner))
  | _ => none

/-- Adds a table to the list under a key. -/
def addTable? (key : String) (body : Body) : Option Body :=
  match body.get? key with
  | none => some (body.insert key (.tables [] .nil))
  | some (.tables earlier last) => some (body.insert key (.tables (earlier ++ [last]) .nil))
  | _ => none

end Body
end DocTemplate.Toml
