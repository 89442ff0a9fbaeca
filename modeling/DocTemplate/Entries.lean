/-!
Entries in the order of their keys: each key stands above the one before it, so a key has at most
one value, and two sets of entries with the same values are the same.
-/
namespace DocTemplate

/-- The key is above the bound. No bound is below every key. -/
def Above : Option String → String → Prop
  | none, _ => True
  | some bound, key => bound < key

/-- Entries whose keys all stand above `low`. -/
inductive Entries (α : Type) : Option String → Type where
  | nil {low : Option String} : Entries α low
  | cons {low : Option String} (key : String) (above : Above low key) (value : α)
      (rest : Entries α (some key)) : Entries α low

theorem Above.trans {low : Option String} {a b : String} (ha : Above low a) (hb : a < b) :
    Above low b := by
  cases low with
  | none => trivial
  | some _ => exact String.lt_trans ha hb

namespace Entries
variable {α β : Type} {low : Option String}

def get? (name : String) : {low : Option String} → Entries α low → Option α
  | _, .nil => none
  | _, .cons key _ value rest =>
    if name < key then none else if key < name then rest.get? name else some value

def insertAbove (name : String) (given : α) :
    {low : Option String} → Above low name → Entries α low → Entries α low
  | _, above, .nil => .cons name above given .nil
  | _, above, .cons key keyAbove value rest =>
    if h : name < key then .cons name above given (.cons key h value rest)
    else if h : key < name then .cons key keyAbove value (rest.insertAbove name given h)
    else .cons key keyAbove given rest

/-- Entries above a bound are entries above any lower one. -/
def lower {a : String} (ha : Above low a) : Entries α (some a) → Entries α low
  | .nil => .nil
  | .cons key above value rest => .cons key (ha.trans above) value rest

def erase (name : String) : {low : Option String} → Entries α low → Entries α low
  | _, .nil => .nil
  | _, .cons key above value rest =>
    if name < key then .cons key above value rest
    else if key < name then .cons key above value (rest.erase name)
    else rest.lower above

def toList : {low : Option String} → Entries α low → List (String × α)
  | _, .nil => []
  | _, .cons key _ value rest => (key, value) :: rest.toList

def keys (entries : Entries α low) : List String := entries.toList.map (·.1)

def size (entries : Entries α low) : Nat := entries.toList.length

def isEmpty : Entries α low → Bool
  | .nil => true
  | .cons .. => false

def contains (name : String) (entries : Entries α low) : Bool := (entries.get? name).isSome

def map (f : α → β) : {low : Option String} → Entries α low → Entries β low
  | _, .nil => .nil
  | _, .cons key above value rest => .cons key above (f value) (rest.map f)

def insert (entries : Entries α none) (name : String) (value : α) : Entries α none :=
  entries.insertAbove name value trivial

/-- Writes the entries of a list one after the other: of a repeated name the last one stays. -/
def insertMany (entries : Entries α none) (given : List (String × α)) : Entries α none :=
  given.foldl (fun entries (name, value) => entries.insert name value) entries

def ofList (given : List (String × α)) : Entries α none := insertMany .nil given

end Entries
end DocTemplate
