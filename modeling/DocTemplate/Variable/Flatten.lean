import DocTemplate.Variable.Collection
/-!
Flattening: nested objects give way to variables with dotted names, in the order of the names, so
that of two values with one dotted name the later one stays.
-/
namespace DocTemplate

mutual

/-- Writes a value under a name, or its fields below the name if it is an object that has any. -/
def Json.expand (name : String) : Json → Collection → Collection
  | .object fields, out =>
    if fields.isEmpty then out.set name (.object fields) else expandFields name fields out
  | leaf, out => out.set name (.ofJson leaf)
termination_by structural value => value

def Json.expandFields (name : String) {low : Option String} :
    Entries Json low → Collection → Collection
  | .nil, out => out
  | .cons key _ value rest, out =>
    expandFields name rest (expand (name ++ "." ++ key) value out)
termination_by structural fields => fields

end

namespace Collection

def expandAll : {low : Option String} → Entries Variable low → Collection → Collection
  | _, .nil, out => out
  | _, .cons name _ (.object fields) rest, out =>
    expandAll rest <|
      if fields.isEmpty then out.set name (.object fields) else Json.expandFields name fields out
  | _, .cons name _ value rest, out => expandAll rest (out.set name value)

/-- The collection with every object that has fields replaced by its fields, at any depth. -/
def flatten (c : Collection) : Collection := expandAll c.entries empty

end Collection
end DocTemplate
