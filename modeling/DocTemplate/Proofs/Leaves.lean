import DocTemplate.Proofs.Collections
import DocTemplate.Variable.Flatten

/-! The leaves of a collection: what is reached through objects and has no fields itself. Flattening
writes the leaves one after the other under their dotted names. -/
namespace DocTemplate

/-- A value without fields, and the keys on the way to it. -/
structure Leaf where
  path : List String
  value : Variable

namespace Leaf

def under (key : String) (leaf : Leaf) : Leaf := ⟨key :: leaf.path, leaf.value⟩

/-- The dotted name of a leaf. -/
def name (leaf : Leaf) : String := Text.joined "." leaf.path

/-- The value of the leaf, if this is its name. -/
def named? (name : String) (leaf : Leaf) : Option Variable :=
  if leaf.name = name then some leaf.value else none

end Leaf

/-- Whether a variable is an object with at least one field. -/
def Variable.hasFields : Variable → Bool
  | .object fields => !fields.isEmpty
  | _ => false

mutual

def Json.leaves : Json → List Leaf
  | .object fields => if fields.isEmpty then [⟨[], .object fields⟩] else leavesBelow fields
  | other => [⟨[], .ofJson other⟩]
termination_by structural value => value

def Json.leavesBelow {low : Option String} : Entries Json low → List Leaf
  | .nil => []
  | .cons key _ value rest => (leaves value).map (Leaf.under key) ++ leavesBelow rest
termination_by structural fields => fields

end

def Variable.leaves : Variable → List Leaf
  | .object fields => Json.leaves (.object fields)
  | other => [⟨[], other⟩]

def Entries.leaves : {low : Option String} → Entries Variable low → List Leaf
  | _, .nil => []
  | _, .cons key _ value rest => value.leaves.map (Leaf.under key) ++ rest.leaves

def Collection.leaves (c : Collection) : List Leaf := c.entries.leaves

variable {low : Option String} {value : Variable}

@[simp]
theorem Variable.leaves_ofJson (value : Json) : (Variable.ofJson value).leaves = value.leaves := by
  cases value <;> rfl

/-- Below the root the fields of an object take the place of the entries of a collection. -/
theorem Json.leavesBelow_eq (fields : Entries Json low) :
    Json.leavesBelow fields = (fields.map Variable.ofJson).leaves := by
  induction fields with
  | nil => rfl
  | cons key above value rest ih =>
    rw [leavesBelow, ih, Entries.map, Entries.leaves, Variable.leaves_ofJson]

theorem Variable.leaves_of_not_hasFields (h : value.hasFields = false) :
    value.leaves = [⟨[], value⟩] := by
  cases value with
  | object fields =>
    have he : fields.isEmpty = true := by simpa [hasFields] using h
    rw [leaves, Json.leaves, if_pos he]
  | _ => rfl

theorem Variable.leaves_object {fields : Entries Json none} (h : fields.isEmpty = false) :
    (Variable.object fields).leaves = (fields.map Variable.ofJson).leaves := by
  rw [leaves, Json.leaves, h, ← Json.leavesBelow_eq]
  rfl

/-! What flattening writes. -/

theorem Leaf.name_under_under (name key : String) (leaf : Leaf) :
    ((leaf.under key).under name).name = (leaf.under (name ++ "." ++ key)).name := by
  obtain ⟨path, value⟩ := leaf
  cases path with
  | nil => rfl
  | cons segment more =>
    simp only [under, Leaf.name, Text.joined, String.append_assoc]

mutual

theorem Json.expand_eq_extend (name : String) : ∀ (value : Json) (out : Collection),
    expand name value out = out.extend (value.leaves.map fun leaf =>
      ((leaf.under name).name, leaf.value))
  | .object fields, out => by
    rw [expand, leaves]
    split
    · rfl
    · exact expandFields_eq_extend name fields out
  | .null, _ | .boolean _, _ | .number _, _ | .string _, _ | .array _, _ => rfl
termination_by structural value => value

theorem Json.expandFields_eq_extend (name : String) {low : Option String} :
    ∀ (fields : Entries Json low) (out : Collection),
      expandFields name fields out = out.extend ((leavesBelow fields).map fun leaf =>
        ((leaf.under name).name, leaf.value))
  | .nil, _ => rfl
  | .cons key _ value rest, out => by
    rw [expandFields, expandFields_eq_extend name rest, expand_eq_extend, leavesBelow,
      List.map_append, List.map_map, Collection.extend_append]
    simp only [Function.comp_def, Leaf.name_under_under]
    rfl
termination_by structural fields => fields

end

namespace Collection

theorem expandAll_eq_extend (entries : Entries Variable low) (out : Collection) :
    expandAll entries out = out.extend (entries.leaves.map fun leaf =>
      (leaf.name, leaf.value)) := by
  induction entries generalizing out with
  | nil => rfl
  | cons name above value rest ih =>
    rw [Entries.leaves, List.map_append, List.map_map, extend_append, ← ih]
    cases value with
    | object fields =>
      rw [expandAll]
      congr 1
      exact Json.expand_eq_extend name (.object fields) out
    | _ => rfl

/-- Flattening writes the leaves in their order, so of those with one name the last one stays. -/
theorem get?_flatten (c : Collection) (name : String) :
    c.flatten.get? name = c.leaves.reverse.findSome? (Leaf.named? name) := by
  rw [flatten, expandAll_eq_extend, get?_extend, ← List.map_reverse, List.findSome?_map]
  exact Option.or_none

theorem exists_leaf_of_get?_flatten {c : Collection} {name : String}
    (h : c.flatten.get? name = some value) :
    ∃ leaf ∈ c.leaves, leaf.name = name ∧ leaf.value = value := by
  rw [get?_flatten] at h
  obtain ⟨leaf, hm, hl⟩ := List.exists_of_findSome?_eq_some h
  rw [Leaf.named?] at hl
  split at hl
  · rename_i hn
    exact ⟨leaf, List.mem_reverse.mp hm, hn, Option.some.inj hl⟩
  · cases hl

/-- Each leaf leaves its name in the flattened collection, if not always its value. -/
theorem has_flatten_of_mem {c : Collection} {leaf : Leaf} (h : leaf ∈ c.leaves) :
    c.flatten.has leaf.name = true := by
  have hs : (c.leaves.reverse.findSome? (Leaf.named? leaf.name)).isSome = true := by
    rw [List.findSome?_isSome_iff]
    exact ⟨leaf, List.mem_reverse.mpr h, by simp [Leaf.named?]⟩
  rw [← get?_flatten] at hs
  exact hs

end Collection
end DocTemplate
