import DocTemplate.Proofs.NestedReads

/-! The normal form of flattening. A flattened collection has no objects with fields, and a
collection without them is flattened already. -/
namespace DocTemplate

variable {low : Option String} {value v : Variable} {path : List String}

theorem Variable.hasFields_of_mem_leaves (h : ⟨path, v⟩ ∈ value.leaves) : v.hasFields = false := by
  induction path generalizing value with
  | nil => exact (nil_mem_leaves.mp h).2
  | cons key path ih =>
    obtain ⟨fields, inner, _, _, hi⟩ := cons_mem_leaves.mp h
    exact ih hi

/-- Entries without fields are leaves themselves, each under its own key. -/
theorem Entries.leaves_of_not_hasFields {entries : Entries Variable low}
    (h : ∀ entry ∈ entries.toList, entry.2.hasFields = false) :
    entries.leaves = entries.toList.map fun entry => ⟨[entry.1], entry.2⟩ := by
  induction entries with
  | nil => rfl
  | cons key above value rest ih =>
    obtain ⟨hvalue, hrest⟩ := List.forall_mem_cons.mp h
    rw [leaves, toList, Variable.leaves_of_not_hasFields hvalue, ih hrest]
    rfl

namespace Collection

variable {c : Collection}

/-- No variable of the collection is an object with fields. -/
def IsFlat (c : Collection) : Prop := ∀ name v, c.get? name = some v → v.hasFields = false

theorem isFlat_flatten (c : Collection) : c.flatten.IsFlat := by
  intro name v h
  obtain ⟨⟨path, w⟩, hm, _, rfl⟩ := exists_leaf_of_get?_flatten h
  cases path with
  | nil => exact (Entries.nil_not_mem_leaves _ hm).elim
  | cons key path =>
    obtain ⟨value, _, hl⟩ := (Entries.cons_mem_leaves _).mp hm
    exact Variable.hasFields_of_mem_leaves hl

theorem flatten_of_isFlat (h : c.IsFlat) : c.flatten = c := by
  have hall : ∀ entry ∈ c.toList, entry.2.hasFields = false := by simpa [IsFlat] using h
  have hleaves : (c.entries.leaves.map fun leaf => (leaf.name, leaf.value)) = c.toList := by
    rw [Entries.leaves_of_not_hasFields hall, List.map_map]
    exact List.map_id _
  rw [flatten, expandAll_eq_extend, hleaves]
  exact c.ofList_toList

/-- Flattening leaves no object with fields, so it has nothing to do a second time, and it changes
nothing exactly where there was none. -/
theorem flatten_normal_form (c : Collection) :
    c.flatten.IsFlat ∧ c.flatten.flatten = c.flatten ∧ (c.flatten = c ↔ c.IsFlat) := by
  refine ⟨isFlat_flatten c, flatten_of_isFlat (isFlat_flatten c), ?_, flatten_of_isFlat⟩
  intro h
  exact h ▸ isFlat_flatten c

/-- Objects without fields and objects in lists stay, also where another variable has the name. -/
example :
    let items := [Json.object (.ofList [("d", .null)])]
    let inner := Json.object (.ofList [("b", .object .nil), ("c", .array items)])
    let c := ofList [("a", .ofJson inner), ("a.b", .null), ("e", .object .nil)]
    c.flatten.toList = [("a.b", .null), ("a.c", .array items), ("e", .object .nil)] :=
  rfl

end Collection
end DocTemplate
