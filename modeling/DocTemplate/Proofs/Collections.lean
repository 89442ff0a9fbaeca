import DocTemplate.Proofs.Entries
import DocTemplate.Variable.Collection

/-! Laws of collections: what is found under a name after variables are set, and in the collection
of the fields of an object. -/
namespace DocTemplate.Collection

variable {c d : Collection} {name other : String} {value given : Variable}
  {pairs more : List (String × Variable)}

/-- A collection is given by what is found in it. -/
@[ext]
theorem ext (h : ∀ name, c.get? name = d.get? name) : c = d :=
  congrArg Collection.mk (Entries.ext h)

@[simp]
theorem get?_empty : empty.get? name = none := rfl

@[grind =]
theorem get?_set : (c.set name given).get? other =
    if other = name then some given else c.get? other :=
  Entries.get?_insert c.entries

@[simp]
theorem get?_set_self : (c.set name given).get? name = some given :=
  Entries.get?_insert_self c.entries

@[simp]
theorem get?_set_of_ne (h : other ≠ name) : (c.set name given).get? other = c.get? other :=
  Entries.get?_insert_of_ne c.entries h

@[simp]
theorem set_set : (c.set name value).set name given = c.set name given := by
  ext key : 1
  grind

theorem set_comm (h : name ≠ other) :
    (c.set name value).set other given = (c.set other given).set name value := by
  ext key : 1
  grind

theorem set_of_get? (h : c.get? name = some given) : c.set name given = c := by
  ext key : 1
  grind

@[grind =]
theorem has_eq_isSome : c.has name = (c.get? name).isSome := rfl

@[simp]
theorem has_set : (c.set name given).has other = true ↔ other = name ∨ c.has other = true := by
  grind

@[simp]
theorem mem_toList_iff : (name, value) ∈ c.toList ↔ c.get? name = some value :=
  Entries.mem_toList_iff

@[simp]
theorem get?_ofFields (fields : Entries Json none) (name : String) :
    (ofFields fields).get? name = (fields.get? name).map Variable.ofJson :=
  Entries.get?_map Variable.ofJson fields

@[simp]
theorem get?_toFields (c : Collection) (name : String) :
    c.toFields.get? name = (c.get? name).map Variable.toJson :=
  Entries.get?_map Variable.toJson c.entries

@[simp]
theorem ofList_toList (c : Collection) : ofList c.toList = c :=
  congrArg Collection.mk (Entries.ofList_toList c.entries)

theorem extend_append : c.extend (pairs ++ more) = (c.extend pairs).extend more :=
  congrArg Collection.mk List.foldl_append

theorem get?_extend : (c.extend pairs).get? name =
    (pairs.reverse.findSome? fun pair => if pair.1 = name then some pair.2 else none).or
      (c.get? name) := by
  induction pairs generalizing c with
  | nil => rfl
  | cons pair pairs ih =>
    have hs : c.extend (pair :: pairs) = (c.set pair.1 pair.2).extend pairs := rfl
    rw [hs, ih, get?_set, List.reverse_cons, List.findSome?_append, Option.or_assoc]
    congr 1
    by_cases h : pair.1 = name
    · simp [h]
    · simp [h, Ne.symm h]

end DocTemplate.Collection
