import DocTemplate.Proofs.DottedNames
import DocTemplate.Proofs.NestedReads

/-! Look-ups in a flattened collection whose keys have no dots. A name then stands for one path
only, and finds there what reading along the path finds. -/
namespace DocTemplate

mutual

/-- Whether no key of the value, or of an object that objects lead to, has a dot. -/
def Json.dotFree : Json → Bool
  | .object fields => dotFreeBelow fields
  | _ => true
termination_by structural value => value

def Json.dotFreeBelow {low : Option String} : Entries Json low → Bool
  | .nil => true
  | .cons key _ value rest => !key.toList.contains '.' && dotFree value && dotFreeBelow rest
termination_by structural fields => fields

end

@[simp]
theorem Leaf.name_segments (path : Path) (v : Variable) : (mk path.segments v).name = path.text :=
  path.joined_segments

def Variable.dotFree : Variable → Bool
  | .object fields => Json.dotFreeBelow fields
  | _ => true

def Entries.dotFree : {low : Option String} → Entries Variable low → Bool
  | _, .nil => true
  | _, .cons key _ value rest => !key.toList.contains '.' && value.dotFree && rest.dotFree

def Collection.dotFree (c : Collection) : Bool := c.entries.dotFree

variable {low : Option String} {key : String} {value v : Variable} {path : List String}

theorem Variable.dotFree_ofJson (value : Json) :
    (Variable.ofJson value).dotFree = value.dotFree := by
  cases value <;> rfl

theorem Json.dotFreeBelow_eq (fields : Entries Json low) :
    Json.dotFreeBelow fields = (fields.map Variable.ofJson).dotFree := by
  induction fields with
  | nil => rfl
  | cons key above value rest ih =>
    rw [dotFreeBelow, ih, Entries.map, Entries.dotFree, Variable.dotFree_ofJson]

theorem Entries.dotFree_of_get? {entries : Entries Variable low} (h : entries.dotFree = true)
    (hg : entries.get? key = some value) : '.' ∉ key.toList ∧ value.dotFree = true := by
  induction entries with
  | nil => cases hg
  | cons first above found rest ih =>
    simp only [dotFree, Bool.and_eq_true, Bool.not_eq_true', List.contains_eq_mem,
      decide_eq_false_iff_not] at h
    rw [get?_cons] at hg
    split at hg
    · subst key
      cases hg
      exact h.1
    · exact ih h.2 hg

theorem Variable.path_dotFree (h : value.dotFree = true) (hm : ⟨path, v⟩ ∈ value.leaves) :
    ∀ segment ∈ path, '.' ∉ segment.toList := by
  induction path generalizing value with
  | nil => simp
  | cons key path ih =>
    obtain ⟨fields, inner, rfl, hg, hi⟩ := Variable.cons_mem_leaves.mp hm
    rw [dotFree, Json.dotFreeBelow_eq] at h
    have hinner : (fields.map ofJson).get? key = some (ofJson inner) := by simp [hg]
    have hd := Entries.dotFree_of_get? h hinner
    exact List.forall_mem_cons.mpr ⟨hd.1, ih hd.2 hi⟩

namespace Collection

variable {c : Collection}

theorem path_dotFree (h : c.dotFree = true) (hm : ⟨path, v⟩ ∈ c.leaves) :
    ∀ segment ∈ path, '.' ∉ segment.toList := by
  cases path with
  | nil => simp
  | cons key path =>
    obtain ⟨value, hg, hi⟩ := (Entries.cons_mem_leaves c.entries).mp hm
    have hd := Entries.dotFree_of_get? h hg
    exact List.forall_mem_cons.mpr ⟨hd.1, Variable.path_dotFree hd.2 hi⟩

/-- Without dots in the keys, a leaf has the name that its path is written with. -/
theorem path_of_name (h : c.dotFree = true) {leaf : Leaf} (hm : leaf ∈ c.leaves) :
    leaf.path = (Path.ofText leaf.name).segments :=
  (Path.segments_joined (Entries.path_ne_nil hm) (path_dotFree h hm)).symm

theorem get?_flatten_iff_mem (h : c.dotFree = true) {name : String} :
    c.flatten.get? name = some v ↔ ⟨(Path.ofText name).segments, v⟩ ∈ c.leaves := by
  have hforth : ∀ {w}, c.flatten.get? name = some w →
      ⟨(Path.ofText name).segments, w⟩ ∈ c.leaves := by
    intro w hw
    obtain ⟨leaf, hm, rfl, rfl⟩ := exists_leaf_of_get?_flatten hw
    rw [← path_of_name h hm]
    exact hm
  refine ⟨hforth, ?_⟩
  intro hm
  have hs : c.flatten.has name = true := by simpa using has_flatten_of_mem hm
  obtain ⟨w, hw⟩ := Option.isSome_iff_exists.mp hs
  -- The value that stays is read along the same path, so it is the one that was written.
  have hv := (mem_leaves_iff_getNested.mp hm).1
  rw [(mem_leaves_iff_getNested.mp (hforth hw)).1] at hv
  cases hv
  exact hw

/-- Flattening and reading along a path agree on every name: what has fields is gone from the
flattened collection, and all else that the path leads to is there. -/
theorem flatten_agrees_with_getNested (h : c.dotFree = true) (name : String) :
    (∀ v, c.flatten.get? name = some v ↔ c.getNested name = .ok v ∧ v.hasFields = false) ∧
      (c.flatten.has name = false ↔
        (∃ e, c.getNested name = .error e) ∨
          ∃ v, c.getNested name = .ok v ∧ v.hasFields = true) := by
  have hg : ∀ v, c.flatten.get? name = some v ↔
      c.getNested name = .ok v ∧ v.hasFields = false :=
    fun v => (get?_flatten_iff_mem h).trans mem_leaves_iff_getNested
  have hh : c.flatten.has name = false ↔ ∀ v, c.flatten.get? name ≠ some v := by
    rw [has, Entries.contains, Option.isSome_eq_false_iff, Option.isNone_iff_eq_none,
      Option.eq_none_iff_forall_ne_some]
    rfl
  refine ⟨hg, hh.trans ?_⟩
  simp only [ne_eq, hg]
  cases hr : c.getNested name with
  | error e => simp
  | ok w => simp

/-- An object with fields, an object without, and a name that ends in a dot. -/
theorem flatten_agrees_on_nested_object :
    let c := (((empty.setNested "a.b." (.boolean true)).2.setNested "a.c" (.object .nil)).2)
    c.dotFree = true ∧
      ((∀ v, c.flatten.get? "a.b." = some v ↔ c.getNested "a.b." = .ok v ∧ v.hasFields = false) ∧
        (c.flatten.has "a.b." = false ↔
          (∃ e, c.getNested "a.b." = .error e) ∨
            ∃ v, c.getNested "a.b." = .ok v ∧ v.hasFields = true)) :=
  ⟨rfl, flatten_agrees_with_getNested rfl "a.b."⟩

end Collection
end DocTemplate
