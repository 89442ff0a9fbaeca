import DocTemplate.Proofs.Leaves

/-! Reads along a path. They find the leaves and the objects above them, and flattening keeps
exactly the leaves, under the paths that lead to them. -/
namespace DocTemplate

variable {low : Option String} {key segment : String} {path more : List String}
  {value v : Variable} {fields : Entries Json none}

namespace Leaf

theorem cons_mem_map_under {leaves : List Leaf} {first : String} :
    ⟨first :: path, v⟩ ∈ leaves.map (under key) ↔ first = key ∧ ⟨path, v⟩ ∈ leaves := by
  constructor
  · intro h
    obtain ⟨⟨tail, w⟩, hm, he⟩ := List.mem_map.mp h
    cases he
    exact ⟨rfl, hm⟩
  · rintro ⟨rfl, hm⟩
    exact List.mem_map.mpr ⟨_, hm, rfl⟩

theorem nil_not_mem_map_under {leaves : List Leaf} : ⟨[], v⟩ ∉ leaves.map (under key) := by
  intro h
  obtain ⟨leaf, _, he⟩ := List.mem_map.mp h
  cases he

end Leaf

namespace Entries

theorem nil_not_mem_leaves (entries : Entries Variable low) : ⟨[], v⟩ ∉ entries.leaves := by
  induction entries with
  | nil => exact List.not_mem_nil
  | cons key above value rest ih =>
    rw [leaves, List.mem_append]
    rintro (h | h)
    · exact Leaf.nil_not_mem_map_under h
    · exact ih h

theorem path_ne_nil {entries : Entries Variable low} {leaf : Leaf} (h : leaf ∈ entries.leaves) :
    leaf.path ≠ [] := by
  obtain ⟨path, value⟩ := leaf
  rintro ⟨⟩
  exact nil_not_mem_leaves entries h

theorem cons_mem_leaves (entries : Entries Variable low) :
    ⟨segment :: path, v⟩ ∈ entries.leaves ↔
      ∃ value, entries.get? segment = some value ∧ ⟨path, v⟩ ∈ value.leaves := by
  induction entries with
  | nil => simp [leaves, get?]
  | cons key above value rest ih =>
    rw [leaves, List.mem_append, Leaf.cons_mem_map_under, ih, get?_cons]
    by_cases he : segment = key
    · subst he
      simp
    · simp [he]

end Entries

namespace Variable

theorem nil_mem_leaves : ⟨[], v⟩ ∈ value.leaves ↔ value = v ∧ v.hasFields = false := by
  cases hf : value.hasFields with
  | false =>
    rw [leaves_of_not_hasFields hf, List.mem_singleton, Leaf.mk.injEq]
    constructor
    · rintro ⟨_, rfl⟩
      exact ⟨rfl, hf⟩
    · rintro ⟨rfl, _⟩
      exact ⟨rfl, rfl⟩
  | true =>
    cases value with
    | object fields =>
      have he : fields.isEmpty = false := by simpa [hasFields] using hf
      rw [leaves_object he]
      constructor
      · intro h
        exact (Entries.nil_not_mem_leaves _ h).elim
      · rintro ⟨rfl, hv⟩
        rw [hf] at hv
        cases hv
    | _ => cases hf

theorem cons_mem_leaves : ⟨segment :: path, v⟩ ∈ value.leaves ↔
    ∃ fields inner, value = .object fields ∧ fields.get? segment = some inner ∧
      ⟨path, v⟩ ∈ (ofJson inner).leaves := by
  cases value with
  | object fields =>
    cases he : fields.isEmpty with
    | true =>
      have hf : (object fields).hasFields = false := by simp [hasFields, he]
      simp [leaves_of_not_hasFields hf, Entries.get?_of_isEmpty he]
    | false =>
      rw [leaves_object he, Entries.cons_mem_leaves, Entries.get?_map]
      simp
  | _ => simp [leaves]

end Variable

/-- The way down through the fields of objects ends in a leaf where the list of leaves has one. -/
theorem Json.mem_leaves_iff_descend :
    ⟨segment :: more, v⟩ ∈ (Variable.object fields).leaves ↔
      ∃ value, descend fields segment more = .ok value ∧
        ⟨[], v⟩ ∈ (Variable.ofJson value).leaves := by
  induction more generalizing fields segment with
  | nil =>
    rw [Variable.cons_mem_leaves, descend]
    cases hf : fields.get? segment <;> simp [hf]
  | cons next more ih =>
    rw [Variable.cons_mem_leaves, descend]
    cases hf : fields.get? segment with
    | none => simp [hf]
    | some found =>
      cases found with
      | object inner => simp [hf, Variable.ofJson, ih]
      | _ => simp [hf, Variable.ofJson, Variable.leaves]

namespace Collection

variable {c : Collection} {text : String}

theorem getNested_missing (h : c.get? (Path.ofText text).root = none) :
    c.getNested text = .error (.notFound text (Path.ofText text).root) := by
  simp only [getNested, h]

theorem getNested_root (hr : (Path.ofText text).rest = [])
    (h : c.get? (Path.ofText text).root = some value) : c.getNested text = .ok value := by
  simp only [getNested, h, hr]

theorem getNested_object (hr : (Path.ofText text).rest = segment :: more)
    (h : c.get? (Path.ofText text).root = some (.object fields)) :
    c.getNested text =
      ((Json.descend fields segment more).mapError (Obstacle.error (Path.ofText text))).map
        Variable.ofJson := by
  simp only [getNested, h, hr]
  cases Json.descend fields segment more <;> rfl

theorem getNested_blocked (hr : (Path.ofText text).rest = segment :: more)
    (h : c.get? (Path.ofText text).root = some value) (ho : ∀ fields, value ≠ .object fields) :
    c.getNested text = .error (.notAnObject text (Path.ofText text).root value.kind) := by
  cases value with
  | object fields => exact (ho fields rfl).elim
  | _ => simp only [getNested, h, hr]

/-- A path leads to a leaf where the list of leaves has one under its segments. -/
theorem mem_leaves_iff_getNested :
    ⟨(Path.ofText text).segments, v⟩ ∈ c.leaves ↔
      c.getNested text = .ok v ∧ v.hasFields = false := by
  rw [leaves, Path.segments, Entries.cons_mem_leaves]
  cases hg : c.get? (Path.ofText text).root with
  | none =>
    have hn : c.entries.get? (Path.ofText text).root = none := hg
    simp [getNested_missing hg, hn]
  | some value =>
    have hn : c.entries.get? (Path.ofText text).root = some value := hg
    cases hr : (Path.ofText text).rest with
    | nil =>
      rw [getNested_root hr hg, hn]
      simp only [Option.some.injEq, exists_eq_left', Variable.nil_mem_leaves, Except.ok.injEq]
    | cons segment more =>
      rw [hn]
      simp only [Option.some.injEq, exists_eq_left']
      by_cases ho : ∃ fields, value = .object fields
      · obtain ⟨fields, rfl⟩ := ho
        rw [getNested_object hr hg, Json.mem_leaves_iff_descend]
        cases Json.descend fields segment more with
        | error obstacle => simp [Except.mapError, Except.map]
        | ok found =>
          simp only [Except.mapError, Except.map, Except.ok.injEq, exists_eq_left',
            Variable.nil_mem_leaves]
      · have hb : ∀ fields, value ≠ .object fields := fun fields he => ho ⟨fields, he⟩
        rw [getNested_blocked hr hg hb, Variable.cons_mem_leaves]
        simp [hb]

end Collection
end DocTemplate
