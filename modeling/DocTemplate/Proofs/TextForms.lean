import DocTemplate.Proofs.TextRoundTrip

/-! The JSON text of variables, made in two ways: written variable by variable, and printed from
the JSON values that the variables stand for. Both give one text, and only a number that is not
finite has none. -/
namespace DocTemplate

variable {low : Option String}

namespace Variable

variable {v : Variable} {e : NotFinite} {text : String}

/-- What keeps a variable from having JSON text. -/
def notFinite? : Variable → Option NotFinite
  | .number (.finite _) => none
  | .number value => some ⟨value⟩
  | _ => none

theorem notFinite?_eq_none_iff : v.notFinite? = none ↔ v.isFinite = true := by
  cases v with
  | number value => cases value <;> simp [notFinite?, isFinite]
  | _ => simp [notFinite?, isFinite]

theorem notFinite?_eq_some_iff :
    v.notFinite? = some e ↔ v = .number e.value ∧ ∀ x, e.value ≠ .finite x := by
  obtain ⟨given⟩ := e
  cases v with
  | number value => cases value <;> simp [notFinite?] <;> grind
  | _ => simp [notFinite?]

theorem serialize_eq (v : Variable) :
    v.serialize = match v.notFinite? with
      | some e => .error e
      | none => .ok v.toJson.compact := by
  cases hv : v.notFinite? with
  | none => exact serialize_eq_compact (notFinite?_eq_none_iff.mp hv)
  | some e =>
    obtain ⟨rfl, hx⟩ := notFinite?_eq_some_iff.mp hv
    obtain ⟨value⟩ := e
    cases value with
    | finite x => exact (hx x rfl).elim
    | _ => rfl

theorem serialize_eq_error_iff :
    v.serialize = .error e ↔ v = .number e.value ∧ ∀ x, e.value ≠ .finite x := by
  rw [← notFinite?_eq_some_iff, serialize_eq]
  cases v.notFinite? <;> simp

theorem serialize_eq_ok_iff :
    v.serialize = .ok text ↔ v.isFinite = true ∧ text = v.toJson.compact := by
  rw [← notFinite?_eq_none_iff, serialize_eq]
  cases v.notFinite? <;> simp [eq_comm]

theorem toJson_of_not_finite (h : v.isFinite = false) : v.toJson = .null := by
  cases v with
  | number value =>
    cases value with
    | finite x => cases h
    | _ => rfl
  | _ => cases h

/-- What is not a number is written as it is shown to people. -/
theorem serialize_eq_display (h : v.kind ≠ .number) : v.serialize = .ok v.display := by
  cases v with
  | number value => exact (h rfl).elim
  | _ => rfl

/-- A number need not be: a zero is written without its sign. -/
example : let zero := Variable.number (.finite (.zero true))
    zero.serialize.toOption = some "0" ∧ zero.display = "-0" := by
  decide +kernel

end Variable

namespace Collection

variable {c : Collection} {e : Variable.NotFinite} {text : String}

/-- What keeps the first variable that has no JSON text, in the order of names, from having it. -/
def notFinite? (c : Collection) : Option Variable.NotFinite :=
  c.toList.findSome? fun entry => entry.2.notFinite?

theorem notFinite?_eq_none_iff :
    c.notFinite? = none ↔ ∀ name v, c.get? name = some v → v.isFinite = true := by
  rw [notFinite?, List.findSome?_eq_none_iff]
  constructor
  · intro h name v hg
    exact Variable.notFinite?_eq_none_iff.mp (h (name, v) (mem_toList_iff.mpr hg))
  · rintro h ⟨name, v⟩ hm
    exact Variable.notFinite?_eq_none_iff.mpr (h name v (mem_toList_iff.mp hm))

theorem exists_notFinite?_iff : (∃ e, c.notFinite? = some e) ↔
    ∃ name value, c.get? name = some (.number value) ∧ ∀ x, value ≠ .finite x := by
  constructor
  · rintro ⟨e, he⟩
    obtain ⟨⟨name, v⟩, hm, hv⟩ := List.exists_of_findSome?_eq_some he
    obtain ⟨rfl, hx⟩ := Variable.notFinite?_eq_some_iff.mp hv
    exact ⟨name, e.value, mem_toList_iff.mp hm, hx⟩
  · rintro ⟨name, value, hg, hx⟩
    have hv : (Variable.number value).notFinite? = some ⟨value⟩ :=
      Variable.notFinite?_eq_some_iff.mpr ⟨rfl, hx⟩
    apply Option.isSome_iff_exists.mp
    rw [notFinite?, List.findSome?_isSome_iff]
    exact ⟨(name, .number value), mem_toList_iff.mpr hg, by rw [hv]; rfl⟩

/-- The variables are written in the order of their names, up to the first that has no text. -/
theorem serializeEntries_eq_error {entries : Entries Variable low}
    (h : (entries.toList.findSome? fun entry => entry.2.notFinite?) = some e) :
    serializeEntries entries = .error e := by
  induction entries with
  | nil => cases h
  | cons name above value rest ih =>
    rw [Entries.toList, List.findSome?_cons] at h
    rw [serializeEntries, Variable.serialize_eq]
    cases hv : value.notFinite? with
    | some found =>
      rw [hv] at h
      cases h
      rfl
    | none =>
      rw [hv] at h
      rw [ih h]
      rfl

theorem serialize_eq (c : Collection) :
    c.serialize = match c.notFinite? with
      | some e => .error e
      | none => .ok (Json.object c.toFields).compact := by
  cases hc : c.notFinite? with
  | some e =>
    rw [serialize, serializeEntries_eq_error hc]
    rfl
  | none =>
    apply serialize_eq_compact
    rw [isFinite, List.all_eq_true]
    rintro ⟨name, v⟩ hm
    exact notFinite?_eq_none_iff.mp hc name v (mem_toList_iff.mp hm)

theorem exists_serialize_eq_error_iff : (∃ e, c.serialize = .error e) ↔
    ∃ name value, c.get? name = some (.number value) ∧ ∀ x, value ≠ .finite x := by
  rw [← exists_notFinite?_iff, serialize_eq]
  cases c.notFinite? <;> simp

theorem serialize_eq_ok_iff : c.serialize = .ok text ↔
    (∀ name v, c.get? name = some v → v.isFinite = true) ∧
      text = (Json.object c.toFields).compact := by
  rw [← notFinite?_eq_none_iff, serialize_eq]
  cases c.notFinite? <;> simp [eq_comm]

end Collection

/-- Variables and collections are written as the compact text of the JSON values they stand for,
which is also what shows all but numbers to people. Writing fails for numbers that are not finite,
whose JSON value is null, and for collections that have such a number under a name. -/
theorem serialize_agrees_with_toJson :
    (∀ v : Variable,
      (∀ e, v.serialize = .error e ↔ v = .number e.value ∧ ∀ x, e.value ≠ .finite x) ∧
        (∀ text, v.serialize = .ok text ↔ v.isFinite = true ∧ text = v.toJson.compact) ∧
        (v.isFinite = false → v.toJson = .null) ∧
        (v.kind ≠ .number → v.serialize = .ok v.display)) ∧
      ∀ c : Collection,
        ((∃ e, c.serialize = .error e) ↔
          ∃ name value, c.get? name = some (.number value) ∧ ∀ x, value ≠ .finite x) ∧
        ∀ text, c.serialize = .ok text ↔
          (∀ name v, c.get? name = some v → v.isFinite = true) ∧
            text = (Json.object c.toFields).compact := by
  constructor
  · intro v
    refine ⟨?_, ?_, Variable.toJson_of_not_finite, Variable.serialize_eq_display⟩
    · intro e
      exact Variable.serialize_eq_error_iff
    · intro text
      exact Variable.serialize_eq_ok_iff
  · intro c
    refine ⟨Collection.exists_serialize_eq_error_iff, ?_⟩
    intro text
    exact Collection.serialize_eq_ok_iff

end DocTemplate
