import DocTemplate.Proofs.NestedReads
import DocTemplate.Settings

/-! Strict settings. They check the variables as they are given, before flattening, so what
flattening brings up from inside objects is not checked. -/
namespace DocTemplate

namespace Collection

variable {c : Collection} {low : Option String} {name : String} {v : Variable}
  {cause : VariableError}

theorem firstInvalid?_eq_none_iff {entries : Entries Variable low} :
    firstInvalid? entries = none ↔
      ∀ name v, entries.get? name = some v → v.validate = .ok () := by
  induction entries with
  | nil => simp [firstInvalid?, Entries.get?]
  | cons key above value rest ih =>
    constructor
    · intro h name v hg
      rw [firstInvalid?] at h
      rw [Entries.get?_cons] at hg
      cases hv : value.validate with
      | error cause => rw [hv] at h; cases h
      | ok _ =>
        rw [hv] at h
        split at hg
        · cases hg
          exact hv
        · exact ih.mp h name v hg
    · intro h
      have hfirst : value.validate = .ok () := h key value (Entries.get?_cons_self above rest)
      rw [firstInvalid?, hfirst]
      exact ih.mpr fun name v hg => h name v (Entries.get?_cons_of_get? hg)

/-- What is found is the first entry, in the order of the names, that breaks a limit. -/
theorem firstInvalid?_eq_some_iff {entries : Entries Variable low} :
    firstInvalid? entries = some (name, cause) ↔
      (∃ v, entries.get? name = some v ∧ v.validate = .error cause) ∧
        ∀ other w, other < name → entries.get? other = some w → w.validate = .ok () := by
  induction entries with
  | nil => simp [firstInvalid?, Entries.get?]
  | cons key above value rest ih =>
    have hself : (Entries.cons key above value rest).get? key = some value :=
      Entries.get?_cons_self above rest
    rw [firstInvalid?]
    cases hv : value.validate with
    | error wrong =>
      constructor
      · rintro ⟨⟩
        refine ⟨⟨value, hself, hv⟩, fun other w hlt hg => ?_⟩
        exact absurd hlt (not_lt.mpr (Entries.le_of_get?_cons hg))
      · rintro ⟨⟨v, hg, he⟩, hbelow⟩
        rcases (Entries.le_of_get?_cons hg).lt_or_eq with hlt | rfl
        · cases (hbelow key value hlt hself).symm.trans hv
        · cases hself.symm.trans hg
          cases hv.symm.trans he
          rfl
    | ok _ =>
      rw [ih]
      constructor
      · rintro ⟨⟨v, hg, he⟩, hbelow⟩
        refine ⟨⟨v, Entries.get?_cons_of_get? hg, he⟩, fun other w hlt hw => ?_⟩
        rw [Entries.get?_cons] at hw
        split at hw
        · cases hw
          exact hv
        · exact hbelow other w hlt hw
      · rintro ⟨⟨v, hg, he⟩, hbelow⟩
        rw [Entries.get?_cons] at hg
        split at hg
        · cases hg
          cases hv.symm.trans he
        · exact ⟨⟨v, hg, he⟩, fun other w hlt hw =>
            hbelow other w hlt (Entries.get?_cons_of_get? hw)⟩

theorem validate_eq_ok_iff :
    c.validate = .ok () ↔ ∀ name v, c.get? name = some v → v.validate = .ok () := by
  have hfirst : c.validate = .ok () ↔ firstInvalid? c.entries = none := by
    rw [validate]
    cases firstInvalid? c.entries with
    | none => simp
    | some entry => simp
  exact hfirst.trans firstInvalid?_eq_none_iff

/-- The variable of this name breaks a limit, and none does whose name has lesser bytes. -/
def FirstInvalid (c : Collection) (name : String) (cause : VariableError) : Prop :=
  (∃ v, c.get? name = some v ∧ v.validate = .error cause) ∧
    ∀ other w, Text.bytes other < Text.bytes name → c.get? other = some w → w.validate = .ok ()

theorem validate_eq_error_iff :
    c.validate = .error cause ↔
      ∃ name wrong, cause = .invalidEntry name wrong ∧ c.FirstInvalid name wrong := by
  simp only [FirstInvalid, Text.bytes_lt_iff]
  rw [validate]
  cases hfirst : firstInvalid? c.entries with
  | none =>
    refine ⟨nofun, ?_⟩
    rintro ⟨name, wrong, _, ⟨v, hg, he⟩, _⟩
    cases (firstInvalid?_eq_none_iff.mp hfirst name v hg).symm.trans he
  | some entry =>
    constructor
    · rintro ⟨⟩
      exact ⟨entry.1, entry.2, rfl, firstInvalid?_eq_some_iff.mp hfirst⟩
    · rintro ⟨name, wrong, rfl, h⟩
      cases hfirst.symm.trans (firstInvalid?_eq_some_iff.mpr h)
      rfl

/-- The value stands inside an object of the collection, and the name is the dotted way to it. -/
def Exposed (c : Collection) (name : String) (v : Variable) : Prop :=
  ∃ root fields segment more value,
    c.get? root = some (.object fields) ∧ Json.descend fields segment more = .ok value ∧
      name = Text.joined "." (root :: segment :: more) ∧ v = .ofJson value

/-- Flattening keeps a variable or brings one up from inside an object. -/
theorem get?_or_exposed_of_get?_flatten (h : c.flatten.get? name = some v) :
    c.get? name = some v ∨ c.Exposed name v := by
  obtain ⟨⟨path, value⟩, hm, rfl, rfl⟩ := exists_leaf_of_get?_flatten h
  cases path with
  | nil => exact (Entries.nil_not_mem_leaves _ hm).elim
  | cons root path =>
    obtain ⟨found, hg, hl⟩ := (Entries.cons_mem_leaves _).mp hm
    cases path with
    | nil =>
      obtain ⟨rfl, _⟩ := Variable.nil_mem_leaves.mp hl
      exact Or.inl hg
    | cons segment more =>
      obtain ⟨fields, _, rfl, _, _⟩ := Variable.cons_mem_leaves.mp hl
      obtain ⟨inner, hd, hi⟩ := Json.mem_leaves_iff_descend.mp hl
      have hv : Variable.ofJson inner = value := (Variable.nil_mem_leaves.mp hi).1
      exact Or.inr ⟨root, fields, segment, more, inner, hg, hd, rfl, hv.symm⟩

end Collection

namespace VariableSettings

open Collection

variable {s : VariableSettings} {c out : Collection} {flatten : Bool}

theorem prepare_ok (h : s.strict = true → c.validate = .ok ()) :
    s.prepare c = .ok (if s.flatten then c.flatten else c) := by
  cases hs : s.strict with
  | false =>
    simp only [prepare, hs]
    rfl
  | true =>
    simp only [prepare, hs, h hs]
    rfl

theorem prepare_error {cause : VariableError} (hs : s.strict = true)
    (h : c.validate = .error cause) : s.prepare c = .error (.variable cause) := by
  simp only [prepare, hs, h]
  rfl

theorem exists_prepare_iff :
    (∃ prepared, s.prepare c = .ok prepared) ↔ (s.strict = true → c.validate = .ok ()) := by
  refine ⟨?_, fun h => ⟨_, prepare_ok h⟩⟩
  rintro ⟨prepared, h⟩ hs
  cases hv : c.validate with
  | ok _ => rfl
  | error cause =>
    rw [prepare_error hs hv] at h
    cases h

theorem prepare_strict_eq_ok_iff :
    (VariableSettings.mk true flatten).prepare c = .ok out ↔
      c.validate = .ok () ∧ out = if flatten then c.flatten else c := by
  cases hv : c.validate with
  | error cause =>
    have hp := prepare_error (s := ⟨true, flatten⟩) rfl hv
    simp [hp]
  | ok _ =>
    have hp := prepare_ok (s := ⟨true, flatten⟩) fun _ => hv
    simp [hp, eq_comm]

theorem prepare_strict_flatten (hc : c.validate = .ok ()) :
    (VariableSettings.mk true true).prepare c = .ok c.flatten :=
  prepare_strict_eq_ok_iff.mpr ⟨hc, (if_pos rfl).symm⟩

/-- Variables that strict settings let through were all within the limits as they were given.
Among those that come out only such as flattening brought up from inside objects can break a
limit; without flattening there are none. -/
theorem strict_prepare_checks_given
    (h : (VariableSettings.mk true flatten).prepare c = .ok out) :
    (∀ name v, c.get? name = some v → v.validate = .ok ()) ∧
      (out.validate = .ok () ↔
        ∀ name v, out.get? name = some v → c.Exposed name v → v.validate = .ok ()) ∧
      (flatten = false → out.validate = .ok ()) := by
  obtain ⟨hc, rfl⟩ := prepare_strict_eq_ok_iff.mp h
  have hgiven := validate_eq_ok_iff.mp hc
  cases flatten with
  | false => exact ⟨hgiven, ⟨fun _ name v hg _ => hgiven name v hg, fun _ => hc⟩, fun _ => hc⟩
  | true =>
    refine ⟨hgiven, validate_eq_ok_iff.trans ⟨fun ho name v hg _ => ho name v hg, ?_⟩, nofun⟩
    intro hexposed name v hg
    rcases get?_or_exposed_of_get?_flatten hg with hkept | he
    · exact hgiven name v hkept
    · exact hexposed name v hg he

/-- Beside a variable that is within the limits, a blank text inside an object. -/
theorem strict_prepare_checks_given_beside_blank :
    let c := ((empty.set "author" (.string "Ann")).setNested "title.short" (.string " ")).2
    (VariableSettings.mk true true).prepare c = .ok c.flatten ∧
      (∀ name v, c.get? name = some v → v.validate = .ok ()) ∧
      (c.flatten.validate = .ok () ↔
        ∀ name v, c.flatten.get? name = some v → c.Exposed name v → v.validate = .ok ()) ∧
      c.Exposed "title.short" (.string " ") := by
  intro c
  have hp := prepare_strict_flatten (c := c) (by decide +kernel)
  obtain ⟨hgiven, hexposed, _⟩ := strict_prepare_checks_given hp
  exact ⟨hp, hgiven, hexposed, "title", _, "short", [], _, rfl, rfl, rfl, rfl⟩

/-- Strict settings let a blank text through that flattening brings up from inside an object. -/
theorem strict_prepare_passes_exposed_blank :
    let c := (empty.setNested "title.short" (.string " ")).2
    ∃ out, (VariableSettings.mk true true).prepare c = .ok out ∧
      out.validate = .error (.invalidEntry "title.short" .emptyString) :=
  ⟨_, prepare_strict_flatten (by decide +kernel), by decide +kernel⟩

end VariableSettings
end DocTemplate
