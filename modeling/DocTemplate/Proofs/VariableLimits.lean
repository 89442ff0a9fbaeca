import DocTemplate.Proofs.RawRoundTrip
import DocTemplate.Proofs.TextSearch

/-! The limits on variables, said without the checks: of the text between the blanks, of the value
that a number stands for, and of the number of items or fields. A variable that is constructed and
one that is checked afterwards go by the same limits. -/
namespace DocTemplate

namespace Decimal

namespace Finite

variable {x y : Finite}

/-- The position of a number without its sign. -/
def distance (x : Finite) : Nat := x.scale.val * 4503599627370496 + x.fraction.val

theorem rank_eq (x : Finite) :
    x.rank = if x.negative then -(x.distance : Int) else x.distance := by
  simp [rank, distance]

theorem exponent_le_of_distance_le (h : x.distance ≤ y.distance) : x.exponent ≤ y.exponent := by
  have hx := x.fraction.isLt
  have hy := y.fraction.isLt
  simp only [distance] at h
  simp only [exponent]
  split <;> split <;> omega

theorem magnitude_lt_of_distance_lt (h : x.distance < y.distance) :
    x.magnitude < y.magnitude := by
  have hx := x.significand_add_exponent
  have hy := y.significand_add_exponent
  have hz : (0 : ℚ) < 2 ^ x.exponent := by positivity
  rcases (exponent_le_of_distance_le h.le).lt_or_eq with hlt | he
  · -- the next binade begins above every number of this one
    have hnormal : y.scale.val ≠ 0 := by
      intro h0
      have hge := x.exponent_ge
      have hleast : y.exponent = -1074 := by rw [exponent, if_pos h0]
      omega
    have hlow : (x.significand : ℚ) < 2 * 4503599627370496 := by
      have := x.significand_le
      exact_mod_cast (by omega : x.significand < 2 * 4503599627370496)
    have hhigh : (4503599627370496 : ℚ) ≤ y.significand := by
      exact_mod_cast (significand_normal hnormal).1
    calc x.magnitude < 2 * 4503599627370496 * 2 ^ x.exponent :=
          mul_lt_mul_of_pos_right hlow hz
      _ = 4503599627370496 * 2 ^ (x.exponent + 1) := by rw [zpow_add_one₀ two_ne_zero]; ring
      _ ≤ y.significand * 2 ^ y.exponent := by
          have hpow : (2 : ℚ) ^ (x.exponent + 1) ≤ 2 ^ y.exponent :=
            zpow_le_zpow_right₀ one_le_two hlt
          gcongr
  · have hs : x.significand < y.significand := by
      simp only [distance] at h
      rw [he] at hx
      omega
    rw [magnitude, magnitude, ← he]
    exact mul_lt_mul_of_pos_right (by exact_mod_cast hs) hz

theorem magnitude_eq_of_distance_eq (h : x.distance = y.distance) :
    x.magnitude = y.magnitude := by
  have hx := x.significand_add_exponent
  have hy := y.significand_add_exponent
  have he : x.exponent = y.exponent :=
    le_antisymm (exponent_le_of_distance_le h.le) (exponent_le_of_distance_le h.ge)
  have hs : x.significand = y.significand := by
    simp only [distance] at h
    rw [he] at hx
    omega
  rw [magnitude, magnitude, he, hs]

theorem magnitude_zero (negative : Bool) : (zero negative).magnitude = 0 := by
  simp [magnitude, significand, zero]

theorem distance_zero (negative : Bool) : (zero negative).distance = 0 := by
  simp [distance, zero]

theorem magnitude_pos_of_distance (h : 0 < x.distance) : 0 < x.magnitude := by
  rw [← magnitude_zero false]
  apply magnitude_lt_of_distance_lt
  rwa [distance_zero]

theorem magnitude_eq_zero_of_distance (h : x.distance = 0) : x.magnitude = 0 := by
  rw [← magnitude_zero false]
  apply magnitude_eq_of_distance_eq
  rwa [distance_zero]

theorem value_lt_of_rank_lt (h : x.rank < y.rank) : x.value < y.value := by
  have hx := x.magnitude_nonneg
  have hy := y.magnitude_nonneg
  rw [rank_eq, rank_eq] at h
  rw [value, value]
  cases hsx : x.negative <;> cases hsy : y.negative <;>
    simp only [hsx, hsy, if_true, if_false, Bool.false_eq_true] at h ⊢
  · exact magnitude_lt_of_distance_lt (by omega)
  · omega
  · -- at least one of the two is not zero
    rcases Nat.eq_zero_or_pos x.distance with h0 | hpos
    · have := magnitude_pos_of_distance (x := y) (by omega)
      linarith
    · have := magnitude_pos_of_distance hpos
      linarith
  · have := magnitude_lt_of_distance_lt (x := y) (y := x) (by omega)
    linarith

theorem value_eq_of_rank_eq (h : x.rank = y.rank) : x.value = y.value := by
  rw [rank_eq, rank_eq] at h
  rw [value, value]
  cases hsx : x.negative <;> cases hsy : y.negative <;>
    simp only [hsx, hsy, if_true, if_false, Bool.false_eq_true] at h ⊢
  · exact magnitude_eq_of_distance_eq (by omega)
  · rw [magnitude_eq_zero_of_distance (x := x) (by omega),
      magnitude_eq_zero_of_distance (x := y) (by omega), neg_zero]
  · rw [magnitude_eq_zero_of_distance (x := x) (by omega),
      magnitude_eq_zero_of_distance (x := y) (by omega), neg_zero]
  · rw [magnitude_eq_of_distance_eq (x := x) (y := y) (by omega)]

/-- The order of the stored parts is the order of the values; both zeros have one place in it. -/
theorem rank_lt_iff : x.rank < y.rank ↔ x.value < y.value := by
  refine ⟨value_lt_of_rank_lt, ?_⟩
  intro h
  rcases lt_trichotomy x.rank y.rank with hlt | he | hgt
  · exact hlt
  · exact (h.ne (value_eq_of_rank_eq he)).elim
  · exact (h.not_gt (value_lt_of_rank_lt hgt)).elim

theorem value_of_exactInt? {n : Int} (h : x.exactInt? = some n) : x.value = n := by
  obtain ⟨hi, _, rfl⟩ := exactInt?_eq_some h
  rw [value, magnitude_eq_wholePart hi]
  split
  · push_cast
    rfl
  · push_cast
    rfl

end Finite

namespace Double

variable {bound : ℚ} {given : Double}

/-- Less than the bound. -/
def Below (bound : ℚ) : Double → Prop
  | .finite x => x.value < bound
  | .infinite negative => negative = true
  | .nan => False

/-- More than the bound. -/
def Over (bound : ℚ) : Double → Prop
  | .finite x => bound < x.value
  | .infinite negative => negative = false
  | .nan => False

theorem not_over_of_below {high : ℚ} (hb : bound ≤ high) (h : given.Below bound) :
    ¬ given.Over high := by
  cases given with
  | finite x => exact (lt_of_lt_of_le h hb).not_gt
  | infinite negative => simp_all [Below, Over]
  | nan => exact h.elim

theorem less_finite_iff {x : Finite} :
    given.less (.finite x) = true ↔ given.Below x.value := by
  cases given with
  | finite y => simp [less, Below, Finite.rank_lt_iff]
  | infinite negative => rfl
  | nan => simp [less, Below]

theorem finite_less_iff {x : Finite} :
    (finite x).less given = true ↔ given.Over x.value := by
  cases given with
  | finite y => simp [less, Over, Finite.rank_lt_iff]
  | infinite negative => simp [less, Over]
  | nan => simp [less, Over]

theorem less_zero_iff : given.less .zero = true ↔ given.Below 0 := by
  have hz : (Finite.zero false).value = 0 := Finite.magnitude_zero false
  rw [zero, less_finite_iff, hz]

theorem largest_less_iff : Limit.largest.less given = true ↔ given.Over (10 ^ 10) := by
  obtain ⟨x, hx, hi⟩ := Finite.exists_ofInt (n := 10000000000) (by omega)
  rw [Limit.largest, hx, finite_less_iff, Finite.value_of_exactInt? hi]
  norm_num

end Double
end Decimal

namespace Variable

open Text

variable {v : Variable} {cause : VariableError} {text : String} {given : Decimal.Double}
  {items : List Json} {fields : Entries Json none}

/-- What is wrong with a variable that breaks a limit. -/
inductive Breach : Variable → VariableError → Prop
  | blank {text : String} : Blanks text.toList → Breach (.string text) .emptyString
  | long {text : String} {core : List Char} : Trimmed text.toList core → 1000 < core.length →
      Breach (.string text) (.stringTooLong core.length)
  | notANumber : Breach (.number .nan) .notANumber
  | negative {given : Decimal.Double} : given.Below 0 →
      Breach (.number given) (.negativeNumber given)
  | large {given : Decimal.Double} : given.Over (10 ^ 10) →
      Breach (.number given) (.numberTooLarge given)
  | items {items : List Json} : 1000 < items.length →
      Breach (.array items) (.arrayTooLarge items.length)
  | fields {fields : Entries Json none} : 1000 < fields.size →
      Breach (.object fields) (.objectTooLarge fields.size)

theorem trim_eq_nil_iff {text : List Char} : trim text = [] ↔ Blanks text := by
  rw [trim_eq_iff]
  constructor
  · rintro ⟨⟨front, back, hf, hb, rfl⟩, _, _⟩
    exact hf.append hb
  · intro h
    exact ⟨⟨text, [], h, blanks_nil, by simp⟩, nofun, nofun⟩

theorem validate_string_eq_error_iff :
    (string text).validate = .error cause ↔ Breach (.string text) cause := by
  have hcore := trimmed_trim text.toList
  rw [validate, checkText]
  split
  · next he =>
    have hnil : trim text.toList = [] := List.isEmpty_iff.mp he
    constructor
    · rintro ⟨⟩
      exact .blank (trim_eq_nil_iff.mp hnil)
    · intro hb
      cases hb with
      | blank => rfl
      | long ht hlong =>
        rw [← trim_eq_iff.mpr ht, hnil] at hlong
        simp at hlong
  · next he =>
    have hne : ¬ Blanks text.toList :=
      fun hb => he (List.isEmpty_iff.mpr (trim_eq_nil_iff.mpr hb))
    split
    · next hlong =>
      constructor
      · rintro ⟨⟩
        exact .long hcore hlong
      · intro hb
        cases hb with
        | blank hb => exact (hne hb).elim
        | long ht => rw [trim_eq_iff.mpr ht]
    · next hshort =>
      refine ⟨nofun, ?_⟩
      intro hb
      cases hb with
      | blank hb => exact (hne hb).elim
      | long ht hlong =>
        rw [trim_eq_iff.mpr ht] at hshort
        exact (hshort hlong).elim

theorem validate_number_eq_error_iff :
    (number given).validate = .error cause ↔ Breach (.number given) cause := by
  rw [validate, checkNumber]
  split
  · next hn =>
    subst hn
    constructor
    · rintro ⟨⟩
      exact .notANumber
    · intro hb
      cases hb with
      | notANumber => rfl
      | negative h => exact h.elim
      | large h => exact h.elim
  · next hn =>
    split
    · next hlow =>
      rw [Decimal.Double.less_zero_iff] at hlow
      constructor
      · rintro ⟨⟩
        exact .negative hlow
      · intro hb
        cases hb with
        | notANumber => exact (hn rfl).elim
        | negative => rfl
        | large hhigh =>
          exact (Decimal.Double.not_over_of_below (by norm_num) hlow hhigh).elim
    · next hlow =>
      rw [Decimal.Double.less_zero_iff] at hlow
      split
      · next hhigh =>
        rw [Decimal.Double.largest_less_iff] at hhigh
        constructor
        · rintro ⟨⟩
          exact .large hhigh
        · intro hb
          cases hb with
          | notANumber => exact (hn rfl).elim
          | negative hb => exact (hlow hb).elim
          | large => rfl
      · next hhigh =>
        rw [Decimal.Double.largest_less_iff] at hhigh
        refine ⟨nofun, ?_⟩
        intro hb
        cases hb with
        | notANumber => exact (hn rfl).elim
        | negative hb => exact (hlow hb).elim
        | large hb => exact (hhigh hb).elim

theorem validate_array_eq_error_iff :
    (array items).validate = .error cause ↔ Breach (.array items) cause := by
  rw [validate, checkItems]
  split
  · next hmany =>
    constructor
    · rintro ⟨⟩
      exact .items hmany
    · intro hb
      cases hb
      rfl
  · next hfew => exact ⟨nofun, fun | .items hmany => (hfew hmany).elim⟩

theorem validate_object_eq_error_iff :
    (object fields).validate = .error cause ↔ Breach (.object fields) cause := by
  rw [validate, checkFields]
  split
  · next hmany =>
    constructor
    · rintro ⟨⟩
      exact .fields hmany
    · intro hb
      cases hb
      rfl
  · next hfew => exact ⟨nofun, fun | .fields hmany => (hfew hmany).elim⟩

/-- The check finds exactly the limit that is broken. -/
theorem validate_eq_error_iff : v.validate = .error cause ↔ Breach v cause := by
  cases v with
  | string text => exact validate_string_eq_error_iff
  | number given => exact validate_number_eq_error_iff
  | array items => exact validate_array_eq_error_iff
  | object fields => exact validate_object_eq_error_iff
  | boolean => exact ⟨nofun, nofun⟩
  | null => exact ⟨nofun, nofun⟩

/-! A constructor makes its variable if the check of what it was given passes. -/

theorem ofText_eq (text : String) :
    ofText text =
      (string text).validate.map fun _ => .string (String.ofList (trim text.toList)) := by
  simp only [ofText, validate]
  cases checkText (trim text.toList) <;> rfl

theorem ofNumber_eq (given : Decimal.Double) :
    ofNumber given = (number given).validate.map fun _ => .number given := by
  simp only [ofNumber, validate]
  cases checkNumber given <;> rfl

theorem ofItems_eq (items : List Json) :
    ofItems items = (array items).validate.map fun _ => .array items := by
  simp only [ofItems, validate]
  cases checkItems items <;> rfl

theorem ofFields_eq (fields : Entries Json none) :
    ofFields fields = (object fields).validate.map fun _ => .object fields := by
  simp only [ofFields, validate]
  cases checkFields fields <;> rfl

theorem eq_and_ok_of_map {check : Except VariableError Unit} {made : Variable}
    (h : (check.map fun _ => made) = .ok v) : v = made ∧ check = .ok () := by
  cases check with
  | error cause => cases h
  | ok _ =>
    cases h
    exact ⟨rfl, rfl⟩

/-- Trimming a trimmed text changes nothing. -/
@[simp]
theorem trim_trim (text : List Char) : trim (trim text) = trim text := by
  obtain ⟨_, hhead, hlast⟩ := trimmed_trim text
  exact trim_eq_iff.mpr ⟨⟨[], [], blanks_nil, blanks_nil, by simp⟩, hhead, hlast⟩

theorem validate_trimmed (text : String) :
    (string (String.ofList (trim text.toList))).validate = (string text).validate := by
  simp [validate]

theorem ofText_eq_ok (h : ofText text = .ok v) :
    v = .string (String.ofList (trim text.toList)) ∧ (string text).validate = .ok () := by
  rw [ofText_eq] at h
  exact eq_and_ok_of_map h

/-- What a constructor returned. -/
inductive Built : Variable → Prop
  | text {text : String} {v : Variable} : ofText text = .ok v → Built v
  | number {given : Decimal.Double} {v : Variable} : ofNumber given = .ok v → Built v
  | items {items : List Json} {v : Variable} : ofItems items = .ok v → Built v
  | fields {fields : Entries Json none} {v : Variable} : ofFields fields = .ok v → Built v
  | boolean (value : Bool) : Built (.boolean value)
  | null : Built .null

theorem Built.validate_eq_ok (h : Built v) : v.validate = .ok () := by
  cases h with
  | text ht =>
    obtain ⟨rfl, hok⟩ := ofText_eq_ok ht
    rwa [validate_trimmed]
  | number hn =>
    rw [ofNumber_eq] at hn
    obtain ⟨rfl, hok⟩ := eq_and_ok_of_map hn
    exact hok
  | items hi =>
    rw [ofItems_eq] at hi
    obtain ⟨rfl, hok⟩ := eq_and_ok_of_map hi
    exact hok
  | fields hf =>
    rw [ofFields_eq] at hf
    obtain ⟨rfl, hok⟩ := eq_and_ok_of_map hf
    exact hok
  | boolean => rfl
  | null => rfl

theorem isEmpty_string_iff :
    (string text).isEmpty = true ↔ (string text).validate = .error .emptyString := by
  rw [validate_eq_error_iff, isEmpty, List.isEmpty_iff, trim_eq_nil_iff]
  constructor
  · exact .blank
  · intro h
    cases h with
    | blank hb => exact hb

/-- A text within the limits has one to a thousand characters between its blanks. -/
theorem length_of_validate (h : (string text).validate = .ok ()) :
    1 ≤ (trim text.toList).length ∧ (trim text.toList).length ≤ 1000 := by
  have hok : ∀ cause, ¬ Breach (.string text) cause := by
    intro cause hb
    rw [validate_eq_error_iff.mpr hb] at h
    cases h
  constructor
  · by_contra hlt
    have hnil : trim text.toList = [] := List.length_eq_zero_iff.mp (by omega)
    exact hok _ (.blank (trim_eq_nil_iff.mp hnil))
  · by_contra hgt
    exact hok _ (.long (trimmed_trim text.toList) (by omega))

/-- The text that a constructor keeps is within the limits by itself, and a second construction
keeps it as it is. -/
theorem exists_core_of_ofText (h : ofText text = .ok v) :
    ∃ core : String, v = .string core ∧ Trimmed text.toList core.toList ∧ 1 ≤ core.length ∧
      core.length ≤ 1000 ∧ v.isEmpty = false ∧ ofText core = .ok v := by
  obtain ⟨rfl, hok⟩ := ofText_eq_ok h
  obtain ⟨hlow, hhigh⟩ := length_of_validate hok
  have hcore := validate_trimmed text
  rw [hok] at hcore
  refine ⟨_, rfl, ?_, ?_, ?_, ?_, ?_⟩
  · rw [String.toList_ofList]
    exact trimmed_trim text.toList
  · rwa [String.length_ofList]
  · rwa [String.length_ofList]
  · rw [Bool.eq_false_iff, Ne, isEmpty_string_iff, hcore]
    nofun
  · rw [ofText_eq, hcore, String.toList_ofList, trim_trim]
    rfl

/-- The constructors and the check have one set of limits. A constructor fails just as the check of
what it was given does, and else makes the variable, a text without the blanks at its ends. So
whatever was constructed passes the check, a text has one to a thousand characters and comes out of
a second construction as it is, and a text is empty just if the check says so. -/
theorem constructors_agree_with_validate :
    (∀ text, ofText text =
        (string text).validate.map fun _ => .string (String.ofList (trim text.toList))) ∧
      (∀ given, ofNumber given = (number given).validate.map fun _ => .number given) ∧
      (∀ items, ofItems items = (array items).validate.map fun _ => .array items) ∧
      (∀ fields, ofFields fields = (object fields).validate.map fun _ => .object fields) ∧
      (∀ v cause, v.validate = .error cause ↔ Breach v cause) ∧
      (∀ v, Built v → v.validate = .ok ()) ∧
      (∀ text v, ofText text = .ok v → ∃ core : String, v = .string core ∧
        Trimmed text.toList core.toList ∧ 1 ≤ core.length ∧ core.length ≤ 1000 ∧
          v.isEmpty = false ∧ ofText core = .ok v) ∧
      ∀ text, (string text).isEmpty = true ↔
        (string text).validate = .error .emptyString := by
  refine ⟨ofText_eq, ofNumber_eq, ofItems_eq, ofFields_eq, ?_, ?_, ?_, ?_⟩
  · intro v cause
    exact validate_eq_error_iff
  · intro v hb
    exact hb.validate_eq_ok
  · intro text v h
    exact exists_core_of_ofText h
  · intro text
    exact isEmpty_string_iff

/-- A thousand characters of two bytes each, between blanks of one byte and of three. -/
theorem constructors_agree_with_validate_at_limit :
    let core := List.replicate 1000 'é'
    let text := String.ofList (' ' :: core ++ ['\u3000'])
    ofText text = .ok (.string (String.ofList core)) ∧
      Built (.string (String.ofList core)) ∧
        (string (String.ofList core)).validate = .ok () ∧
          ofText (String.ofList core) = .ok (.string (String.ofList core)) := by
  intro core text
  have hlength : core.length = 1000 := List.length_replicate
  have hplain : ∀ c ∈ core, isBlank c = false := by
    intro c hc
    rw [List.eq_of_mem_replicate hc]
    decide
  have htext : text.toList = [' '] ++ (core ++ ['\u3000']) := String.toList_ofList
  clear_value core text
  have htrim : trim text.toList = core := by
    rw [trim_eq_iff]
    refine ⟨⟨[' '], ['\u3000'], ?_, ?_, htext⟩, ?_, ?_⟩
    · simp only [Blanks, List.mem_singleton, forall_eq]
      decide
    · simp only [Blanks, List.mem_singleton, forall_eq]
      decide
    · exact fun c hc => hplain c (List.mem_of_head? hc)
    · exact fun c hc => hplain c (List.mem_of_getLast? hc)
  have hcheck : (string text).validate = .ok () := by
    have hne : ¬ core.isEmpty = true := by
      intro he
      rw [List.isEmpty_iff.mp he] at hlength
      cases hlength
    have hshort : ¬ Limit.characters < core.length := hlength.not_gt
    rw [validate, htrim, checkText, if_neg hne, if_neg hshort]
  obtain ⟨hof, _, _, _, _, hbuilt, hkept, _⟩ := constructors_agree_with_validate
  have hmade : ofText text = .ok (.string (String.ofList core)) := by
    rw [hof, hcheck, htrim]
    rfl
  obtain ⟨kept, hk, _, _, _, _, hagain⟩ := hkept text _ hmade
  cases hk
  exact ⟨hmade, .text hmade, hbuilt _ (.text hmade), hagain⟩

end Variable
end DocTemplate
