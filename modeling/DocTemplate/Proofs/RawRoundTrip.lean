import DocTemplate.Proofs.Collections
import DocTemplate.Proofs.NearestDouble
import DocTemplate.Proofs.RawForm

/-! Variables and JSON values made of one another. What comes back is what was given, but for
numbers that one side cannot tell apart from another number, or cannot hold at all. -/
namespace DocTemplate

namespace Decimal.Finite

variable {x : Finite}

/-- The number that is stored. -/
def value (x : Finite) : ℚ := if x.negative then -x.magnitude else x.magnitude

theorem magnitude_nonneg (x : Finite) : 0 ≤ x.magnitude := by
  rw [magnitude]
  positivity

theorem abs_value (x : Finite) : |x.value| = x.magnitude := by
  rw [value]
  split
  · rw [abs_neg, abs_of_nonneg x.magnitude_nonneg]
  · rw [abs_of_nonneg x.magnitude_nonneg]

theorem magnitude_mul_power (x : Finite) :
    x.magnitude * power 2 (-x.exponent) = (x.significand * power 2 x.exponent : Nat) := by
  have hp : (power 2 x.exponent : ℚ) = 2 ^ x.exponent * power 2 (-x.exponent) :=
    power_eq_zpow_mul two_ne_zero x.exponent
  rw [Nat.cast_mul, hp, magnitude]
  ring

theorem magnitude_eq_wholePart (h : x.isIntegral = true) : x.magnitude = x.wholePart := by
  have hp := (power_cast_pos two_ne_zero (-x.exponent)).ne'
  have hm := x.magnitude_mul_power
  rw [← wholePart_mul h, Nat.cast_mul] at hm
  exact mul_right_cancel₀ hp hm

theorem isIntegral_of_magnitude {n : Nat} (h : x.magnitude = n) : x.isIntegral = true := by
  have hm := x.magnitude_mul_power
  rw [h] at hm
  have hn : n * power 2 (-x.exponent) = x.significand * power 2 x.exponent := by exact_mod_cast hm
  rw [isIntegral, beq_iff_eq]
  rcases le_total x.exponent 0 with he | he
  · rw [power_of_nonpos he, Nat.mul_one] at hn
    rw [← hn]
    exact Nat.mul_mod_left n _
  · rw [power_of_nonpos (Int.neg_nonpos_of_nonneg he)]
    exact Nat.mod_one _

theorem isIntegral_iff : x.isIntegral = true ↔ ∃ n : ℤ, x.value = n := by
  constructor
  · intro h
    rw [value, magnitude_eq_wholePart h]
    split
    · exact ⟨-(x.wholePart : ℤ), by push_cast; rfl⟩
    · exact ⟨x.wholePart, by push_cast; rfl⟩
  · rintro ⟨n, hn⟩
    have hm : x.magnitude = n.natAbs := by
      rw [← abs_value, hn, Nat.cast_natAbs, Int.cast_abs]
    exact isIntegral_of_magnitude hm

theorem exactInt?_eq_none_iff :
    x.exactInt? = none ↔ (¬ ∃ n : ℤ, x.value = n) ∨ 2 ^ 53 ≤ |x.value| := by
  rw [← isIntegral_iff, abs_value]
  cases hi : x.isIntegral with
  | false => simp [exactInt?, hi]
  | true =>
    have hbound : (2 : ℚ) ^ 53 ≤ x.wholePart ↔ ¬ x.wholePart < 9007199254740992 := by
      rw [not_lt, ← Nat.cast_le (α := ℚ)]
      norm_num
    rw [magnitude_eq_wholePart hi, hbound]
    simp [exactInt?, hi]

end Decimal.Finite

/-- The numbers that are written again as they are by a variable made of them. A variable writes the
whole numbers of absolute value below 2^53 as integers, and all others as floats. -/
def Number.Exact : Number → Prop
  | .integer n _ _ => n.natAbs < 2 ^ 53
  | .float x => (¬ ∃ n : ℤ, x.value = n) ∨ 2 ^ 53 ≤ |x.value|

/-- The values that are written again as they are; only a number by itself can change. -/
def Json.Exact : Json → Prop
  | .number n => n.Exact
  | _ => True

namespace Variable

variable {value : Json}

/-- The variable that is made of the JSON value of a variable: minus zero loses its sign, and a
number that is not finite is lost. -/
def reread : Variable → Variable
  | .number (.finite x) => .number (.finite (if x = .zero true then .zero false else x))
  | .number _ => .null
  | other => other

theorem numberOf_zero (negative : Bool) :
    numberOf (.zero negative) = .integer 0 (by decide) (by decide) := by
  have hz : (Decimal.Finite.zero negative).exactInt? = some 0 := by
    cases negative <;> decide +kernel
  exact numberOf_of_exactInt? hz _ _

/-- Zero is written without a sign, so minus zero comes back as zero. -/
theorem toDouble_numberOf_eq (x : Decimal.Finite) :
    (numberOf x).toDouble = .finite (if x = .zero true then .zero false else x) := by
  by_cases hz : x = .zero true
  · rw [if_pos hz, hz, numberOf_zero]
    rfl
  · rw [if_neg hz]
    rcases toDouble_numberOf x with hx | ⟨hzero, hx⟩
    · exact hx
    · have hsign : x.negative = false := by
        cases hn : x.negative with
        | false => rfl
        | true => exact (hz (hn ▸ hzero)).elim
      rw [hx, hzero, hsign]
      rfl

@[simp]
theorem ofJson_toJson (v : Variable) : ofJson v.toJson = v.reread := by
  cases v with
  | number given =>
    cases given with
    | finite x => exact congrArg number (toDouble_numberOf_eq x)
    | _ => rfl
  | _ => rfl

theorem reread_same (v : Variable) : v.reread.same v = v.isFinite := by
  cases hf : v.isFinite with
  | true => exact ofJson_toJson v ▸ ofJson_toJson_same hf
  | false =>
    cases v with
    | number given =>
      cases given with
      | finite x => cases hf
      | _ => rfl
    | _ => cases hf

/-- Writing what was read back is no change. -/
@[simp]
theorem toJson_reread (v : Variable) : v.reread.toJson = v.toJson := by
  cases v with
  | number given =>
    cases given with
    | finite x =>
      by_cases hz : x = .zero true
      · rw [hz, reread, if_pos rfl, toJson, toJson, numberOf_zero, numberOf_zero]
      · rw [reread, if_neg hz]
    | _ => rfl
  | _ => rfl

theorem numberOf_cases (x : Decimal.Finite) :
    x.exactInt? = none ∧ numberOf x = .float x ∨
      ∃ n least below, numberOf x = .integer n least below ∧ n.natAbs < 2 ^ 53 := by
  cases he : x.exactInt? with
  | none => exact Or.inl ⟨rfl, numberOf_of_exactInt?_eq_none he⟩
  | some n =>
    have hn := exactInt?_range he
    exact Or.inr ⟨n, by omega, by omega, numberOf_of_exactInt? he _ _, by omega⟩

theorem toJson_ofJson_of_exact (h : value.Exact) : (ofJson value).toJson = value := by
  cases value with
  | number n =>
    cases n with
    | integer n least below => exact toJson_ofJson_integer h
    | float x =>
      exact congrArg Json.number
        (numberOf_of_exactInt?_eq_none (Decimal.Finite.exactInt?_eq_none_iff.mpr h))
  | _ => rfl

/-- An integer that comes back as an integer is small, whatever it was rounded to on the way. -/
theorem exact_of_same (h : (ofJson value).toJson.same value = true) : value.Exact := by
  cases value with
  | number n =>
    cases n with
    | integer n least below =>
      rw [ofJson, Number.toDouble] at h
      cases hx : Decimal.Double.ofInt n with
      | finite x =>
        rw [hx, toJson] at h
        rcases numberOf_cases x with ⟨_, hn⟩ | ⟨m, _, _, hn, hm⟩
        · rw [hn] at h
          cases h
        · rw [hn] at h
          have he : m = n := eq_of_beq h
          exact he ▸ hm
      | _ =>
        rw [hx] at h
        cases h
    | float x =>
      rw [ofJson, Number.toDouble, toJson] at h
      rcases numberOf_cases x with ⟨he, _⟩ | ⟨m, _, _, hn, _⟩
      · exact Decimal.Finite.exactInt?_eq_none_iff.mp he
      · rw [hn] at h
        cases h
  | _ => trivial

/-- Making a variable and writing it is a normal form: a second time changes nothing. -/
theorem toJson_ofJson_toJson_ofJson (value : Json) :
    (ofJson (ofJson value).toJson).toJson = (ofJson value).toJson := by
  simp

theorem toJson_ofJson_same_iff : (ofJson value).toJson.same value = true ↔ value.Exact := by
  constructor
  · exact exact_of_same
  · intro h
    rw [toJson_ofJson_of_exact h]
    exact Json.same_self value

end Variable

namespace Collection

theorem toList_ofFields_toFields (c : Collection) :
    (ofFields c.toFields).toList = c.toList.map fun entry => (entry.1, entry.2.reread) := by
  simp [toList, ofFields, toFields, Function.comp_def]

/-- A collection comes back from the JSON values of its variables just if each of them does. -/
theorem ofFields_toFields_same (c : Collection) :
    (ofFields c.toFields).same c = c.toList.all fun entry => entry.2.isFinite := by
  have hl := toList_ofFields_toFields c
  have hs : (ofFields c.toFields).size = c.size :=
    (congrArg List.length hl).trans (List.length_map _)
  rw [same, hs, hl, beq_self_eq_true, Bool.true_and]
  induction c.toList with
  | nil => rfl
  | cons entry entries ih =>
    rw [List.map_cons, List.zip_cons_cons, List.all_cons, List.all_cons, ih]
    simp only [beq_self_eq_true, Variable.reread_same, Bool.true_and]

/-- A variable comes back from its JSON value but for minus zero and the numbers that are not
finite. A JSON value comes back from its variable unless it is a number that is not exact, and a
second round changes nothing. A collection comes back just if each number in it is finite. -/
theorem raw_form_comes_back :
    (∀ v : Variable, Variable.ofJson v.toJson = v.reread) ∧
      (∀ value : Json, (Variable.ofJson value).toJson.same value = true ↔ value.Exact) ∧
      (∀ value : Json, (Variable.ofJson (Variable.ofJson value).toJson).toJson =
        (Variable.ofJson value).toJson) ∧
      ∀ c : Collection,
        (ofFields c.toFields).same c = true ↔ ∀ entry ∈ c.toList, entry.2.isFinite = true := by
  refine ⟨Variable.ofJson_toJson, ?_, Variable.toJson_ofJson_toJson_ofJson, ?_⟩
  · intro value
    exact Variable.toJson_ofJson_same_iff
  · intro c
    rw [ofFields_toFields_same, List.all_eq_true]

/-- The largest integer comes back as the float 2^64. -/
example : (Variable.ofJson (.number (.integer 18446744073709551615 (by decide)
    (by decide)))).toJson.same (.number (.float ⟨false, 1087, 0⟩)) = true := by
  decide +kernel

end Collection
end DocTemplate
