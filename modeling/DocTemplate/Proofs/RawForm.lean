import Mathlib.Algebra.Ring.Nat
import Mathlib.Data.Nat.Log
import DocTemplate.Variable.Raw

/-! A variable and the JSON value it stands for. A number that becomes an integer is read back as
the number it was, but for the sign of a zero. -/
namespace DocTemplate

namespace Decimal

variable {x : Finite} {n : Int}

theorem power_pos (e : Int) : 0 < power 2 e := Nat.two_pow_pos _

theorem power_of_nonpos {e : Int} (h : e ≤ 0) : power 2 e = 1 := by
  have he : e.toNat = 0 := by omega
  rw [power, he]

theorem log2_mul_two_pow {n : Nat} (h : n ≠ 0) (k : Nat) : (n * 2 ^ k).log2 = n.log2 + k := by
  induction k with
  | zero => rw [Nat.pow_zero, Nat.mul_one, Nat.add_zero]
  | succ k ih =>
    have hne : n * 2 ^ k ≠ 0 := Nat.mul_ne_zero h (Nat.two_pow_pos k).ne'
    rw [Nat.pow_succ, ← Nat.mul_assoc, Nat.mul_comm _ 2, Nat.log2_two_mul hne, ih, Nat.add_assoc]

theorem roundEven_one (n : Nat) : roundEven n 1 = n := by
  simp [roundEven, Nat.mod_one, compare_lt_iff_lt.mpr]

theorem binaryScale_one {n : Nat} (h : n ≠ 0) : binaryScale n 1 = n.log2 := by
  have hone : Nat.log2 1 = 0 := by decide
  have hpow : power 2 (-(n.log2 : Int)) = 1 := power_of_nonpos (by omega)
  have hle : power 2 (n.log2 : Int) ≤ n := Nat.log2_self_le h
  simp only [binaryScale, hone, Int.natCast_zero, Int.sub_zero, Nat.one_mul, hpow, Nat.mul_one, hle,
    if_true]

namespace Finite

theorem significand_normal (h : x.scale.val ≠ 0) :
    4503599627370496 ≤ x.significand ∧ x.significand < 9007199254740992 := by
  have := x.fraction.isLt
  rw [significand, if_neg h]
  omega

theorem log2_significand (h : x.scale.val ≠ 0) : x.significand.log2 = 52 := by
  have hs := significand_normal h
  rw [Nat.log2_eq_iff (by omega)]
  exact hs

theorem exponent_ge (x : Finite) : -1074 ≤ x.exponent := by
  rw [exponent]
  split <;> omega

/-- The two parts of a number in one row, as they are stored. -/
theorem significand_add_exponent (x : Finite) :
    x.significand + (x.exponent + 1074).toNat * 4503599627370496 =
      x.scale.val * 4503599627370496 + x.fraction.val := by
  by_cases hz : x.scale.val = 0
  · simp [significand, exponent, hz]
  · have he : (x.exponent + 1074).toNat = x.scale.val - 1 := by
      rw [exponent, if_neg hz]
      omega
    rw [he, significand, if_neg hz]
    omega

/-- A number is made again from its significand and exponent. -/
theorem ofScaled_significand (x : Finite) :
    Double.ofScaled x.negative x.significand x.exponent = .finite x := by
  have hf := x.fraction.isLt
  have hdiv : (x.scale.val * 4503599627370496 + x.fraction.val) / 4503599627370496 =
      x.scale.val := by omega
  have hmod : (x.scale.val * 4503599627370496 + x.fraction.val) % 4503599627370496 =
      x.fraction.val := by omega
  simp only [Double.ofScaled, significand_add_exponent, hdiv, hmod, x.scale.isLt, dite_true]

theorem wholePart_mul (h : x.isIntegral = true) :
    x.wholePart * power 2 (-x.exponent) = x.significand * power 2 x.exponent := by
  have hd : power 2 (-x.exponent) ∣ x.significand := by
    rw [isIntegral, beq_iff_eq] at h
    exact Nat.dvd_of_mod_eq_zero h
  exact Nat.div_mul_cancel (Nat.dvd_mul_right_of_dvd hd _)

theorem eq_zero_of_significand (h : x.significand = 0) : x = zero x.negative := by
  have hz : x.scale.val = 0 := by
    by_contra hn
    have := significand_normal hn
    omega
  have hf : x.fraction.val = 0 := by
    rwa [significand, if_pos hz] at h
  obtain ⟨negative, scale, fraction⟩ := x
  obtain rfl : scale = 0 := Fin.ext hz
  obtain rfl : fraction = 0 := Fin.ext hf
  rfl

theorem eq_zero_of_wholePart (h : x.isIntegral = true) (h0 : x.wholePart = 0) :
    x = zero x.negative := by
  have hm := wholePart_mul h
  rw [h0, Nat.zero_mul] at hm
  exact eq_zero_of_significand
    ((Nat.mul_eq_zero.mp hm.symm).resolve_right (power_pos x.exponent).ne')

/-- A subnormal number has no whole value other than zero. -/
theorem scale_ne_zero_of_wholePart (h : x.isIntegral = true) (h0 : x.wholePart ≠ 0) :
    x.scale.val ≠ 0 := by
  intro hz
  have he : x.exponent = -1074 := by rw [exponent, if_pos hz]
  have hs : x.significand < 2 ^ 52 := by
    have := x.fraction.isLt
    rw [significand, if_pos hz]
    omega
  have hbig : 2 ^ 52 ≤ power 2 (-x.exponent) := Nat.pow_le_pow_right (by omega) (by omega)
  have hle : power 2 (-x.exponent) ≤ x.wholePart * power 2 (-x.exponent) :=
    Nat.le_mul_of_pos_left _ (Nat.pos_of_ne_zero h0)
  rw [wholePart_mul h, power_of_nonpos (e := x.exponent) (by omega), Nat.mul_one] at hle
  omega

theorem exponent_nonpos_of_wholePart (h : x.isIntegral = true)
    (hlt : x.wholePart < 9007199254740992) : x.exponent ≤ 0 := by
  by_contra hpos
  have hz : x.scale.val ≠ 0 := by
    intro hz
    rw [exponent, if_pos hz] at hpos
    omega
  have hm := wholePart_mul h
  rw [power_of_nonpos (e := -x.exponent) (by omega), Nat.mul_one] at hm
  have htwo : 2 ^ 1 ≤ power 2 x.exponent := Nat.pow_le_pow_right (by omega) (by omega)
  have hle := Nat.mul_le_mul (significand_normal hz).1 htwo
  omega

/-- Rounding the whole value of a number gives the number back. -/
theorem nearest_wholePart (h : x.isIntegral = true) (hlt : x.wholePart < 9007199254740992)
    (h0 : x.wholePart ≠ 0) : Double.nearest x.negative x.wholePart 1 = .finite x := by
  have hz := scale_ne_zero_of_wholePart h h0
  have hneg := exponent_nonpos_of_wholePart h hlt
  have hlow := exponent_ge x
  have hm := wholePart_mul h
  rw [power_of_nonpos hneg, Nat.mul_one] at hm
  -- The significand is the whole value moved up, and takes 53 bits.
  have hlog : x.wholePart.log2 + (-x.exponent).toNat = 52 := by
    rw [← log2_mul_two_pow h0, ← log2_significand hz, ← hm]
    rfl
  have he : max ((x.wholePart.log2 : Int) - 52) (-1074) = x.exponent := by omega
  rw [Double.nearest, if_neg h0]
  simp only [binaryScale_one h0, he]
  rw [hm, power_of_nonpos hneg, Nat.mul_one, roundEven_one, ofScaled_significand]

theorem exactInt?_eq_some (h : x.exactInt? = some n) :
    x.isIntegral = true ∧ x.wholePart < 9007199254740992 ∧
      n = if x.negative then -(x.wholePart : Int) else x.wholePart := by
  rw [exactInt?] at h
  split at h
  · next hx =>
    cases h
    exact ⟨hx.1, hx.2, rfl⟩
  · cases h

/-- The integer of a number stands for the same value. -/
theorem ofInt_exactInt? (h : x.exactInt? = some n) :
    Double.ofInt n = .finite x ∨ n = 0 ∧ x = zero x.negative := by
  obtain ⟨hi, hlt, rfl⟩ := exactInt?_eq_some h
  by_cases h0 : x.wholePart = 0
  · right
    refine ⟨?_, eq_zero_of_wholePart hi h0⟩
    rw [h0]
    split <;> rfl
  · left
    have hn : decide ((if x.negative then -(x.wholePart : Int) else x.wholePart) < 0) =
        x.negative := by
      cases x.negative with
      | false => simp
      | true =>
        simp
        omega
    have ha : (if x.negative then -(x.wholePart : Int) else x.wholePart).natAbs =
        x.wholePart := by
      split <;> omega
    rw [Double.ofInt, hn, ha, nearest_wholePart hi hlt h0]

/-- A significand of 53 bits and an exponent in range are those of the number made of them. -/
theorem exists_ofScaled (negative : Bool) {m : Nat} {e : Int} (hlow : 4503599627370496 ≤ m)
    (hm : m < 9007199254740992) (he : -1074 ≤ e) (hmax : e < 972) :
    ∃ x : Finite, Double.ofScaled negative m e = .finite x ∧ x.negative = negative ∧
      x.significand = m ∧ x.exponent = e := by
  have hdiv : (m + (e + 1074).toNat * 4503599627370496) / 4503599627370496 =
      (e + 1075).toNat := by omega
  have hmod : (m + (e + 1074).toNat * 4503599627370496) % 4503599627370496 =
      m - 4503599627370496 := by omega
  have hscale : (e + 1075).toNat < 2047 := by omega
  refine ⟨⟨negative, ⟨(e + 1075).toNat, hscale⟩, ⟨m - 4503599627370496, by omega⟩⟩, ?_, rfl, ?_, ?_⟩
  · simp only [Double.ofScaled, hdiv, hmod, hscale, dite_true]
  · have hne : (e + 1075).toNat ≠ 0 := by omega
    simp only [significand, hne, if_false]
    omega
  · have hne : (e + 1075).toNat ≠ 0 := by omega
    simp only [exponent, hne, if_false]
    omega

/-- An integer of at most 53 bits is exactly a number. -/
theorem exists_nearest (negative : Bool) {n : Nat} (h0 : n ≠ 0) (hlt : n < 9007199254740992) :
    ∃ x : Finite, Double.nearest negative n 1 = .finite x ∧ x.negative = negative ∧
      x.isIntegral = true ∧ x.wholePart = n := by
  have hlog : n.log2 ≤ 52 := by
    have : n.log2 < 53 := (Nat.log2_lt h0).mpr hlt
    omega
  have hup : n * 2 ^ (52 - n.log2) ≠ 0 := Nat.mul_ne_zero h0 (Nat.two_pow_pos _).ne'
  have hbits : (n * 2 ^ (52 - n.log2)).log2 = 52 := by
    rw [log2_mul_two_pow h0]
    omega
  have hm := (Nat.log2_eq_iff hup).mp hbits
  have he : max ((n.log2 : Int) - 52) (-1074) = (n.log2 : Int) - 52 := by omega
  have hdown : power 2 ((n.log2 : Int) - 52) = 1 := power_of_nonpos (by omega)
  have hpow : power 2 (-((n.log2 : Int) - 52)) = 2 ^ (52 - n.log2) := by
    have ht : (-((n.log2 : Int) - 52)).toNat = 52 - n.log2 := by omega
    rw [power, ht]
    rfl
  obtain ⟨x, hx, hn, hs, hexp⟩ := exists_ofScaled negative hm.1 hm.2
    (e := (n.log2 : Int) - 52) (by omega) (by omega)
  refine ⟨x, ?_, hn, ?_, ?_⟩
  · rw [Double.nearest, if_neg h0]
    simp only [binaryScale_one h0, he, hpow, hdown, Nat.mul_one, roundEven_one]
    exact hx
  · rw [isIntegral, hs, hexp, hpow, beq_iff_eq]
    exact Nat.mul_mod_left _ _
  · rw [wholePart, hs, hexp, hpow, hdown, Nat.mul_one]
    exact Nat.mul_div_cancel _ (Nat.two_pow_pos _)

theorem exactInt?_of_isIntegral {x : Finite} (hi : x.isIntegral = true)
    (hlt : x.wholePart < 9007199254740992) :
    x.exactInt? = some (if x.negative then -(x.wholePart : Int) else x.wholePart) := by
  rw [exactInt?, if_pos ⟨hi, hlt⟩]

theorem exists_ofInt {n : Int} (h : n.natAbs < 9007199254740992) :
    ∃ x : Finite, Double.ofInt n = .finite x ∧ x.exactInt? = some n := by
  by_cases h0 : n.natAbs = 0
  · obtain rfl : n = 0 := Int.natAbs_eq_zero.mp h0
    exact ⟨zero false, rfl, by decide +kernel⟩
  · obtain ⟨x, hx, hn, hi, hw⟩ := exists_nearest (decide (n < 0)) h0 h
    refine ⟨x, hx, ?_⟩
    rw [exactInt?_of_isIntegral hi (hw ▸ h), hn, hw, Option.some.injEq]
    by_cases hneg : n < 0
    · simp only [hneg, decide_true, if_true]
      omega
    · simp only [hneg, decide_false, Bool.false_eq_true, if_false]
      omega

@[simp]
theorem same_self (x : Finite) : x.same x = true := by
  simp [same]

end Finite
end Decimal

namespace Json

@[simp]
theorem number_same_self (n : Number) : n.same n = true := by
  cases n with
  | integer value least below => simp [Number.same]
  | float x => simp [Number.same]

mutual

@[simp]
theorem same_self : ∀ value : Json, same value value = true
  | .null => rfl
  | .boolean value => by simp [same]
  | .number n => number_same_self n
  | .string text => by simp [same]
  | .array items => sameItems_self items
  | .object fields => sameFields_self fields
termination_by structural value => value

@[simp]
theorem sameItems_self : ∀ items : List Json, sameItems items items = true
  | [] => rfl
  | item :: items => by simp [sameItems, same_self item, sameItems_self items]
termination_by structural items => items

@[simp]
theorem sameFields_self {low : Option String} :
    ∀ fields : Entries Json low, sameFields fields fields = true
  | .nil => rfl
  | .cons key _ value rest => by
    simp [sameFields, same_self value, sameFields_self rest]
termination_by structural fields => fields

end

end Json

namespace Variable

/-- Reading back the number that a number has become changes at most the sign of a zero. -/
theorem toDouble_numberOf (x : Decimal.Finite) :
    (numberOf x).toDouble = .finite x ∨
      x = .zero x.negative ∧ (numberOf x).toDouble = .zero := by
  rw [numberOf]
  split
  · next n hn =>
    rcases Decimal.Finite.ofInt_exactInt? hn with hx | ⟨rfl, hx⟩
    · exact Or.inl hx
    · exact Or.inr ⟨hx, rfl⟩
  · exact Or.inl rfl

theorem toDouble_numberOf_same (x : Decimal.Finite) :
    (numberOf x).toDouble.same (.finite x) = true := by
  rcases toDouble_numberOf x with hx | ⟨hz, hx⟩
  · rw [hx]
    exact x.same_self
  · rw [hx, hz]
    cases x.negative <;> rfl

theorem numberOf_of_exactInt? {x : Decimal.Finite} {n : Int} (h : x.exactInt? = some n)
    (least : -9223372036854775808 ≤ n) (below : n < 18446744073709551616) :
    numberOf x = .integer n least below := by
  rw [numberOf]
  split
  · rename_i m hm
    obtain rfl : m = n := Option.some.inj (hm.symm.trans h)
    rfl
  · rename_i hm
    cases hm.symm.trans h

theorem numberOf_of_exactInt?_eq_none {x : Decimal.Finite} (h : x.exactInt? = none) :
    numberOf x = .float x := by
  rw [numberOf]
  split
  · rename_i m hm
    cases hm.symm.trans h
  · rfl

theorem numberOf_of_not_isIntegral {x : Decimal.Finite} (h : x.isIntegral = false) :
    numberOf x = .float x :=
  numberOf_of_exactInt?_eq_none (by simp [Decimal.Finite.exactInt?, h])

/-- An integer of absolute value below 2^53 is the JSON value of the variable made of it. -/
theorem toJson_ofJson_integer {n : Int} {least : -9223372036854775808 ≤ n}
    {below : n < 18446744073709551616} (h : n.natAbs < 9007199254740992) :
    (ofJson (.number (.integer n least below))).toJson = .number (.integer n least below) := by
  obtain ⟨x, hx, he⟩ := Decimal.Finite.exists_ofInt h
  rw [ofJson, Number.toDouble, hx]
  exact congrArg Json.number (numberOf_of_exactInt? he least below)

/-- Whether a variable has a JSON value of its own: any but a number that is not finite. -/
def isFinite : Variable → Bool
  | .number (.finite _) => true
  | .number _ => false
  | _ => true

/-- A variable read back from its JSON value equals the variable. -/
theorem ofJson_toJson_same {value : Variable} (h : value.isFinite = true) :
    (ofJson value.toJson).same value = true := by
  cases value with
  | string text => simp [toJson, ofJson, same]
  | number value =>
    cases value with
    | finite x => exact toDouble_numberOf_same x
    | _ => cases h
  | boolean value => simp [toJson, ofJson, same]
  | array items => exact Json.sameItems_self items
  | object fields => exact Json.sameFields_self fields
  | null => rfl

end Variable
end DocTemplate
