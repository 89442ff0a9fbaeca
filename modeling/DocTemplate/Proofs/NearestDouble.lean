import Mathlib.Algebra.Order.Field.Power
import Mathlib.Algebra.Order.Field.Rat
import Mathlib.Tactic.FieldSimp
import Mathlib.Tactic.Linarith
import Mathlib.Tactic.NormNum
import Mathlib.Tactic.Positivity
import Mathlib.Tactic.Ring
import DocTemplate.Proofs.RawForm

/-! Which quotients round to a given floating-point number: those that are at most half a unit
away from it, the ends of that interval only for an even significand. -/
namespace DocTemplate.Decimal

/-- Below zero the power stands as a divisor on the other side. -/
theorem power_eq_zpow_mul {b : Nat} (hb : b ≠ 0) (e : Int) :
    (power b e : ℚ) = (b : ℚ) ^ e * power b (-e) := by
  have hq : (b : ℚ) ≠ 0 := by exact_mod_cast hb
  rcases le_total 0 e with he | he
  · obtain ⟨n, rfl⟩ := Int.eq_ofNat_of_zero_le he
    have hn : (-(n : Int)).toNat = 0 := by omega
    simp [power, hn]
  · obtain ⟨n, hn⟩ := Int.eq_ofNat_of_zero_le (Int.neg_nonneg.mpr he)
    obtain rfl : e = -(n : Int) := by omega
    have hz : (-(n : Int)).toNat = 0 := by omega
    simp [power, hz, hq]

theorem power_cast_pos {b : Nat} (hb : b ≠ 0) (e : Int) : (0 : ℚ) < power b e := by
  have : 0 < power b e := Nat.pow_pos (Nat.pos_of_ne_zero hb)
  exact_mod_cast this

/-- A quotient whose two sides take up a power of two is moved by that power. -/
theorem scaled_div (num : Nat) {den : Nat} (hd : den ≠ 0) (e : Int) :
    ((num * power 2 (-e) : Nat) : ℚ) / (den * power 2 e : Nat) * 2 ^ e = num / den := by
  have hq : (den : ℚ) ≠ 0 := by exact_mod_cast hd
  have hp := (power_cast_pos two_ne_zero (-e)).ne'
  have hz : (2 : ℚ) ^ e ≠ 0 := by positivity
  have he : (power 2 e : ℚ) = 2 ^ e * power 2 (-e) := power_eq_zpow_mul two_ne_zero e
  push_cast
  rw [he]
  field_simp

theorem roundEven_eq {num den r : Nat} (hd : den ≠ 0) (hlow : 2 * (r * den) ≤ 2 * num + den)
    (hhigh : 2 * num ≤ 2 * (r * den) + den)
    (hodd : r % 2 = 1 → 2 * (r * den) < 2 * num + den ∧ 2 * num < 2 * (r * den) + den) :
    roundEven num den = r := by
  have hmod : num % den < den := Nat.mod_lt _ (Nat.pos_of_ne_zero hd)
  have hnum : num / den * den + num % den = num := Nat.div_add_mod' num den
  have hsucc : (num / den + 1) * den = num / den * den + den := Nat.add_one_mul _ _
  have hge : num / den ≤ r := by
    by_contra hlt
    have hle : (r + 1) * den ≤ num / den * den := Nat.mul_le_mul_right den (not_le.mp hlt)
    have hr : (r + 1) * den = r * den + den := Nat.add_one_mul _ _
    omega
  have hle : r ≤ num / den + 1 := by
    by_contra hlt
    have hle : (num / den + 1 + 1) * den ≤ r * den := Nat.mul_le_mul_right den (not_le.mp hlt)
    have hr : (num / den + 1 + 1) * den = num / den * den + den + den := by
      simp only [Nat.add_mul, Nat.one_mul]
    omega
  have hcases : r = num / den ∨ r = num / den + 1 := by omega
  rw [roundEven]
  rcases hcases with rfl | rfl
  · split
    · rfl
    · rename_i hgt
      have := Nat.compare_eq_gt.mp hgt
      omega
    · rename_i htie
      have := Nat.compare_eq_eq.mp htie
      split
      · rfl
      · have := hodd (by omega)
        omega
  · split
    · rename_i hlt
      have := Nat.compare_eq_lt.mp hlt
      omega
    · rfl
    · rename_i htie
      have := Nat.compare_eq_eq.mp htie
      split
      · have := hodd (by omega)
        omega
      · rfl

theorem binaryScale_spec {num den : Nat} (hn : num ≠ 0) (hd : den ≠ 0) :
    (2 : ℚ) ^ binaryScale num den ≤ num / den ∧
      (num : ℚ) / den < 2 ^ (binaryScale num den + 1) := by
  have hdq : (0 : ℚ) < den := by exact_mod_cast Nat.pos_of_ne_zero hd
  have hnlow : (2 : ℚ) ^ num.log2 ≤ num := by exact_mod_cast Nat.log2_self_le hn
  have hnhigh : (num : ℚ) < 2 ^ (num.log2 + 1) := by exact_mod_cast Nat.lt_log2_self
  have hdlow : (2 : ℚ) ^ den.log2 ≤ den := by exact_mod_cast Nat.log2_self_le hd
  have hdhigh : (den : ℚ) < 2 ^ (den.log2 + 1) := by exact_mod_cast Nat.lt_log2_self
  generalize hguess : (num.log2 : Int) - den.log2 = guess
  have hlow : (2 : ℚ) ^ (guess - 1) ≤ num / den := by
    have he : guess - 1 + (den.log2 + 1 : Nat) = num.log2 := by omega
    rw [le_div_iff₀ hdq]
    calc (2 : ℚ) ^ (guess - 1) * den ≤ 2 ^ (guess - 1) * 2 ^ (den.log2 + 1) := by gcongr
      _ = 2 ^ num.log2 := by rw [← zpow_natCast, ← zpow_natCast, ← zpow_add₀ two_ne_zero, he]
      _ ≤ num := hnlow
  have hhigh : (num : ℚ) / den < 2 ^ (guess + 1) := by
    have he : guess + 1 + den.log2 = (num.log2 + 1 : Nat) := by omega
    rw [div_lt_iff₀ hdq]
    calc (num : ℚ) < 2 ^ (num.log2 + 1) := hnhigh
      _ = 2 ^ (guess + 1) * 2 ^ den.log2 := by
        rw [← zpow_natCast, ← zpow_natCast, ← zpow_add₀ two_ne_zero, he]
      _ ≤ 2 ^ (guess + 1) * den := by gcongr
  have hiff : den * power 2 guess ≤ num * power 2 (-guess) ↔ (2 : ℚ) ^ guess ≤ num / den := by
    have hp := power_cast_pos two_ne_zero (-guess)
    have he : (power 2 guess : ℚ) = 2 ^ guess * power 2 (-guess) :=
      power_eq_zpow_mul two_ne_zero guess
    rw [← Nat.cast_le (α := ℚ), le_div_iff₀ hdq, Nat.cast_mul, Nat.cast_mul, he, ← mul_assoc,
      mul_le_mul_iff_of_pos_right hp, mul_comm (den : ℚ)]
  simp only [binaryScale, hguess]
  split
  · rename_i hle
    exact ⟨hiff.mp hle, hhigh⟩
  · rename_i hgt
    rw [hiff, not_le] at hgt
    rw [Int.sub_add_cancel]
    exact ⟨hlow, hgt⟩

/-- A significand within half a unit of the scaled quotient is the one that rounding finds. -/
theorem roundEven_scaled {num den r : Nat} (hd : den ≠ 0) {e : Int}
    (hlow : ((r : ℚ) - 1 / 2) * 2 ^ e ≤ num / den) (hhigh : (num : ℚ) / den ≤ (r + 1 / 2) * 2 ^ e)
    (hodd : r % 2 = 1 →
      ((r : ℚ) - 1 / 2) * 2 ^ e < num / den ∧ (num : ℚ) / den < (r + 1 / 2) * 2 ^ e) :
    roundEven (num * power 2 (-e)) (den * power 2 e) = r := by
  have hden : den * power 2 e ≠ 0 := Nat.mul_ne_zero hd (power_pos e).ne'
  have hdq : (0 : ℚ) < (den * power 2 e : Nat) := by exact_mod_cast Nat.pos_of_ne_zero hden
  have hz : (0 : ℚ) < 2 ^ e := by positivity
  rw [← scaled_div num hd e] at hlow hhigh hodd
  generalize num * power 2 (-e) = n at *
  generalize den * power 2 e = d at *
  simp only [mul_le_mul_iff_of_pos_right hz, mul_lt_mul_iff_of_pos_right hz, le_div_iff₀ hdq,
    lt_div_iff₀ hdq, div_le_iff₀ hdq, div_lt_iff₀ hdq] at hlow hhigh hodd
  apply roundEven_eq hden
  · have : (2 * (r * d) : ℚ) ≤ 2 * n + d := by linarith
    exact_mod_cast this
  · have : (2 * n : ℚ) ≤ 2 * (r * d) + d := by linarith
    exact_mod_cast this
  · intro hr
    obtain ⟨hl, hh⟩ := hodd hr
    have hl' : (2 * (r * d) : ℚ) < 2 * n + d := by linarith
    have hh' : (2 * n : ℚ) < 2 * (r * d) + d := by linarith
    exact ⟨by exact_mod_cast hl', by exact_mod_cast hh'⟩

namespace Finite

variable {x : Finite} {q : ℚ}

/-- The absolute value. -/
def magnitude (x : Finite) : ℚ := x.significand * 2 ^ x.exponent

/-- Whether the neighbour below is nearer than the one above, as it is below a power of two. -/
def narrow (x : Finite) : Bool := x.fraction.val = 0 ∧ 1 < x.scale.val

/-- The distance to the middle between the number and the neighbour below, in units. -/
def reach (x : Finite) : ℚ := if x.narrow then 1 / 4 else 1 / 2

/-- The absolute values that round to the number: up to half way to its neighbours, and the ends
count only for an even significand. -/
structure Near (x : Finite) (q : ℚ) : Prop where
  low : (x.significand - x.reach) * 2 ^ x.exponent ≤ q
  high : q ≤ (x.significand + 1 / 2) * 2 ^ x.exponent
  strict : x.significand % 2 = 1 →
    (x.significand - x.reach) * 2 ^ x.exponent < q ∧ q < (x.significand + 1 / 2) * 2 ^ x.exponent

theorem reach_pos (x : Finite) : 0 < x.reach := by
  rw [reach]
  split <;> norm_num

theorem reach_le (x : Finite) : x.reach ≤ 1 / 2 := by
  rw [reach]
  split <;> norm_num

theorem near_magnitude (x : Finite) : x.Near x.magnitude := by
  have hz : (0 : ℚ) < 2 ^ x.exponent := by positivity
  have hr := x.reach_pos
  have hlow : (x.significand - x.reach) * 2 ^ x.exponent < x.magnitude :=
    mul_lt_mul_of_pos_right (by linarith) hz
  have hhigh : x.magnitude < (x.significand + 1 / 2) * 2 ^ x.exponent :=
    mul_lt_mul_of_pos_right (by linarith) hz
  exact ⟨hlow.le, hhigh.le, fun _ => ⟨hlow, hhigh⟩⟩

theorem significand_le (x : Finite) : x.significand ≤ 9007199254740991 := by
  have hf := x.fraction.isLt
  rw [significand]
  split <;> omega

theorem exponent_le (x : Finite) : x.exponent ≤ 971 := by
  have hs := x.scale.isLt
  rw [exponent]
  split <;> omega

/-- The quotient is below the 54 bits that the significand can take, rounding included. -/
theorem Near.lt_two_zpow (h : x.Near q) : q < 2 ^ (x.exponent + 53) := by
  have hz : (0 : ℚ) < 2 ^ x.exponent := by positivity
  have hm : (x.significand : ℚ) ≤ 9007199254740991 := by exact_mod_cast x.significand_le
  calc q ≤ (x.significand + 1 / 2) * 2 ^ x.exponent := h.high
    _ < 9007199254740992 * 2 ^ x.exponent := mul_lt_mul_of_pos_right (by linarith) hz
    _ = 2 ^ (x.exponent + 53) := by
      rw [zpow_add₀ two_ne_zero]
      norm_num [mul_comm]

/-- At the scale of the number itself rounding gives its significand. -/
theorem roundEven_of_near {num den : Nat} (hd : den ≠ 0) (h : x.Near (num / den)) :
    roundEven (num * power 2 (-x.exponent)) (den * power 2 x.exponent) = x.significand := by
  have hz : (0 : ℚ) < 2 ^ x.exponent := by positivity
  have hle : ((x.significand : ℚ) - 1 / 2) * 2 ^ x.exponent ≤
      (x.significand - x.reach) * 2 ^ x.exponent :=
    mul_le_mul_of_nonneg_right (by linarith [x.reach_le]) hz.le
  refine roundEven_scaled hd (hle.trans h.low) h.high fun hodd => ?_
  obtain ⟨hl, hh⟩ := h.strict hodd
  exact ⟨hle.trans_lt hl, hh⟩

/-- A quotient below the binade of the number can round up to it only if the number is the
smallest of its binade. -/
theorem Near.narrow_of_lt (h : x.Near q) (he : x.exponent ≠ -1074)
    (hlt : q < 2 ^ (x.exponent + 52)) : x.narrow = true ∧ x.significand = 4503599627370496 := by
  have hz : (0 : ℚ) < 2 ^ x.exponent := by positivity
  have hscale : 1 < x.scale.val := by
    rw [exponent] at he
    split at he <;> omega
  have hs : x.significand = 4503599627370496 + x.fraction.val := by
    rw [significand, if_neg (by omega)]
  have hpow : (2 : ℚ) ^ (x.exponent + 52) = 4503599627370496 * 2 ^ x.exponent := by
    rw [zpow_add₀ two_ne_zero]
    norm_num [mul_comm]
  have hfraction : x.fraction.val = 0 := by
    by_contra hne
    have hm : (4503599627370497 : ℚ) ≤ x.significand := by
      have : 4503599627370497 ≤ x.significand := by omega
      exact_mod_cast this
    have hle : (4503599627370496 : ℚ) * 2 ^ x.exponent ≤
        (x.significand - x.reach) * 2 ^ x.exponent :=
      mul_le_mul_of_nonneg_right (by linarith [x.reach_le]) hz.le
    rw [hpow] at hlt
    linarith [h.low]
  refine ⟨?_, by omega⟩
  simp [narrow, hfraction, hscale]

/-- Rounding finds the number from every quotient near it. -/
theorem nearest_of_near {num den : Nat} (hn : num ≠ 0) (hd : den ≠ 0) (h : x.Near (num / den)) :
    Double.nearest x.negative num den = .finite x := by
  obtain ⟨hlow, hhigh⟩ := binaryScale_spec hn hd
  have hge := x.exponent_ge
  have hup : binaryScale num den < x.exponent + 53 :=
    (zpow_lt_zpow_iff_right₀ (one_lt_two : (1 : ℚ) < 2)).mp (hlow.trans_lt h.lt_two_zpow)
  rw [Double.nearest, if_neg hn]
  by_cases hscale : max (binaryScale num den - 52) (-1074) = x.exponent
  · simp only [hscale, roundEven_of_near hd h]
    exact ofScaled_significand x
  · -- The quotient lies in the binade below and is rounded up to its end.
    have hbelow : binaryScale num den + 1 ≤ x.exponent + 52 := by omega
    have hlt : (num : ℚ) / den < 2 ^ (x.exponent + 52) :=
      hhigh.trans_le (zpow_le_zpow_right₀ one_le_two hbelow)
    obtain ⟨hnarrow, hm⟩ := h.narrow_of_lt (by omega) hlt
    have hz : (2 : ℚ) ^ x.exponent = 2 * 2 ^ (x.exponent - 1) := by
      rw [zpow_sub_one₀ two_ne_zero]
      ring
    have hpos : (0 : ℚ) < 2 ^ (x.exponent - 1) := by positivity
    have hend : (2 : ℚ) ^ (x.exponent + 52) = 9007199254740992 * 2 ^ (x.exponent - 1) := by
      rw [zpow_add₀ two_ne_zero, hz]
      norm_num
      ring
    have hfrom : (9007199254740992 - 1 / 2) * (2 : ℚ) ^ (x.exponent - 1) ≤ num / den := by
      have := h.low
      rw [hm, reach, if_pos hnarrow, hz] at this
      push_cast at this
      linarith
    have hclose : x.exponent + 51 < binaryScale num den + 1 := by
      have hhalf : (2 : ℚ) ^ (x.exponent + 51) = 4503599627370496 * 2 ^ (x.exponent - 1) := by
        rw [zpow_add₀ two_ne_zero, hz]
        norm_num
        ring
      rw [← zpow_lt_zpow_iff_right₀ (one_lt_two : (1 : ℚ) < 2), hhalf]
      linarith
    have hexp : max (binaryScale num den - 52) (-1074) = x.exponent - 1 := by omega
    have hround : roundEven (num * power 2 (-(x.exponent - 1))) (den * power 2 (x.exponent - 1)) =
        9007199254740992 := by
      refine roundEven_scaled hd (by exact_mod_cast hfrom) ?_ (by omega)
      push_cast
      linarith
    simp only [hexp, hround]
    rw [← ofScaled_significand x, hm]
    have hcode : 9007199254740992 + (x.exponent - 1 + 1074).toNat * 4503599627370496 =
        4503599627370496 + (x.exponent + 1074).toNat * 4503599627370496 := by omega
    simp only [Double.ofScaled, hcode]

/-- What is below half the least number is near nothing but zero. -/
theorem Near.eq_zero (h : x.Near q) (hlt : q < 2 ^ (-1075 : Int)) : x = zero x.negative := by
  apply eq_zero_of_significand
  by_contra hne
  have hm : (1 : ℚ) ≤ x.significand := by exact_mod_cast Nat.one_le_iff_ne_zero.mpr hne
  have hz : (2 : ℚ) ^ (-1074 : Int) ≤ 2 ^ x.exponent :=
    zpow_le_zpow_right₀ one_le_two x.exponent_ge
  have hhalf : (2 : ℚ) ^ (-1074 : Int) = 2 * 2 ^ (-1075 : Int) := by
    rw [← zpow_one_add₀ two_ne_zero]
    norm_num
  have hle : (1 / 2 : ℚ) * 2 ^ x.exponent ≤ (x.significand - x.reach) * 2 ^ x.exponent :=
    mul_le_mul_of_nonneg_right (by linarith [x.reach_le]) (by positivity)
  linarith [h.low]

/-- Every quotient near a finite number is below the first power of two out of range. -/
theorem Near.lt_range (h : x.Near q) : q < 2 ^ (1024 : Int) :=
  h.lt_two_zpow.trans_le (zpow_le_zpow_right₀ one_le_two (by linarith [x.exponent_le]))

end Finite

/-- A decimal row of digits and its power of ten as a quotient. -/
theorem decimal_quotient (digits : Nat) (exponent : Int) :
    ((digits * power 10 exponent : Nat) : ℚ) / (power 10 (-exponent) : Nat) =
      digits * 10 ^ exponent := by
  have hp := (power_cast_pos (by decide : 10 ≠ 0) (-exponent)).ne'
  have he : (power 10 exponent : ℚ) = 10 ^ exponent * power 10 (-exponent) :=
    power_eq_zpow_mul (by decide : 10 ≠ 0) exponent
  push_cast
  rw [he]
  field_simp

/-- Three bits in ten are at most a decimal place. -/
theorem ten_zpow_le {digits : Nat} (h : digits ≠ 0) :
    (10 : ℚ) ^ ((digits.log2 : Int) * 3 / 10) ≤ digits := by
  have hten : (10 ^ (digits.log2 * 3 / 10)) ^ 10 ≤ (2 ^ digits.log2) ^ 10 := by
    calc (10 ^ (digits.log2 * 3 / 10)) ^ 10 = 10 ^ (digits.log2 * 3 / 10 * 10) := by rw [pow_mul]
      _ ≤ 10 ^ (3 * digits.log2) := Nat.pow_le_pow_right (by omega) (by omega)
      _ = 1000 ^ digits.log2 := pow_mul 10 3 _
      _ ≤ 1024 ^ digits.log2 := Nat.pow_le_pow_left (by omega) _
      _ = (2 ^ digits.log2) ^ 10 := pow_right_comm 2 10 _
  have hle : 10 ^ (digits.log2 * 3 / 10) ≤ digits :=
    ((Nat.pow_le_pow_iff_left (by omega)).mp hten).trans (Nat.log2_self_le h)
  exact_mod_cast hle

/-- A decimal place is worth more than three bits. -/
theorem lt_ten_zpow (digits : Nat) : (digits : ℚ) < 10 ^ ((digits.log2 : Int) / 3 + 1) := by
  have hlt : digits < 10 ^ (digits.log2 / 3 + 1) := by
    calc digits < 2 ^ (digits.log2 + 1) := Nat.lt_log2_self
      _ ≤ 2 ^ (3 * (digits.log2 / 3 + 1)) := Nat.pow_le_pow_right (by omega) (by omega)
      _ = 8 ^ (digits.log2 / 3 + 1) := pow_mul 2 3 _
      _ ≤ 10 ^ (digits.log2 / 3 + 1) := Nat.pow_le_pow_left (by omega) _
  exact_mod_cast hlt

theorem two_zpow_lt_ten_zpow : (2 : ℚ) ^ (1024 : Int) < 10 ^ (310 : Int) := by
  have hlt : 2 ^ 1024 < 10 ^ 310 := by decide +kernel
  exact_mod_cast hlt

theorem ten_zpow_lt_two_zpow : (10 : ℚ) ^ (-326 : Int) < 2 ^ (-1075 : Int) := by
  have hlt : 2 ^ 1075 < 10 ^ 326 := by decide +kernel
  rw [zpow_neg, zpow_neg]
  apply inv_strictAnti₀ (by positivity)
  exact_mod_cast hlt

/-- Reading a decimal number finds the floating-point number that it is near. -/
theorem ofDecimal_of_near {x : Finite} {digits : Nat} {exponent : Int}
    (h : x.Near (digits * 10 ^ exponent)) :
    Double.ofDecimal x.negative digits exponent = .finite x := by
  have hp : (0 : ℚ) < 10 ^ exponent := by positivity
  by_cases h0 : digits = 0
  · have hlt : (digits : ℚ) * 10 ^ exponent < 2 ^ (-1075 : Int) := by
      rw [h0, Nat.cast_zero, zero_mul]
      positivity
    rw [Double.ofDecimal, if_pos h0, ← h.eq_zero hlt]
  have hrange : ¬ 310 ≤ (digits.log2 : Int) * 3 / 10 + exponent := by
    intro hlarge
    have hle : (10 : ℚ) ^ (310 : Int) ≤ digits * 10 ^ exponent := by
      calc (10 : ℚ) ^ (310 : Int) ≤ 10 ^ ((digits.log2 : Int) * 3 / 10 + exponent) :=
            zpow_le_zpow_right₀ (by norm_num) hlarge
        _ = 10 ^ ((digits.log2 : Int) * 3 / 10) * 10 ^ exponent :=
            zpow_add₀ (by norm_num) _ _
        _ ≤ digits * 10 ^ exponent := mul_le_mul_of_nonneg_right (ten_zpow_le h0) hp.le
    exact hle.not_gt (h.lt_range.trans two_zpow_lt_ten_zpow)
  rw [Double.ofDecimal, if_neg h0, if_neg hrange]
  split
  · rename_i hsmall
    have hlt : (digits : ℚ) * 10 ^ exponent < 2 ^ (-1075 : Int) := by
      calc (digits : ℚ) * 10 ^ exponent < 10 ^ ((digits.log2 : Int) / 3 + 1) * 10 ^ exponent :=
            mul_lt_mul_of_pos_right (lt_ten_zpow digits) hp
        _ = 10 ^ ((digits.log2 : Int) / 3 + 1 + exponent) := (zpow_add₀ (by norm_num) _ _).symm
        _ ≤ 10 ^ (-326 : Int) := zpow_le_zpow_right₀ (by norm_num) (by omega)
        _ < 2 ^ (-1075 : Int) := ten_zpow_lt_two_zpow
    rw [← h.eq_zero hlt]
  · have hnum : digits * power 10 exponent ≠ 0 :=
      Nat.mul_ne_zero h0 (Nat.pow_pos (by omega)).ne'
    have hden : power 10 (-exponent) ≠ 0 := (Nat.pow_pos (by omega)).ne'
    rw [← decimal_quotient] at h
    exact Finite.nearest_of_near hnum hden h

end DocTemplate.Decimal
