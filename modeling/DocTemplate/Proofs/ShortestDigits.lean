import Mathlib.Data.List.TakeWhile
import DocTemplate.Decimal.Shortest
import DocTemplate.Proofs.NearestDouble

/-! The shortest digits of a floating-point number are those of a decimal number near it, and
begin with a zero only if they are those of zero. -/
namespace DocTemplate.Decimal

theorem head?_toDigits {n : Nat} (h : n ≠ 0) : (Nat.toDigits 10 n).head? ≠ some '0' := by
  induction n using Nat.strongRecOn with
  | ind n ih =>
    by_cases hlt : n < 10
    · rw [Nat.toDigits_of_lt_base hlt]
      have : ∀ k < 10, k ≠ 0 → [k.digitChar].head? ≠ some '0' := by decide
      exact this n hlt h
    · have hne : (Nat.toDigits 10 (n / 10)).head? ≠ some '0' := ih (n / 10) (by omega) (by omega)
      rw [Nat.toDigits_of_base_le (by omega) (by omega)]
      cases hd : Nat.toDigits 10 (n / 10) with
      | nil => exact (Nat.toDigits_ne_nil hd).elim
      | cons c more =>
        rw [hd] at hne
        exact hne

namespace Digits

/-- The number that the digits stand for. -/
def value (x : Digits) : ℚ := Nat.ofDigitChars 10 x.digits 0 * 10 ^ (x.point - x.digits.length)

/-- Digits that can be written as they are: there is one, and the first is a zero only in the
number zero. -/
structure Proper (x : Digits) : Prop where
  isDigit : ∀ c ∈ x.digits, c.isDigit = true
  ne_nil : x.digits ≠ []
  leading : x.digits.head? = some '0' → x = ⟨['0'], 1⟩

end Digits

theorem exists_zeros (written : List Char) : ∃ zeros,
    written = (written.reverse.dropWhile (· == '0')).reverse ++ List.replicate zeros '0' := by
  refine ⟨(written.reverse.takeWhile (· == '0')).length, ?_⟩
  have hzeros : written.reverse.takeWhile (· == '0') =
      List.replicate (written.reverse.takeWhile (· == '0')).length '0' := by
    apply List.eq_replicate_of_mem
    intro c hc
    have hz := List.mem_takeWhile_imp hc
    exact beq_iff_eq.mp hz
  calc written = (written.reverse.takeWhile (· == '0') ++
        written.reverse.dropWhile (· == '0')).reverse := by
        rw [List.takeWhile_append_dropWhile, List.reverse_reverse]
    _ = (written.reverse.dropWhile (· == '0')).reverse ++
        (written.reverse.takeWhile (· == '0')).reverse := List.reverse_append
    _ = _ := by
        conv_lhs => rw [hzeros, List.reverse_replicate]

namespace Finite

variable {x : Finite} {tie : Tie} {grid : Int} {number : Nat}

theorem digitsOf_value (number : Nat) (grid : Int) :
    (digitsOf number grid).value = number * 10 ^ grid := by
  obtain ⟨zeros, hz⟩ := exists_zeros (Nat.toDigits 10 number)
  have hn : Nat.ofDigitChars 10 (Nat.toDigits 10 number) 0 = number :=
    Nat.ofDigitChars_ten_toDigits
  have hlen := congrArg List.length hz
  rw [hz, Nat.ofDigitChars_append, Nat.ofDigitChars_replicate_zero] at hn
  rw [List.length_append, List.length_replicate] at hlen
  simp only [Digits.value, digitsOf]
  generalize (List.dropWhile (· == '0') (Nat.toDigits 10 number).reverse).reverse = kept at *
  have hpoint : ((Nat.toDigits 10 number).length : Int) + grid - kept.length =
      zeros + grid := by omega
  rw [hpoint, zpow_add₀ (by norm_num), zpow_natCast, ← hn]
  push_cast
  ring

theorem digitsOf_proper (h : number ≠ 0) : (digitsOf number grid).Proper := by
  obtain ⟨zeros, hz⟩ := exists_zeros (Nat.toDigits 10 number)
  have hhead := head?_toDigits h
  have hdigit : ∀ c ∈ Nat.toDigits 10 number, c.isDigit = true :=
    fun c hc => Nat.isDigit_of_mem_toDigits (by omega) (by omega) hc
  have hne : Nat.toDigits 10 number ≠ [] := Nat.toDigits_ne_nil
  rw [hz] at hhead hdigit hne
  cases hk : (List.dropWhile (· == '0') (Nat.toDigits 10 number).reverse).reverse with
  | nil =>
    rw [hk] at hhead hne
    cases zeros with
    | zero => exact (hne rfl).elim
    | succ zeros => exact (hhead rfl).elim
  | cons c more =>
    rw [hk] at hhead hdigit
    have hd : (digitsOf number grid).digits = c :: more := hk
    refine ⟨?_, ?_, ?_⟩
    · intro a ha
      rw [hd] at ha
      exact hdigit a (List.mem_append_left _ ha)
    · rw [hd]
      exact List.cons_ne_nil _ _
    · intro hzero
      rw [hd] at hzero
      exact (hhead hzero).elim

/-- The lower end of the interval in quarters of a unit, which as a natural number is cut off at
zero. -/
theorem quarters_reach_le (x : Finite) : 4 * ((x.significand : ℚ) - x.reach) ≤
    (4 * x.significand - if x.fraction.val = 0 ∧ 1 < x.scale.val then 1 else 2 : Nat) := by
  have hcut : ∀ n : Nat, (4 * x.significand : ℚ) ≤ (4 * x.significand - n : Nat) + n := by
    intro n
    have hle : 4 * x.significand ≤ 4 * x.significand - n + n := by omega
    exact_mod_cast hle
  by_cases hn : x.fraction.val = 0 ∧ 1 < x.scale.val
  · have h1 := hcut 1
    simp only [hn, reach, narrow, and_self, decide_true, if_true, Nat.cast_one] at h1 ⊢
    linarith
  · have h2 := hcut 2
    simp only [hn, reach, narrow, decide_false, Bool.false_eq_true, if_false,
      Nat.cast_ofNat] at h2 ⊢
    linarith

/-- What reads back as the number is near it. -/
theorem near_of_readsBack (h : x.readsBack grid number = true) : x.Near (number * 10 ^ grid) := by
  have hpos : (0 : ℚ) < power 2 (-x.exponent) * power 10 (-grid) :=
    mul_pos (power_cast_pos two_ne_zero _) (power_cast_pos (by decide) _)
  have hfound : ((4 * number * (power 2 (-x.exponent) * power 10 grid) : Nat) : ℚ) =
      4 * (number * 10 ^ grid) * (power 2 (-x.exponent) * power 10 (-grid)) := by
    have he : (power 10 grid : ℚ) = 10 ^ grid * power 10 (-grid) :=
      power_eq_zpow_mul (by decide : 10 ≠ 0) grid
    push_cast
    rw [he]
    ring
  have hunit : ∀ n : Nat, ((power 2 x.exponent * power 10 (-grid) * n : Nat) : ℚ) =
      n * 2 ^ x.exponent * (power 2 (-x.exponent) * power 10 (-grid)) := by
    intro n
    have he : (power 2 x.exponent : ℚ) = 2 ^ x.exponent * power 2 (-x.exponent) :=
      power_eq_zpow_mul two_ne_zero x.exponent
    push_cast
    rw [he]
    ring
  have hz : (0 : ℚ) < 2 ^ x.exponent := by positivity
  have hlow := mul_le_mul_of_nonneg_right x.quarters_reach_le hz.le
  simp only [readsBack] at h
  generalize (4 * x.significand - if x.fraction.val = 0 ∧ 1 < x.scale.val then 1 else 2) = low at *
  split at h
  · rename_i heven
    simp only [Bool.and_eq_true, decide_eq_true_eq, ← Nat.cast_le (α := ℚ), hfound, hunit,
      mul_le_mul_iff_of_pos_right hpos] at h
    push_cast at h
    exact ⟨by linarith, by linarith, by omega⟩
  · simp only [Bool.and_eq_true, decide_eq_true_eq, ← Nat.cast_lt (α := ℚ), hfound, hunit,
      mul_lt_mul_iff_of_pos_right hpos] at h
    push_cast at h
    exact ⟨by linarith, by linarith, fun _ => ⟨by linarith, by linarith⟩⟩

theorem readsBack_of_onGrid? (h : x.onGrid? tie grid = some number) :
    x.readsBack grid number = true := by
  simp only [onGrid?] at h
  split at h
  · cases h
  · rename_i hl _
    cases h
    exact hl
  · rename_i _ hu
    cases h
    exact hu
  · rename_i hl hu
    split at h
    · cases h
      exact hl
    · cases h
      exact hu
    · cases h
      exact hu
    · cases h
      split
      · exact hl
      · exact hu

theorem number_ne_zero_of_near (h0 : x.significand ≠ 0) (h : x.Near (number * 10 ^ grid)) :
    number ≠ 0 := by
  rintro rfl
  have hm : (1 : ℚ) ≤ x.significand := by exact_mod_cast Nat.one_le_iff_ne_zero.mpr h0
  have hz : (0 : ℚ) < (x.significand - x.reach) * 2 ^ x.exponent :=
    mul_pos (by linarith [x.reach_le]) (by positivity)
  have hl := h.low
  rw [Nat.cast_zero, zero_mul] at hl
  linarith

/-- The digits past seventeen are those of the exact value. -/
theorem exact_digits (x : Finite) :
    ((x.significand * power 2 x.exponent * power 5 (-x.exponent) : Nat) : ℚ) *
      10 ^ min x.exponent 0 = x.magnitude := by
  rw [magnitude]
  generalize x.exponent = e
  rcases le_total 0 e with he | he
  · obtain ⟨n, rfl⟩ := Int.eq_ofNat_of_zero_le he
    have hn : (-(n : Int)).toNat = 0 := by omega
    simp [power, hn]
  · obtain ⟨n, hn⟩ := Int.eq_ofNat_of_zero_le (Int.neg_nonneg.mpr he)
    obtain rfl : e = -(n : Int) := by omega
    have hz : (-(n : Int)).toNat = 0 := by omega
    have hten : (10 : ℚ) ^ n = 5 ^ n * 2 ^ n := by
      rw [← mul_pow]
      norm_num
    simp only [power, hz, neg_neg, Int.toNat_natCast, min_eq_left he, zpow_neg, zpow_natCast, hten]
    push_cast
    field_simp
    simp

/-- The shortest digits of a number are those of a decimal number near it. -/
theorem shortest_eq_digitsOf (tie : Tie) (h0 : x.significand ≠ 0) :
    ∃ number grid, x.shortest tie = digitsOf number grid ∧ x.Near (number * 10 ^ grid) := by
  rw [shortest, if_neg h0]
  simp only
  split
  · rename_i digits hd
    obtain ⟨count, _, hc⟩ := List.exists_of_findSome?_eq_some hd
    obtain ⟨number, hn, rfl⟩ := Option.map_eq_some_iff.mp hc
    exact ⟨number, _, rfl, near_of_readsBack (readsBack_of_onGrid? hn)⟩
  · refine ⟨_, _, rfl, ?_⟩
    rw [exact_digits]
    exact near_magnitude x

theorem shortest_near (tie : Tie) (x : Finite) : x.Near (x.shortest tie).value := by
  by_cases h0 : x.significand = 0
  · have hv : (x.shortest tie).value = x.magnitude := by
      rw [shortest, if_pos h0, magnitude, h0]
      simp [Digits.value, Nat.ofDigitChars_cons]
    rw [hv]
    exact near_magnitude x
  · obtain ⟨number, grid, hs, hn⟩ := shortest_eq_digitsOf tie h0
    rw [hs, digitsOf_value]
    exact hn

theorem shortest_proper (tie : Tie) (x : Finite) : (x.shortest tie).Proper := by
  by_cases h0 : x.significand = 0
  · rw [shortest, if_pos h0]
    exact ⟨List.forall_mem_singleton.mpr rfl, List.cons_ne_nil _ _, fun _ => rfl⟩
  · obtain ⟨number, grid, hs, hn⟩ := shortest_eq_digitsOf tie h0
    rw [hs]
    exact digitsOf_proper (number_ne_zero_of_near h0 hn)

end Finite
end DocTemplate.Decimal
