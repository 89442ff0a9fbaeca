import DocTemplate.Json.Printer
import DocTemplate.Json.Written
import DocTemplate.Proofs.ShortestDigits

/-! The text of a number is read back as the number. -/
namespace DocTemplate

namespace Decimal

theorem digitValue?_of_isDigit {c : Char} (h : c.isDigit = true) :
    digitValue? 10 c = some (c.toNat - '0'.toNat) := by
  have hlt : c.toNat - '0'.toNat < 10 := by
    simp only [Char.isDigit, Bool.and_eq_true, decide_eq_true_eq, UInt32.le_iff_toNat_le] at h
    have hle : c.toNat ≤ 57 := h.2
    have hzero : '0'.toNat = 48 := rfl
    omega
  simp only [digitValue?, h, if_true, hlt]

theorem foldlM_digits {digits : List Char} (hd : ∀ c ∈ digits, c.isDigit = true) (n : Nat) :
    digits.foldlM (fun n c => (digitValue? 10 c).map (n * 10 + ·)) n =
      some (Nat.ofDigitChars 10 digits n) := by
  induction digits generalizing n with
  | nil => rfl
  | cons c digits ih =>
    obtain ⟨hc, hd⟩ := List.forall_mem_cons.mp hd
    rw [List.foldlM_cons, digitValue?_of_isDigit hc, Nat.ofDigitChars_cons, Nat.mul_comm 10]
    exact ih hd _

theorem natural?_digits {digits : List Char} (hne : digits ≠ [])
    (hd : ∀ c ∈ digits, c.isDigit = true) :
    natural? 10 digits = some (Nat.ofDigitChars 10 digits 0) := by
  rw [natural?, if_neg (by simpa using hne)]
  exact foldlM_digits hd 0

theorem natural?_toDigits (n : Nat) : natural? 10 (Nat.toDigits 10 n) = some n := by
  have hd : ∀ c ∈ Nat.toDigits 10 n, c.isDigit = true :=
    fun c hc => Nat.isDigit_of_mem_toDigits (by omega) (by omega) hc
  rw [natural?_digits Nat.toDigits_ne_nil hd, Nat.ofDigitChars_ten_toDigits]

end Decimal

/-- What follows does not begin with a digit. -/
def DigitsEnd (rest : List Char) : Prop := ∀ c ∈ rest.head?, c.isDigit = false

theorem takeWhile_digits {digits rest : List Char} (hd : ∀ c ∈ digits, c.isDigit = true)
    (hr : DigitsEnd rest) : (digits ++ rest).takeWhile Char.isDigit = digits := by
  rw [List.takeWhile_append_of_pos hd]
  cases rest with
  | nil => simp
  | cons c rest => simp [hr c rfl]

theorem dropWhile_digits {digits rest : List Char} (hd : ∀ c ∈ digits, c.isDigit = true)
    (hr : DigitsEnd rest) : (digits ++ rest).dropWhile Char.isDigit = rest := by
  rw [List.dropWhile_append_of_pos hd]
  cases rest with
  | nil => rfl
  | cons c rest => simp [hr c rfl]

namespace WrittenNumber

/-- What follows does not go on with a number. -/
def Ends (rest : List Char) : Prop :=
  ∀ c ∈ rest.head?, c.isDigit = false ∧ c ≠ '.' ∧ c ≠ 'e' ∧ c ≠ 'E'

def signText (negative : Bool) : List Char := if negative then ['-'] else []

def placesText : Option (List Char) → List Char
  | none => []
  | some places => '.' :: places

def exponentText : Option Int → List Char
  | none => []
  | some exponent =>
    'e' :: (if exponent < 0 then '-' else '+') :: Nat.toDigits 10 exponent.natAbs

/-- The text of a number as it is written. -/
def text (number : WrittenNumber) : List Char :=
  signText number.negative ++ (number.whole ++
    (placesText number.places ++ exponentText number.exponent))

/-- Digits on both sides of the point, and no needless zero in front. -/
structure Proper (number : WrittenNumber) : Prop where
  whole : ∀ c ∈ number.whole, c.isDigit = true
  ne_nil : number.whole ≠ []
  leading : number.whole.head? = some '0' → number.whole = ['0']
  places : ∀ places ∈ number.places, places ≠ [] ∧ ∀ c ∈ places, c.isDigit = true

theorem readExponent?_text (exponent : Option Int) {rest : List Char} (hr : Ends rest) :
    readExponent? (exponentText exponent ++ rest) = some (exponent, rest) := by
  cases exponent with
  | none =>
    cases rest with
    | nil => rfl
    | cons c rest =>
      obtain ⟨_, _, he, hE⟩ := hr c rfl
      simp [exponentText, readExponent?, he, hE]
  | some exponent =>
    have hd : ∀ c ∈ Nat.toDigits 10 exponent.natAbs, c.isDigit = true :=
      fun c hc => Nat.isDigit_of_mem_toDigits (by omega) (by omega) hc
    have hend : DigitsEnd rest := fun c hc => (hr c hc).1
    have hsplit : Decimal.splitSign ((if exponent < 0 then '-' else '+') ::
        (Nat.toDigits 10 exponent.natAbs ++ rest)) =
        (decide (exponent < 0), Nat.toDigits 10 exponent.natAbs ++ rest) := by
      by_cases hneg : exponent < 0
      · simp [Decimal.splitSign, hneg]
      · simp [Decimal.splitSign, hneg]
    have hvalue : (if decide (exponent < 0) then -(exponent.natAbs : Int)
        else exponent.natAbs) = exponent := by
      by_cases hneg : exponent < 0
      · simp only [hneg, decide_true, if_true]
        omega
      · simp only [hneg, decide_false, Bool.false_eq_true, if_false]
        omega
    simp only [exponentText, List.cons_append, readExponent?, true_or, if_true, hsplit,
      takeWhile_digits hd hend, dropWhile_digits hd hend, Decimal.natural?_toDigits,
      Option.bind_eq_bind, Option.bind_some, hvalue]

theorem readPlaces?_text {places : Option (List Char)} {rest : List Char}
    (hp : ∀ digits ∈ places, digits ≠ [] ∧ ∀ c ∈ digits, c.isDigit = true)
    (hr : ∀ c ∈ rest.head?, c.isDigit = false ∧ c ≠ '.') :
    readPlaces? (placesText places ++ rest) = some (places, rest) := by
  cases places with
  | none =>
    cases rest with
    | nil => rfl
    | cons c rest =>
      have hc := (hr c rfl).2
      simp [placesText, readPlaces?, hc]
  | some digits =>
    obtain ⟨hne, hd⟩ := hp digits rfl
    have hend : DigitsEnd rest := fun c hc => (hr c hc).1
    simp [placesText, readPlaces?, takeWhile_digits hd hend, dropWhile_digits hd hend, hne]

/-- An exponent goes on neither with a digit nor with a point. -/
theorem exponentText_ends (exponent : Option Int) {rest : List Char} (hr : Ends rest) :
    ∀ c ∈ (exponentText exponent ++ rest).head?, c.isDigit = false ∧ c ≠ '.' := by
  cases exponent with
  | none => exact fun c hc => ⟨(hr c hc).1, (hr c hc).2.1⟩
  | some exponent =>
    intro c hc
    obtain rfl : 'e' = c := Option.some.inj hc
    decide

theorem placesText_ends {places : Option (List Char)} {rest : List Char} (hr : DigitsEnd rest) :
    DigitsEnd (placesText places ++ rest) := by
  cases places with
  | none => exact hr
  | some digits =>
    intro c hc
    obtain rfl : '.' = c := Option.some.inj hc
    decide

/-- A number is read off the front of a text that does not go on with it. -/
theorem read?_text {number : WrittenNumber} {rest : List Char} (h : number.Proper)
    (hr : Ends rest) : read? (number.text ++ rest) = some (number, rest) := by
  obtain ⟨negative, whole, places, exponent⟩ := number
  obtain ⟨hwhole, hne, hleading, hplaces⟩ := h
  simp only at hwhole hne hleading hplaces
  have hexponent := exponentText_ends exponent hr
  have hend : DigitsEnd (placesText places ++ (exponentText exponent ++ rest)) :=
    placesText_ends fun c hc => (hexponent c hc).1
  have hguard : (whole == ['0'] || (!whole.isEmpty && whole.head? != some '0')) = true := by
    by_cases hz : whole.head? = some '0'
    · simp [hleading hz]
    · simp [hz, hne]
  generalize hbody : whole ++ (placesText places ++ (exponentText exponent ++ rest)) = body
  have hwhole' : body.takeWhile Char.isDigit = whole := by
    rw [← hbody, takeWhile_digits hwhole hend]
  have hplaces' : readPlaces? (body.dropWhile Char.isDigit) =
      some (places, exponentText exponent ++ rest) := by
    rw [← hbody, dropWhile_digits hwhole hend, readPlaces?_text hplaces hexponent]
  have hminus : ∀ more, body ≠ '-' :: more := by
    rintro more rfl
    obtain ⟨first, others, rfl⟩ := List.exists_cons_of_ne_nil hne
    obtain rfl : first = '-' := (List.cons.inj hbody).1
    cases hwhole '-' (List.mem_cons_self ..)
  have htext : text ⟨negative, whole, places, exponent⟩ ++ rest = signText negative ++ body := by
    rw [← hbody, text, List.append_assoc, List.append_assoc, List.append_assoc]
  rw [htext]
  unfold read?
  cases negative with
  | true =>
    simp only [signText, if_true, List.cons_append, List.nil_append, hwhole', hplaces', hguard,
      guard_true]
    simp [readExponent?_text exponent hr]
  | false =>
    simp only [signText, Bool.false_eq_true, if_false, List.nil_append, hwhole', hplaces', hguard,
      guard_true]
    simp [readExponent?_text exponent hr]

/-- The number without its sign. -/
def magnitude (number : WrittenNumber) : ℚ :=
  Nat.ofDigitChars 10 (number.whole ++ number.places.getD []) 0 *
    10 ^ (number.exponent.getD 0 - (number.places.getD []).length)

theorem natural?_of_proper {number : WrittenNumber} (h : number.Proper) :
    Decimal.natural? 10 (number.whole ++ number.places.getD []) =
      some (Nat.ofDigitChars 10 (number.whole ++ number.places.getD []) 0) := by
  apply Decimal.natural?_digits
  · exact List.append_ne_nil_of_left_ne_nil h.ne_nil _
  · intro c hc
    rcases List.mem_append.mp hc with hc | hc
    · exact h.whole c hc
    · cases hp : number.places with
      | none =>
        rw [hp] at hc
        cases hc
      | some places =>
        rw [hp] at hc
        exact (h.places places hp).2 c hc

/-- A number written with a point or an exponent means the float it is near. -/
theorem value?_of_near {number : WrittenNumber} {x : Decimal.Finite} (h : number.Proper)
    (hf : number.isInteger = false) (hn : number.negative = x.negative)
    (hx : x.Near number.magnitude) : number.value? = some (.float x) := by
  have hread := Decimal.ofDecimal_of_near hx
  rw [← hn] at hread
  simp [value?, natural?_of_proper h, hf, hread]

/-- An integer in range means itself; only minus zero does not. -/
theorem value?_of_integer {number : WrittenNumber} {digits : Nat} {n : Number}
    (hi : number.isInteger = true)
    (hd : Decimal.natural? 10 (number.whole ++ number.places.getD []) = some digits)
    (hz : ¬ (number.negative = true ∧ digits = 0))
    (hn : Number.ofInt? (if number.negative then -(digits : Int) else digits) = some n) :
    number.value? = some n := by
  simp [value?, hd, hi, hz, hn]

end WrittenNumber

namespace Decimal.Digits

variable {x : Digits}

/-- The digits on both sides of the point, with zeros where the point stands outside of them. -/
def sides (x : Digits) : List Char × List Char :=
  if x.isWhole then
    (x.digits ++ List.replicate (x.point.toNat - x.digits.length) '0', ['0'])
  else if x.point ≤ 0 then (['0'], List.replicate (-x.point).toNat '0' ++ x.digits)
  else (x.digits.take x.point.toNat, x.digits.drop x.point.toNat)

/-- The digits as a number with places if the point is near them, and otherwise as one with an
exponent. -/
def written (negative : Bool) (x : Digits) : WrittenNumber :=
  if -5 < x.point ∧ x.point ≤ 16 then ⟨negative, x.sides.1, some x.sides.2, none⟩
  else
    ⟨negative, x.digits.take 1, if x.digits.length = 1 then none else some (x.digits.drop 1),
      some (x.point - 1)⟩

theorem isWhole_iff : x.isWhole = true ↔ (x.digits.length : Int) ≤ x.point := by
  simp [isWhole]

theorem length_pos (h : x.Proper) : 0 < x.digits.length := List.length_pos_of_ne_nil h.ne_nil

/-- The point stands behind the digits, in front of them or among them. -/
theorem sides_cases (x : Digits) :
    ((x.digits.length : Int) ≤ x.point ∧
        x.sides = (x.digits ++ List.replicate (x.point.toNat - x.digits.length) '0', ['0'])) ∨
      (x.point < x.digits.length ∧ x.point ≤ 0 ∧
        x.sides = (['0'], List.replicate (-x.point).toNat '0' ++ x.digits)) ∨
      (x.point < x.digits.length ∧ 0 < x.point ∧
        x.sides = (x.digits.take x.point.toNat, x.digits.drop x.point.toNat)) := by
  by_cases hwhole : x.isWhole = true
  · exact Or.inl ⟨isWhole_iff.mp hwhole, if_pos hwhole⟩
  · have hlt : x.point < x.digits.length := not_le.mp fun hle => hwhole (isWhole_iff.mpr hle)
    rw [sides, if_neg hwhole]
    by_cases hpoint : x.point ≤ 0
    · exact Or.inr (Or.inl ⟨hlt, hpoint, if_pos hpoint⟩)
    · exact Or.inr (Or.inr ⟨hlt, not_le.mp hpoint, if_neg hpoint⟩)

theorem isDigit_of_mem_replicate {n : Nat} : ∀ c ∈ List.replicate n '0', c.isDigit = true := by
  intro c hc
  rw [List.eq_of_mem_replicate hc]
  rfl

theorem sides_proper (negative : Bool) (h : x.Proper) :
    WrittenNumber.Proper ⟨negative, x.sides.1, some x.sides.2, none⟩ := by
  have hlen := length_pos h
  rcases sides_cases x with ⟨_, hs⟩ | ⟨_, _, hs⟩ | ⟨hlt, hpos, hs⟩
  · rw [hs]
    refine ⟨?_, List.append_ne_nil_of_left_ne_nil h.ne_nil _, ?_, ?_⟩
    · intro c hc
      exact (List.mem_append.mp hc).elim (h.isDigit c) (isDigit_of_mem_replicate c)
    · intro hz
      rw [List.head?_append_of_ne_nil _ h.ne_nil] at hz
      rw [h.leading hz]
      rfl
    · rintro places ⟨⟩
      exact ⟨List.cons_ne_nil _ _, List.forall_mem_singleton.mpr rfl⟩
  · rw [hs]
    refine ⟨List.forall_mem_singleton.mpr rfl, List.cons_ne_nil _ _, fun _ => rfl, ?_⟩
    rintro places ⟨⟩
    refine ⟨List.append_ne_nil_of_right_ne_nil _ h.ne_nil, ?_⟩
    intro c hc
    exact (List.mem_append.mp hc).elim (isDigit_of_mem_replicate c) (h.isDigit c)
  · rw [hs]
    refine ⟨fun c hc => h.isDigit c (List.mem_of_mem_take hc), ?_, ?_, ?_⟩
    · intro hnil
      have hlength := congrArg List.length hnil
      rw [List.length_take, List.length_nil] at hlength
      omega
    · intro hz
      rw [List.head?_take, if_neg (by omega)] at hz
      have hone := congrArg Digits.point (h.leading hz)
      have hdigits := congrArg (List.length ∘ Digits.digits) (h.leading hz)
      simp only [Function.comp_apply, List.length_singleton] at hone hdigits
      omega
    · rintro places ⟨⟩
      refine ⟨?_, fun c hc => h.isDigit c (List.mem_of_mem_drop hc)⟩
      intro hnil
      have hlength := congrArg List.length hnil
      rw [List.length_drop, List.length_nil] at hlength
      omega

theorem sides_magnitude (negative : Bool) (h : x.Proper) :
    WrittenNumber.magnitude ⟨negative, x.sides.1, some x.sides.2, none⟩ = x.value := by
  have hlen := length_pos h
  rcases sides_cases x with ⟨hle, hs⟩ | ⟨_, hpoint, hs⟩ | ⟨hlt, hpos, hs⟩
  · have hexp : x.point - x.digits.length = (x.point.toNat - x.digits.length : Nat) := by omega
    have hdigits : Nat.ofDigitChars 10 (x.digits ++
        List.replicate (x.point.toNat - x.digits.length) '0' ++ ['0']) 0 =
        10 * (10 ^ (x.point.toNat - x.digits.length) * Nat.ofDigitChars 10 x.digits 0) := by
      rw [Nat.ofDigitChars_append, Nat.ofDigitChars_append, Nat.ofDigitChars_replicate_zero,
        Nat.ofDigitChars_cons, Nat.ofDigitChars_nil]
      rfl
    simp only [WrittenNumber.magnitude, value, hs, Option.getD_some, Option.getD_none, hdigits,
      hexp, zpow_natCast]
    push_cast
    norm_num
    ring
  · have hdigits : Nat.ofDigitChars 10
        (['0'] ++ (List.replicate (-x.point).toNat '0' ++ x.digits)) 0 =
        Nat.ofDigitChars 10 x.digits 0 := by
      rw [Nat.ofDigitChars_append, Nat.ofDigitChars_append, Nat.ofDigitChars_replicate_zero]
      rfl
    have hexp : (0 : Int) - (List.replicate (-x.point).toNat '0' ++ x.digits).length =
        x.point - x.digits.length := by
      rw [List.length_append, List.length_replicate]
      omega
    simp only [WrittenNumber.magnitude, value, hs, Option.getD_some, Option.getD_none, hdigits,
      hexp]
  · have hexp : (0 : Int) - (x.digits.drop x.point.toNat).length = x.point - x.digits.length := by
      rw [List.length_drop]
      omega
    simp only [WrittenNumber.magnitude, value, hs, Option.getD_some, Option.getD_none,
      List.take_append_drop, hexp]

theorem positional_eq_sides (h : x.Proper) :
    (if x.isWhole then x.positional ++ ['.', '0'] else x.positional) =
      x.sides.1 ++ '.' :: x.sides.2 := by
  have hlen := length_pos h
  rcases sides_cases x with ⟨hle, hs⟩ | ⟨hlt, hpoint, hs⟩ | ⟨hlt, hpos, hs⟩
  · have hpoint : ¬ x.point ≤ 0 := by omega
    have hbefore : x.digits.length ≤ x.point.toNat := by omega
    rw [hs, if_pos (isWhole_iff.mpr hle)]
    simp [positional, hpoint, hbefore]
  · have hwhole : ¬ x.isWhole = true := fun hw => not_le.mpr hlt (isWhole_iff.mp hw)
    rw [hs, if_neg hwhole]
    simp [positional, hpoint]
  · have hwhole : ¬ x.isWhole = true := fun hw => not_le.mpr hlt (isWhole_iff.mp hw)
    have hbefore : ¬ x.digits.length ≤ x.point.toNat := by omega
    rw [hs, if_neg hwhole]
    simp [positional, not_le.mpr hpos, hbefore]

theorem written_proper (negative : Bool) (h : x.Proper) : (x.written negative).Proper := by
  rw [written]
  split
  · exact sides_proper negative h
  · obtain ⟨first, more, hd⟩ := List.exists_cons_of_ne_nil h.ne_nil
    have hdigit := h.isDigit
    rw [hd] at hdigit
    obtain ⟨hfirst, hmore⟩ := List.forall_mem_cons.mp hdigit
    simp only [hd, List.take_succ_cons, List.take_zero, List.drop_succ_cons, List.drop_zero]
    refine ⟨List.forall_mem_singleton.mpr hfirst, List.cons_ne_nil _ _, ?_, ?_⟩
    · intro hz
      rw [Option.some.inj hz]
    · intro places hp
      split at hp
      · cases hp
      · rename_i hne
        cases hp
        refine ⟨?_, hmore⟩
        rintro rfl
        exact hne rfl

theorem written_negative (negative : Bool) (x : Digits) :
    (x.written negative).negative = negative := by
  rw [written]
  split <;> rfl

/-- A point or an exponent tells a float from an integer. -/
theorem written_isInteger (negative : Bool) (x : Digits) :
    (x.written negative).isInteger = false := by
  rw [written]
  split
  · rfl
  · exact Bool.and_false _

theorem written_magnitude (negative : Bool) (h : x.Proper) :
    (x.written negative).magnitude = x.value := by
  have hlen := length_pos h
  rw [written]
  split
  · exact sides_magnitude negative h
  · split
    · rename_i hone
      have hdigits : x.digits.take 1 ++ [] = x.digits := by
        rw [List.append_nil, List.take_of_length_le hone.le]
      have hexp : x.point - 1 - (([] : List Char).length : Int) = x.point - x.digits.length := by
        rw [List.length_nil, hone]
        omega
      simp only [WrittenNumber.magnitude, value, Option.getD_some, Option.getD_none, hdigits, hexp]
    · have hexp : x.point - 1 - ((x.digits.drop 1).length : Int) =
          x.point - x.digits.length := by
        rw [List.length_drop]
        omega
      simp only [WrittenNumber.magnitude, value, Option.getD_some, List.take_append_drop, hexp]

/-- The layout of a float in a data format is the number as it is written. -/
theorem written_text (negative : Bool) (h : x.Proper) :
    (x.written negative).text = WrittenNumber.signText negative ++
      (if -5 < x.point ∧ x.point ≤ 16 then
        if x.isWhole then x.positional ++ ['.', '0'] else x.positional
      else x.scientific) := by
  rw [positional_eq_sides h, written]
  split
  · simp [WrittenNumber.text, WrittenNumber.placesText, WrittenNumber.exponentText]
  · obtain ⟨first, more, hd⟩ := List.exists_cons_of_ne_nil h.ne_nil
    cases more with
    | nil =>
      simp [WrittenNumber.text, WrittenNumber.placesText, WrittenNumber.exponentText, scientific,
        hd]
    | cons second more =>
      simp [WrittenNumber.text, WrittenNumber.placesText, WrittenNumber.exponentText, scientific,
        hd]

end Decimal.Digits

namespace Number

/-- A number as its text writes it. -/
def written : Number → WrittenNumber
  | .integer n _ _ => ⟨decide (n < 0), Nat.toDigits 10 n.natAbs, none, none⟩
  | .float x => (x.shortest .even).written x.negative

theorem text_eq_written (number : Number) : number.text.toList = number.written.text := by
  cases number with
  | integer n least below =>
    simp only [text, written, WrittenNumber.text, WrittenNumber.placesText,
      WrittenNumber.exponentText, List.append_nil, Int.toString_eq_repr, Int.repr_eq_if]
    by_cases hneg : n < 0
    · have habs : n.natAbs = (-n).toNat := by omega
      have hlow : ¬ 0 ≤ n := by omega
      simp [WrittenNumber.signText, hneg, habs, hlow]
    · have habs : n.natAbs = n.toNat := by omega
      have hlow : 0 ≤ n := by omega
      simp [WrittenNumber.signText, hneg, habs, hlow]
  | float x =>
    have hs : ∀ (negative : Bool) (text : List Char), (Decimal.signed negative text).toList =
        WrittenNumber.signText negative ++ text := by
      intro negative text
      cases negative <;> simp [Decimal.signed, WrittenNumber.signText]
    rw [written, Decimal.Digits.written_text x.negative (Decimal.Finite.shortest_proper .even x)]
    exact hs _ _

theorem written_proper (number : Number) : number.written.Proper := by
  cases number with
  | integer n least below =>
    refine ⟨?_, Nat.toDigits_ne_nil, ?_, nofun⟩
    · exact fun c hc => Nat.isDigit_of_mem_toDigits (by omega) (by omega) hc
    · intro hz
      by_cases h0 : n.natAbs = 0
      · rw [written, h0]
        rfl
      · exact (Decimal.head?_toDigits h0 hz).elim
  | float x =>
    exact Decimal.Digits.written_proper x.negative (Decimal.Finite.shortest_proper .even x)

/-- The text of a number means the number. -/
theorem value?_written (number : Number) : number.written.value? = some number := by
  cases number with
  | integer n least below =>
    have hn : Decimal.natural? 10 (Nat.toDigits 10 n.natAbs ++ []) = some n.natAbs := by
      rw [List.append_nil, Decimal.natural?_toDigits]
    apply WrittenNumber.value?_of_integer rfl hn
    · by_cases h0 : n.natAbs = 0
      · have hneg : ¬ n < 0 := by omega
        simp [written, hneg]
      · exact fun hz => h0 hz.2
    · have hsigned : (if n < 0 then -(n.natAbs : Int) else n.natAbs) = n := by
        split <;> omega
      simp only [written, decide_eq_true_eq, hsigned]
      rw [ofInt?, dif_pos least, dif_pos below]
  | float x =>
    have hp := Decimal.Finite.shortest_proper .even x
    apply WrittenNumber.value?_of_near (Decimal.Digits.written_proper x.negative hp)
    · exact Decimal.Digits.written_isInteger x.negative _
    · exact Decimal.Digits.written_negative x.negative _
    · rw [Decimal.Digits.written_magnitude x.negative hp]
      exact Decimal.Finite.shortest_near .even x

end Number
end DocTemplate
