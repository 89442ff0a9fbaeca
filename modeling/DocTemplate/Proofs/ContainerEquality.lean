import DocTemplate.Proofs.JsonText
import DocTemplate.Variable.Basic

/-! Equality of arrays and of objects beside the equality of their texts. The two agree but for the
sign of a floating-point zero, which is written and does not count. -/
namespace DocTemplate

namespace Decimal.Finite

/-- The value without the sign of a zero. -/
def plainZero (x : Finite) : Finite := if x.significand = 0 then .zero false else x

theorem rank_eq_zero_iff {x : Finite} : x.rank = 0 ↔ x.significand = 0 := by
  simp only [rank, significand]
  split <;> split <;> omega

/-- The position of a number other than zero gives its sign, its scale and its fraction. -/
theorem eq_of_rank_eq {x y : Finite} (h : x.rank = y.rank) (h0 : x.significand ≠ 0) : x = y := by
  have hne : x.rank ≠ 0 := fun hz => h0 (rank_eq_zero_iff.mp hz)
  obtain ⟨negative, scale, fraction⟩ := x
  obtain ⟨negative', scale', fraction'⟩ := y
  have hf := fraction.isLt
  have hf' := fraction'.isLt
  have hparts : negative = negative' ∧ scale.val * 4503599627370496 + fraction.val =
      scale'.val * 4503599627370496 + fraction'.val := by
    simp only [rank] at h hne
    cases negative <;> cases negative' <;>
      simp only [if_true, if_false, Bool.false_eq_true, true_and, false_and, reduceCtorEq]
        at h hne ⊢ <;>
      omega
  obtain ⟨rfl, hdistance⟩ := hparts
  have hscale : scale = scale' := Fin.ext (by omega)
  have hfraction : fraction = fraction' := Fin.ext (by omega)
  rw [hscale, hfraction]

theorem plainZero_of_zero {x : Finite} (h : x.significand = 0) : x.plainZero = .zero false :=
  if_pos h

theorem plainZero_of_ne {x : Finite} (h : x.significand ≠ 0) : x.plainZero = x := if_neg h

theorem significand_plainZero (x : Finite) : x.plainZero.significand = x.significand := by
  by_cases h : x.significand = 0
  · rw [plainZero_of_zero h, h]
    rfl
  · rw [plainZero_of_ne h]

/-- Floats of one value are the same but for the sign of a zero. -/
theorem same_iff {x y : Finite} : x.same y = true ↔ x.plainZero = y.plainZero := by
  rw [same, beq_iff_eq]
  constructor
  · intro h
    by_cases h0 : x.significand = 0
    · have hy : y.significand = 0 := rank_eq_zero_iff.mp (h.symm.trans (rank_eq_zero_iff.mpr h0))
      rw [plainZero_of_zero h0, plainZero_of_zero hy]
    · rw [eq_of_rank_eq h h0]
  · intro h
    have hs : x.significand = y.significand := by
      rw [← significand_plainZero x, h, significand_plainZero]
    by_cases h0 : x.significand = 0
    · rw [rank_eq_zero_iff.mpr h0, rank_eq_zero_iff.mpr (hs.symm.trans h0)]
    · rw [plainZero_of_ne h0, plainZero_of_ne (hs ▸ h0)] at h
      rw [h]

/-- Whether the value is minus zero. -/
def isMinusZero (x : Finite) : Bool := x.negative && x.significand == 0

theorem plainZero_of_not_isMinusZero {x : Finite} (h : x.isMinusZero = false) :
    x.plainZero = x := by
  by_cases h0 : x.significand = 0
  · have hn : x.negative = false := by simpa [isMinusZero, h0] using h
    rw [plainZero_of_zero h0, eq_zero_of_significand h0, hn]
  · exact plainZero_of_ne h0

end Decimal.Finite

namespace Number

def plainZero : Number → Number
  | .integer n least below => .integer n least below
  | .float x => .float x.plainZero

theorem same_iff {m n : Number} : m.same n = true ↔ m.plainZero = n.plainZero := by
  cases m with
  | integer m least below =>
    cases n with
    | integer n least below => simp [same, plainZero]
    | float y => simp [same, plainZero]
  | float x =>
    cases n with
    | integer n least below => simp [same, plainZero]
    | float y => simp [same, plainZero, Decimal.Finite.same_iff]

def isMinusZero : Number → Bool
  | .integer _ _ _ => false
  | .float x => x.isMinusZero

theorem plainZero_of_not_isMinusZero {n : Number} (h : n.isMinusZero = false) :
    n.plainZero = n := by
  cases n with
  | integer => rfl
  | float x => exact congrArg float (Decimal.Finite.plainZero_of_not_isMinusZero h)

end Number

namespace Json

mutual

/-- The value without the signs of floating-point zeros, at any depth. -/
def plainZeros : Json → Json
  | .number n => .number n.plainZero
  | .array items => .array (plainZerosItems items)
  | .object fields => .object (plainZerosFields fields)
  | .null => .null
  | .boolean value => .boolean value
  | .string text => .string text
termination_by structural value => value

def plainZerosItems : List Json → List Json
  | [] => []
  | item :: items => plainZeros item :: plainZerosItems items
termination_by structural items => items

def plainZerosFields {low : Option String} : Entries Json low → Entries Json low
  | .nil => .nil
  | .cons key above value rest => .cons key above (plainZeros value) (plainZerosFields rest)
termination_by structural fields => fields

end

mutual

theorem same_iff : ∀ a b : Json, same a b = true ↔ a.plainZeros = b.plainZeros
  | .null, b => by cases b <;> simp [same, plainZeros]
  | .boolean value, b => by cases b <;> simp [same, plainZeros]
  | .number n, b => by cases b <;> simp [same, plainZeros, Number.same_iff]
  | .string text, b => by cases b <;> simp [same, plainZeros]
  | .array items, b => by
    cases b with
    | array others => simp [same, plainZeros, sameItems_iff items others]
    | _ => simp [same, plainZeros]
  | .object fields, b => by
    cases b with
    | object others => simp [same, plainZeros, sameFields_iff fields others]
    | _ => simp [same, plainZeros]
termination_by structural value => value

theorem sameItems_iff : ∀ items others : List Json,
    sameItems items others = true ↔ plainZerosItems items = plainZerosItems others
  | [], others => by cases others <;> simp [sameItems, plainZerosItems]
  | item :: items, others => by
    cases others with
    | nil => simp [sameItems, plainZerosItems]
    | cons other others =>
      simp [sameItems, plainZerosItems, same_iff item other, sameItems_iff items others]
termination_by structural items => items

theorem sameFields_iff {low : Option String} : ∀ fields others : Entries Json low,
    sameFields fields others = true ↔ plainZerosFields fields = plainZerosFields others
  | .nil, others => by cases others <;> simp [sameFields, plainZerosFields]
  | .cons key above value rest, others => by
    cases others with
    | nil => simp [sameFields, plainZerosFields]
    | cons other otherAbove given more =>
      by_cases hk : key = other
      · subst hk
        simp [sameFields, plainZerosFields, same_iff value given, sameFields_iff rest more]
      · simp [sameFields, plainZerosFields, hk]
termination_by structural fields => fields

end

mutual

/-- Whether a floating-point minus zero stands in the value, at any depth. -/
def hasMinusZero : Json → Bool
  | .number n => n.isMinusZero
  | .array items => hasMinusZeroItem items
  | .object fields => hasMinusZeroField fields
  | .null | .boolean _ | .string _ => false
termination_by structural value => value

def hasMinusZeroItem : List Json → Bool
  | [] => false
  | item :: items => hasMinusZero item || hasMinusZeroItem items
termination_by structural items => items

def hasMinusZeroField {low : Option String} : Entries Json low → Bool
  | .nil => false
  | .cons _ _ value rest => hasMinusZero value || hasMinusZeroField rest
termination_by structural fields => fields

end

mutual

theorem plainZeros_of_not_hasMinusZero :
    ∀ value : Json, value.hasMinusZero = false → value.plainZeros = value
  | .number _, h => congrArg number (Number.plainZero_of_not_isMinusZero h)
  | .array items, h => congrArg array (plainZerosItems_of_not_hasMinusZero items h)
  | .object fields, h => congrArg object (plainZerosFields_of_not_hasMinusZero fields h)
  | .null, _ | .boolean _, _ | .string _, _ => rfl
termination_by structural value => value

theorem plainZerosItems_of_not_hasMinusZero :
    ∀ items : List Json, hasMinusZeroItem items = false → plainZerosItems items = items
  | [], _ => rfl
  | item :: items, h => by
    obtain ⟨hi, hs⟩ := Bool.or_eq_false_iff.mp h
    rw [plainZerosItems, plainZeros_of_not_hasMinusZero item hi,
      plainZerosItems_of_not_hasMinusZero items hs]
termination_by structural items => items

theorem plainZerosFields_of_not_hasMinusZero {low : Option String} :
    ∀ fields : Entries Json low, hasMinusZeroField fields = false → plainZerosFields fields = fields
  | .nil, _ => rfl
  | .cons key above value rest, h => by
    obtain ⟨hv, hr⟩ := Bool.or_eq_false_iff.mp h
    rw [plainZerosFields, plainZeros_of_not_hasMinusZero value hv,
      plainZerosFields_of_not_hasMinusZero rest hr]
termination_by structural fields => fields

end

end Json

namespace Variable

variable {a b : Variable}

/-- An array or an object without the signs of the floating-point zeros in it. -/
def plainZeros : Variable → Variable
  | .array items => .array (Json.plainZerosItems items)
  | .object fields => .object (Json.plainZerosFields fields)
  | other => other

/-- Whether a floating-point minus zero stands in an array or an object, at any depth. -/
def hasMinusZero : Variable → Bool
  | .array items => Json.hasMinusZeroItem items
  | .object fields => Json.hasMinusZeroField fields
  | _ => false

def isContainer (value : Variable) : Bool := value.kind = .array ∨ value.kind = .object

theorem plainZeros_of_not_hasMinusZero (h : a.hasMinusZero = false) : a.plainZeros = a := by
  cases a with
  | array items => exact congrArg array (Json.plainZerosItems_of_not_hasMinusZero items h)
  | object fields => exact congrArg object (Json.plainZerosFields_of_not_hasMinusZero fields h)
  | _ => rfl

@[simp]
theorem kind_plainZeros (a : Variable) : a.plainZeros.kind = a.kind := by
  cases a <;> rfl

theorem array_or_object (h : a.isContainer = true) :
    (∃ items, a = .array items) ∨ ∃ fields, a = .object fields := by
  cases a with
  | array items => exact Or.inl ⟨items, rfl⟩
  | object fields => exact Or.inr ⟨fields, rfl⟩
  | _ => cases h

/-- The text of an array or an object tells it from every other of its kind. -/
theorem display_eq_iff (hk : a.kind = b.kind) (hc : a.isContainer = true) :
    a.display = b.display ↔ a = b := by
  refine ⟨fun h => ?_, congrArg display⟩
  rcases array_or_object hc with ⟨items, rfl⟩ | ⟨fields, rfl⟩
  · cases b with
    | array others =>
      obtain rfl := Json.array.inj (Json.compact_injective h)
      rfl
    | _ => cases hk
  · cases b with
    | object others =>
      obtain rfl := Json.object.inj (Json.compact_injective h)
      rfl
    | _ => cases hk

theorem same_iff_plainZeros (hk : a.kind = b.kind) (hc : a.isContainer = true) :
    a.same b = true ↔ a.plainZeros = b.plainZeros := by
  rcases array_or_object hc with ⟨items, rfl⟩ | ⟨fields, rfl⟩
  · cases b with
    | array others => simp [same, plainZeros, Json.sameItems_iff]
    | _ => cases hk
  · cases b with
    | object others => simp [same, plainZeros, Json.sameFields_iff]
    | _ => cases hk

/-- Arrays are equal, and objects are, exactly if they have one text once the signs of
floating-point zeros are dropped. Equal texts always mean equal values; equal values mean equal
texts where no minus zero stands in them. -/
theorem container_same_iff_display (hk : a.kind = b.kind) (hc : a.isContainer = true) :
    (a.same b = true ↔ a.plainZeros.display = b.plainZeros.display) ∧
      (a.display = b.display → a.same b = true) ∧
      (a.hasMinusZero = false → b.hasMinusZero = false →
        (a.same b = true ↔ a.display = b.display)) := by
  have hsame := same_iff_plainZeros hk hc
  have hplain : a.same b = true ↔ a.plainZeros.display = b.plainZeros.display := by
    have hk' : a.plainZeros.kind = b.plainZeros.kind := by simpa using hk
    have hc' : a.plainZeros.isContainer = true := by simpa [isContainer] using hc
    exact hsame.trans (display_eq_iff hk' hc').symm
  refine ⟨hplain, fun h => ?_, fun ha hb => ?_⟩
  · obtain rfl := (display_eq_iff hk hc).mp h
    exact hsame.mpr rfl
  · rw [plainZeros_of_not_hasMinusZero ha, plainZeros_of_not_hasMinusZero hb] at hplain
    exact hplain

/-- One as an integer and one as a float, below a field and inside a list. -/
theorem container_same_iff_display_of_ones :
    let one := Json.number (.integer 1 (by decide) (by decide))
    let float := Json.number (.float ⟨false, 1023, 0⟩)
    let a := Variable.object (.cons "sizes" trivial (.array [one, .string "m"]) .nil)
    let b := Variable.object (.cons "sizes" trivial (.array [float, .string "m"]) .nil)
    a.kind = b.kind ∧ a.isContainer = true ∧ a.hasMinusZero = false ∧ b.hasMinusZero = false ∧
      a.same b = false ∧ (a.same b = true ↔ a.display = b.display) := by
  intro one float a b
  have ha : a.hasMinusZero = false := by decide +kernel
  have hb : b.hasMinusZero = false := by decide +kernel
  have hk : a.kind = b.kind := rfl
  obtain ⟨_, _, htexts⟩ := container_same_iff_display hk rfl
  exact ⟨hk, rfl, ha, hb, rfl, htexts ha hb⟩

/-- A list with zero and a list with minus zero are equal and have different texts. -/
theorem lists_of_zeros_same_with_different_texts :
    let a := Variable.array [.number (.float (.zero false))]
    let b := Variable.array [.number (.float (.zero true))]
    a.same b = true ∧ a.display = "[0.0]" ∧ b.display = "[-0.0]" ∧
      ¬ (a.same b = true ↔ a.display = b.display) := by
  intro a b
  have hs : a.same b = true := by decide +kernel
  have ha : a.display = "[0.0]" := by decide +kernel
  have hb : b.display = "[-0.0]" := by decide +kernel
  refine ⟨hs, ha, hb, fun h => ?_⟩
  have ht := h.mp hs
  rw [ha, hb] at ht
  revert ht
  decide

end Variable
end DocTemplate
