import Mathlib.Data.String.Basic
import DocTemplate.Template.Substitution

/-! The order of a substitution table. Whatever the order in which it was filled, the first token
that fits is the longest that does. -/
namespace DocTemplate

namespace Text

variable {a b text : List Char}

@[simp]
theorem byteSize_append (a b : List Char) : byteSize (a ++ b) = byteSize a + byteSize b := by
  induction a with
  | nil => simp [byteSize]
  | cons c a ih =>
    simp only [List.cons_append, byteSize, ih]
    omega

theorem length_le_byteSize (text : List Char) : text.length ≤ byteSize text := by
  induction text with
  | nil => exact Nat.le_refl 0
  | cons c text ih =>
    have := c.utf8Size_pos
    rw [List.length_cons, byteSize]
    omega

/-- Of two initial parts of one text, the one with no more bytes is an initial part of the other. -/
theorem prefix_of_byteSize_le (ha : a <+: text) (hb : b <+: text) (h : byteSize a ≤ byteSize b) :
    a <+: b := by
  rcases List.prefix_or_prefix_of_prefix ha hb with hp | hp
  · exact hp
  · obtain ⟨tail, rfl⟩ := hp
    have := length_le_byteSize tail
    rw [byteSize_append] at h
    have ht : tail = [] := List.length_eq_zero_iff.mp (by omega)
    simp [ht]

end Text

namespace Substitution

variable {a b : Substitution}

theorem token_eq_of_notAfter (h : NotAfter a b) (h' : NotAfter b a) : a.token = b.token := by
  rw [notAfter_iff] at h h'
  rcases h with h | ⟨he, ht⟩
  · rcases h' with h' | ⟨he', _⟩ <;> omega
  · rcases h' with h' | ⟨_, ht'⟩
    · omega
    · exact List.le_antisymm (List.not_lt.mp ht) (List.not_lt.mp ht')

end Substitution

namespace SubstitutionTable

variable {given : List Substitution} {entry : Substitution} {text : List Char}

theorem entries_perm (given : List Substitution) : (ofList given).entries.Perm given := by
  induction given with
  | nil => exact .refl _
  | cons entry given ih => exact (Substitution.place_perm entry _).trans (ih.cons entry)

@[simp]
theorem mem_entries_iff : entry ∈ (ofList given).entries ↔ entry ∈ given :=
  (entries_perm given).mem_iff

theorem match?_eq_none_iff :
    (ofList given).match? text = none ↔ ∀ entry ∈ given, ¬ entry.token <+: text := by
  simp [match?, mem_entries_iff]

/-- The match is an initial part of the text, and every other token that is one is part of it. -/
theorem match?_longest (h : (ofList given).match? text = some entry) :
    entry ∈ given ∧ entry.token <+: text ∧
      ∀ other ∈ given, other.token <+: text → other.token <+: entry.token := by
  obtain ⟨hp, before, after, hs, hb⟩ := List.find?_eq_some_iff_append.mp h
  have hpre : entry.token <+: text := List.isPrefixOf_iff_prefix.mp hp
  refine ⟨mem_entries_iff.mp (by rw [hs]; simp), hpre, ?_⟩
  intro other hm ho
  rw [← mem_entries_iff, hs] at hm
  rcases List.mem_append.mp hm with hm | hm
  · have hn := hb other hm
    rw [List.isPrefixOf_iff_prefix.mpr ho] at hn
    cases hn
  · rcases List.mem_cons.mp hm with rfl | hm
    · exact List.prefix_rfl
    · have hsorted := (ofList given).sorted
      rw [hs, List.pairwise_append, List.pairwise_cons] at hsorted
      have hle := Substitution.notAfter_iff.mp (hsorted.2.1.1 other hm)
      exact Text.prefix_of_byteSize_le ho hpre (by omega)

end SubstitutionTable
end DocTemplate
