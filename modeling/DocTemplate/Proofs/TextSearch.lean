import Mathlib.Data.List.TakeWhile
import DocTemplate.Text.Search

/-! What is found in a text: the first occurrence of a pattern, the pieces between marks, and the
part between the blanks at the two ends. -/
namespace DocTemplate.Text

variable {pattern text before after found front back more piece core : List Char} {c mark : Char}

/-- The pattern stands in the text between these two parts, and nowhere earlier. -/
structure FirstAt (pattern text before after : List Char) : Prop where
  parts : text = before ++ (pattern ++ after)
  least {front back : List Char} :
    text = front ++ (pattern ++ back) → before.length ≤ front.length

namespace FirstAt

theorem at_front (h : text = pattern ++ after) : FirstAt pattern text [] after :=
  ⟨h, fun _ => Nat.zero_le _⟩

theorem cons (hn : ¬ pattern <+: c :: text) (h : FirstAt pattern text before after) :
    FirstAt pattern (c :: text) (c :: before) after := by
  refine ⟨congrArg (c :: ·) h.parts, ?_⟩
  intro front back he
  cases front with
  | nil => exact (hn ⟨back, he.symm⟩).elim
  | cons d front => exact Nat.succ_le_succ (h.least (List.cons.inj he).2)

theorem unique {before' after' : List Char} (h : FirstAt pattern text before after)
    (h' : FirstAt pattern text before' after') : before = before' ∧ after = after' := by
  have hl : before.length = before'.length := Nat.le_antisymm (h.least h'.parts) (h'.least h.parts)
  obtain ⟨hb, ht⟩ := List.append_inj (h.parts.symm.trans h'.parts) hl
  exact ⟨hb, List.append_cancel_left ht⟩

/-- An earlier occurrence in a longer text would end before the one in the text does. -/
theorem append (h : FirstAt pattern text before after) (more : List Char) :
    FirstAt pattern (text ++ more) before (after ++ more) := by
  refine ⟨by simp [h.parts], ?_⟩
  intro front back he
  by_contra hlt
  have hp : front ++ pattern <+: text ++ more := ⟨back, by simp [he]⟩
  have hlen : (front ++ pattern).length ≤ text.length := by
    rw [h.parts]
    simp only [List.length_append]
    omega
  obtain ⟨rest, hr⟩ := List.prefix_of_prefix_length_le hp (List.prefix_append text more) hlen
  exact hlt (h.least (by rw [← hr, List.append_assoc]))

end FirstAt

/-- The first occurrence of a single character is the one with no such character before it. -/
theorem firstAt_mark_iff :
    FirstAt [mark] text before after ↔ text = before ++ mark :: after ∧ mark ∉ before := by
  constructor
  · intro h
    refine ⟨h.parts, ?_⟩
    intro hm
    obtain ⟨front, back, hb⟩ := List.append_of_mem hm
    have ht : text = front ++ ([mark] ++ (back ++ mark :: after)) := by simp [h.parts, hb]
    have hle := h.least ht
    rw [hb, List.length_append, List.length_cons] at hle
    omega
  · rintro ⟨rfl, hm⟩
    refine ⟨rfl, ?_⟩
    intro front back he
    by_contra hlt
    rcases List.append_eq_append_iff.mp he with ⟨rest, hf, _⟩ | ⟨rest, hb, hr⟩
    · rw [hf, List.length_append] at hlt
      omega
    · cases rest with
      | nil => simp [hb] at hlt
      | cons d rest =>
        obtain rfl : mark = d := (List.cons.inj hr).1
        exact hm (by simp [hb])

theorem cutAt?_firstAt (h : cutAt? pattern text = some (before, found)) :
    ∃ after, found = pattern ++ after ∧ FirstAt pattern text before after := by
  induction text generalizing before with
  | nil =>
    rw [cutAt?] at h
    split at h
    · rename_i he
      cases h
      obtain rfl : pattern = [] := List.isEmpty_iff.mp he
      exact ⟨[], rfl, .at_front rfl⟩
    · cases h
  | cons c text ih =>
    rw [cutAt?] at h
    split at h
    · rename_i hp
      cases h
      obtain ⟨after, ha⟩ := List.isPrefixOf_iff_prefix.mp hp
      exact ⟨after, ha.symm, .at_front ha.symm⟩
    · rename_i hn
      obtain ⟨⟨front, rest⟩, hc, he⟩ := Option.map_eq_some_iff.mp h
      cases he
      obtain ⟨after, hf, hfirst⟩ := ih hc
      exact ⟨after, hf, hfirst.cons fun hp => hn (List.isPrefixOf_iff_prefix.mpr hp)⟩

/-- The parts of a cut text make it up, and the second begins with the pattern. -/
theorem cutAt?_some (h : cutAt? pattern text = some (before, found)) :
    text = before ++ found ∧ pattern <+: found := by
  obtain ⟨after, rfl, hf⟩ := cutAt?_firstAt h
  exact ⟨hf.parts, List.prefix_append pattern after⟩

theorem cutAt?_eq_none_iff : cutAt? pattern text = none ↔ ¬ pattern <:+: text := by
  induction text with
  | nil => simp [cutAt?]
  | cons c text ih =>
    rw [cutAt?, List.infix_cons_iff, not_or, ← ih, ← List.isPrefixOf_iff_prefix]
    split <;> simp_all

theorem contains_iff : contains pattern text = true ↔ pattern <:+: text := by
  rw [contains, Option.isSome_iff_ne_none, Ne, cutAt?_eq_none_iff, not_not]

/-- A search that does not tell ASCII capitals from small letters. -/
theorem contains_lowerCase_iff : contains pattern (lowerCase text) = true ↔
    ∃ part, part <:+: text ∧ lowerCase part = pattern := by
  rw [contains_iff, lowerCase, List.infix_map_iff]
  simp only [lowerCase, eq_comm]

theorem cutAt?_eq_some_iff : cutAt? pattern text = some (before, found) ↔
    ∃ after, found = pattern ++ after ∧ FirstAt pattern text before after := by
  refine ⟨cutAt?_firstAt, ?_⟩
  rintro ⟨after, rfl, hf⟩
  -- the search finds something, and there is only one first occurrence
  have hi : pattern <:+: text := hf.parts ▸ List.infix_append' before pattern after
  obtain ⟨⟨front, rest⟩, hc⟩ := Option.isSome_iff_exists.mp (contains_iff.mpr hi)
  obtain ⟨back, rfl, hf'⟩ := cutAt?_firstAt hc
  obtain ⟨rfl, rfl⟩ := hf.unique hf'
  exact hc

theorem afterFirst?_eq_some_iff :
    afterFirst? pattern text = some after ↔ ∃ before, FirstAt pattern text before after := by
  rw [afterFirst?]
  constructor
  · intro h
    split at h
    · rename_i before found hc
      obtain ⟨back, rfl, hf⟩ := cutAt?_firstAt hc
      rw [List.drop_left] at h
      cases h
      exact ⟨before, hf⟩
    · cases h
  · rintro ⟨before, hf⟩
    rw [cutAt?_eq_some_iff.mpr ⟨after, rfl, hf⟩]
    simp

/-! Pieces between marks. -/

theorem pieces_eq_splitOn (mark : Char) (text : List Char) :
    pieces mark text = text.splitOn mark := by
  induction text with
  | nil => rfl
  | cons c text ih =>
    rw [pieces, ih, List.splitOn_cons_eq_if_modifyHead]
    cases hs : text.splitOn mark with
    | nil => exact (List.splitOn_ne_nil mark text hs).elim
    | cons piece more => simp

theorem pieces_append :
    pieces mark (front ++ mark :: back) = pieces mark front ++ pieces mark back := by
  simp only [pieces_eq_splitOn, List.splitOn_append_cons_self]

theorem pieces_of_not_mem (h : mark ∉ text) : pieces mark text = [text] := by
  rw [pieces_eq_splitOn, List.splitOn_eq_singleton h]

/-- A piece stands between two marks, or a mark and an end of the text, and has no mark in it. -/
theorem mem_pieces_iff : piece ∈ pieces mark text ↔
    mark ∉ piece ∧ ∃ before after, text = before ++ (piece ++ after) ∧
      (before = [] ∨ [mark] <:+ before) ∧ (after = [] ∨ [mark] <+: after) := by
  constructor
  · intro h
    -- on the length: the pieces but the first are those of the text behind the first mark
    induction hl : text.length using Nat.strong_induction_on generalizing text with
    | _ n ih =>
    subst hl
    by_cases hm : mark ∈ text
    · obtain ⟨line, back, rfl, hline⟩ := List.eq_append_cons_of_mem hm
      rw [pieces_append, pieces_of_not_mem hline, List.singleton_append, List.mem_cons] at h
      rcases h with rfl | h
      · exact ⟨hline, [], mark :: back, rfl, Or.inl rfl, Or.inr ⟨back, rfl⟩⟩
      · obtain ⟨hn, before, after, rfl, hb, ha⟩ := ih back.length (by simp; omega) h rfl
        refine ⟨hn, line ++ mark :: before, after, by simp, Or.inr ?_, ha⟩
        rcases hb with rfl | hb
        · exact List.suffix_append line [mark]
        · exact hb.trans ((List.suffix_cons mark before).trans (List.suffix_append line _))
    · rw [pieces_of_not_mem hm, List.mem_singleton] at h
      subst h
      exact ⟨hm, [], [], by simp, Or.inl rfl, Or.inl rfl⟩
  · rintro ⟨hn, before, after, rfl, hb, ha⟩
    have hfirst : piece ∈ pieces mark (piece ++ after) := by
      rcases ha with rfl | ⟨back, rfl⟩
      · simp [pieces_of_not_mem hn]
      · rw [List.singleton_append, pieces_append, pieces_of_not_mem hn]
        exact List.mem_cons_self
    rcases hb with rfl | ⟨front, rfl⟩
    · exact hfirst
    · rw [List.append_assoc, List.singleton_append, pieces_append]
      exact List.mem_append_right _ hfirst

theorem exists_piece (mark : Char) (text : List Char) :
    ∃ piece after, text = piece ++ after ∧ mark ∉ piece ∧ (after = [] ∨ [mark] <+: after) := by
  by_cases hm : mark ∈ text
  · obtain ⟨piece, rest, rfl, hn⟩ := List.eq_append_cons_of_mem hm
    exact ⟨piece, mark :: rest, rfl, hn, Or.inr ⟨rest, rfl⟩⟩
  · exact ⟨text, [], by simp, hm, Or.inl rfl⟩

/-! Blanks. -/

/-- Nothing but blanks. -/
def Blanks (text : List Char) : Prop := ∀ c ∈ text, isBlank c = true

theorem blanks_nil : Blanks [] := by
  intro c hc
  cases hc

theorem Blanks.append (hf : Blanks front) (hb : Blanks back) : Blanks (front ++ back) := by
  intro c hc
  exact (List.mem_append.mp hc).elim (hf c) (hb c)

theorem Blanks.reverse (h : Blanks text) : Blanks text.reverse :=
  fun c hc => h c (List.mem_reverse.mp hc)

/-- What is left of the text without the blanks at its two ends. -/
structure Trimmed (text core : List Char) : Prop where
  parts : ∃ front back, Blanks front ∧ Blanks back ∧ text = front ++ (core ++ back)
  head : ∀ c, core.head? = some c → isBlank c = false
  last : ∀ c, core.getLast? = some c → isBlank c = false

theorem dropWhile_blanks_append (h : Blanks front) :
    (front ++ text).dropWhile isBlank = text.dropWhile isBlank :=
  List.dropWhile_append_of_pos h

theorem dropWhile_isBlank_eq_self (h : ∀ c, text.head? = some c → isBlank c = false) :
    text.dropWhile isBlank = text := by
  cases text with
  | nil => rfl
  | cons c text => exact List.dropWhile_cons_of_neg (by simp [h c rfl])

theorem exists_blanks (text : List Char) :
    ∃ front, Blanks front ∧ text = front ++ text.dropWhile isBlank :=
  ⟨text.takeWhile isBlank, fun _ => List.mem_takeWhile_imp, List.takeWhile_append_dropWhile.symm⟩

theorem not_isBlank_of_dropWhile (h : (text.dropWhile isBlank).head? = some c) :
    isBlank c = false := by
  have hn := List.head?_dropWhile_not isBlank text
  rwa [h] at hn

theorem trimStart_blanks_cons (h : Blanks front) (hc : isBlank c = false) :
    trimStart (front ++ c :: more) = c :: more := by
  rw [trimStart, dropWhile_blanks_append h]
  exact List.dropWhile_cons_of_neg (by simp [hc])

theorem exists_blanks_of_trimStart (h : trimStart text = c :: more) :
    ∃ front, Blanks front ∧ text = front ++ c :: more := by
  obtain ⟨front, hf, ht⟩ := exists_blanks text
  exact ⟨front, hf, h ▸ ht⟩

theorem trimmed_trim (text : List Char) : Trimmed text (trim text) := by
  obtain ⟨front, hf, ht⟩ := exists_blanks text
  obtain ⟨back, hb, hr⟩ := exists_blanks (trimStart text).reverse
  have hmiddle : trimStart text = trim text ++ back.reverse := by
    rw [← List.reverse_reverse (trimStart text), hr, List.reverse_append]
    rfl
  refine ⟨⟨front, back.reverse, hf, hb.reverse, ?_⟩, ?_, ?_⟩
  · rw [← hmiddle]
    exact ht
  · intro c hc
    have hhead : (trimStart text).head? = some c := by
      rw [hmiddle, List.head?_append, hc]
      rfl
    exact not_isBlank_of_dropWhile hhead
  · intro c hc
    rw [trim, trimEnd, List.getLast?_reverse] at hc
    exact not_isBlank_of_dropWhile hc

theorem trim_eq_iff : trim text = core ↔ Trimmed text core := by
  constructor
  · rintro rfl
    exact trimmed_trim text
  · rintro ⟨⟨front, back, hf, hb, rfl⟩, hhead, hlast⟩
    have hend : trimEnd (core ++ back) = core := by
      rw [trimEnd, List.reverse_append, dropWhile_blanks_append hb.reverse,
        dropWhile_isBlank_eq_self (by simpa using hlast), List.reverse_reverse]
    rw [trim, trimStart, dropWhile_blanks_append hf]
    cases core with
    | nil =>
      rw [List.nil_append, List.dropWhile_eq_nil_iff.mpr hb]
      rfl
    | cons c more =>
      rw [dropWhile_isBlank_eq_self (by simpa using hhead)]
      exact hend

end DocTemplate.Text
