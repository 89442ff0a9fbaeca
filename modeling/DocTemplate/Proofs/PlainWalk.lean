import DocTemplate.Proofs.Collections
import DocTemplate.Proofs.LongestToken
import DocTemplate.Proofs.TextSearch
import DocTemplate.Template.Strategy
import Mathlib.Data.List.MinMax

/-! The pass over a template against the plain walk, which looks at every character. The pass jumps
from one opening mark to the next; between them no token begins. -/
namespace DocTemplate

/-- Takes a text character by character. Where a substitution is found its replacement is put down
and the walk goes on behind its token, elsewhere the character is copied. -/
def walk (find? : List Char → Option Substitution) : List Char → Rendered
  | [] => ⟨[], 0⟩
  | c :: text =>
    match find? (c :: text) with
    | some entry =>
      let after := walk find? (text.drop (entry.token.length - 1))
      ⟨entry.replacement ++ after.text, after.replaced + 1⟩
    | none =>
      let after := walk find? text
      ⟨c :: after.text, after.replaced⟩
termination_by text => text.length

/-- What is found stands at the front of the text and begins with the opening mark. -/
structure Opening (left : List Char) (find? : List Char → Option Substitution) : Prop where
  token_prefix {text : List Char} {entry : Substitution} :
    find? text = some entry → entry.token <+: text
  left_prefix {text : List Char} {entry : Substitution} :
    find? text = some entry → left <+: entry.token

variable {find? : List Char → Option Substitution} {left text before found : List Char}
  {table : SubstitutionTable} {entry : Substitution} {c : Char}

theorem Opening.find?_eq_none (ho : Opening left find?) (h : ¬ left.isPrefixOf text = true) :
    find? text = none := by
  by_contra hs
  obtain ⟨entry, hs⟩ := Option.ne_none_iff_exists'.mp hs
  exact h (List.isPrefixOf_iff_prefix.mpr ((ho.left_prefix hs).trans (ho.token_prefix hs)))

theorem Opening.token_ne_nil (ho : Opening left find?) (hl : left ≠ [])
    (h : find? text = some entry) : entry.token ≠ [] := by
  intro he
  have hp := ho.left_prefix h
  rw [he] at hp
  exact hl (List.prefix_nil.mp hp)

theorem walk_copy (h : find? (c :: text) = none) :
    walk find? (c :: text) = ⟨c :: (walk find? text).text, (walk find? text).replaced⟩ := by
  rw [walk, h]

theorem walk_replace (hne : entry.token ≠ []) (hp : entry.token <+: text)
    (h : find? text = some entry) :
    walk find? text =
      ⟨entry.replacement ++ (walk find? (text.drop entry.token.length)).text,
        (walk find? (text.drop entry.token.length)).replaced + 1⟩ := by
  obtain ⟨first, token, ht⟩ := List.exists_cons_of_ne_nil hne
  obtain ⟨rest, rfl⟩ := hp
  rw [ht, List.cons_append] at h ⊢
  rw [walk, h]
  simp [ht]

/-- The text in front of the first opening mark is copied. -/
theorem walk_of_cutAt?_some (ho : Opening left find?)
    (h : Text.cutAt? left text = some (before, found)) :
    walk find? text = ⟨before ++ (walk find? found).text, (walk find? found).replaced⟩ := by
  induction text generalizing before with
  | nil =>
    rw [Text.cutAt?] at h
    split at h
    · cases h
      rw [walk]
      rfl
    · cases h
  | cons c text ih =>
    rw [Text.cutAt?] at h
    split at h
    · cases h
      rfl
    · rename_i hn
      obtain ⟨⟨front, rest⟩, hc, he⟩ := Option.map_eq_some_iff.mp h
      cases he
      rw [walk_copy (ho.find?_eq_none hn), ih hc]
      rfl

theorem walk_of_cutAt?_none (ho : Opening left find?) (h : Text.cutAt? left text = none) :
    walk find? text = ⟨text, 0⟩ := by
  induction text with
  | nil => rw [walk]
  | cons c text ih =>
    rw [Text.cutAt?] at h
    split at h
    · cases h
    · rename_i hn
      rw [walk_copy (ho.find?_eq_none hn), ih (Option.map_eq_none_iff.mp h)]

namespace Cursor

variable {cursor : Cursor} {advance : Advance} {fuel : Nat} {rest : List Char}

theorem advance?_of_cutAt?_none (hc : Text.cutAt? left cursor.rest = none) :
    cursor.advance? table left = none := by
  rw [advance?, hc]

theorem advance?_replace (hc : Text.cutAt? left cursor.rest = some (before, found))
    (hm : table.match? found = some entry) :
    cursor.advance? table left =
      some ⟨before ++ entry.replacement, 1,
        ⟨cursor.position + Text.byteSize before + Text.byteSize entry.token,
          found.drop entry.token.length⟩⟩ := by
  simp only [advance?, hc, hm]

theorem advance?_copy (hc : Text.cutAt? left cursor.rest = some (before, c :: rest))
    (hm : table.match? (c :: rest) = none) :
    cursor.advance? table left =
      some ⟨before ++ [c], 0, ⟨cursor.position + Text.byteSize before + c.utf8Size, rest⟩⟩ := by
  simp only [advance?, hc, hm]

/-- All that one step can be: the longest token at the next mark is replaced, or one character there
is copied. -/
theorem advance?_cases (hl : left ≠ []) (h : cursor.advance? table left = some advance) :
    ∃ before found, Text.cutAt? left cursor.rest = some (before, found) ∧
      ((∃ entry, table.match? found = some entry ∧
          advance = ⟨before ++ entry.replacement, 1,
            ⟨cursor.position + Text.byteSize before + Text.byteSize entry.token,
              found.drop entry.token.length⟩⟩) ∨
        ∃ c rest, found = c :: rest ∧ table.match? found = none ∧
          advance = ⟨before ++ [c], 0,
            ⟨cursor.position + Text.byteSize before + c.utf8Size, rest⟩⟩) := by
  cases hc : Text.cutAt? left cursor.rest with
  | none =>
    rw [advance?_of_cutAt?_none hc] at h
    cases h
  | some cut =>
    obtain ⟨before, found⟩ := cut
    refine ⟨before, found, rfl, ?_⟩
    cases found with
    | nil => exact (hl (List.prefix_nil.mp (Text.cutAt?_some hc).2)).elim
    | cons c rest =>
      cases hm : table.match? (c :: rest) with
      | some entry =>
        rw [advance?_replace hc hm] at h
        cases h
        exact Or.inl ⟨entry, rfl, rfl⟩
      | none =>
        rw [advance?_copy hc hm] at h
        cases h
        exact Or.inr ⟨c, rest, rfl, rfl, rfl⟩

theorem run_end (h : cursor.advance? table left = none) :
    run table left (fuel + 1) cursor = ⟨cursor.rest, 0⟩ := by
  rw [run, h]

theorem run_advance (h : cursor.advance? table left = some advance) :
    run table left (fuel + 1) cursor =
      ⟨advance.emitted ++ (run table left fuel advance.next).text,
        advance.replaced + (run table left fuel advance.next).replaced⟩ := by
  rw [run, h]

/-- The pass ends where no opening mark is left. -/
theorem walk_end (ho : Opening left table.match?) (h : cursor.advance? table left = none) :
    walk table.match? cursor.rest = ⟨cursor.rest, 0⟩ := by
  cases hc : Text.cutAt? left cursor.rest with
  | none => exact walk_of_cutAt?_none ho hc
  | some cut =>
    simp only [advance?, hc] at h
    split at h <;> cases h

/-- One step of the pass is several steps of the walk, and leaves less text. -/
theorem walk_advance (hl : left ≠ []) (ho : Opening left table.match?)
    (h : cursor.advance? table left = some advance) :
    walk table.match? cursor.rest =
        ⟨advance.emitted ++ (walk table.match? advance.next.rest).text,
          advance.replaced + (walk table.match? advance.next.rest).replaced⟩ ∧
      advance.next.rest.length < cursor.rest.length := by
  obtain ⟨before, found, hc, hstep⟩ := advance?_cases hl h
  rw [walk_of_cutAt?_some ho hc, (Text.cutAt?_some hc).1, List.length_append]
  rcases hstep with ⟨entry, hm, rfl⟩ | ⟨c, rest, rfl, hm, rfl⟩
  · have hne := ho.token_ne_nil hl hm
    have hle := (ho.token_prefix hm).length_le
    have hpos : 0 < entry.token.length := List.length_pos_iff.mpr hne
    rw [walk_replace hne (ho.token_prefix hm) hm, List.length_drop]
    refine ⟨?_, by omega⟩
    rw [List.append_assoc, Nat.add_comm 1]
  · have hlt : rest.length < before.length + (rest.length + 1) := by omega
    rw [walk_copy hm, List.length_cons]
    refine ⟨?_, hlt⟩
    rw [List.append_assoc, Nat.zero_add]
    rfl

/-- The pass and the walk do the same, if there is fuel for every character. -/
theorem run_eq_walk (hl : left ≠ []) (ho : Opening left table.match?)
    (hf : cursor.rest.length ≤ fuel) :
    run table left fuel cursor = walk table.match? cursor.rest := by
  induction fuel generalizing cursor with
  | zero =>
    have hr : cursor.rest = [] := List.length_eq_zero_iff.mp (Nat.le_zero.mp hf)
    rw [run, hr, walk]
  | succ fuel ih =>
    cases ha : cursor.advance? table left with
    | none => rw [run_end ha, walk_end ho ha]
    | some advance =>
      obtain ⟨hw, hlt⟩ := walk_advance hl ho ha
      rw [run_advance ha, hw, ih (by omega)]

end Cursor

namespace SubstitutionTable

variable {given : List Substitution}

theorem opening_ofList (h : ∀ entry ∈ given, left <+: entry.token) :
    Opening left (ofList given).match? where
  token_prefix hm := (match?_longest hm).2.1
  left_prefix hm := h _ (match?_longest hm).1

theorem substitute_eq_walk (hl : left ≠ []) (h : ∀ entry ∈ given, left <+: entry.token)
    (template : List Char) :
    (ofList given).substitute left template = walk (ofList given).match? template :=
  Cursor.run_eq_walk hl (opening_ofList h) (Text.length_le_byteSize template)

end SubstitutionTable

namespace Delimiters

variable {d : Delimiters} {c : Collection}

/-- What stands for a variable, and what replaces it. -/
def substitution (d : Delimiters) (entry : String × Variable) : Substitution :=
  ⟨(d.placeholder entry.1).toList, entry.2.format.toList⟩

/-- The variable with the longest placeholder that the text begins with. -/
def longest? (d : Delimiters) (c : Collection) (text : List Char) : Option (String × Variable) :=
  (c.toList.filter fun entry => (d.placeholder entry.1).toList.isPrefixOf text).argmax fun entry =>
    (d.placeholder entry.1).toList.length

/-- The plain way to render: at every character the longest placeholder of a variable that begins
there is replaced, and if none does, the character is copied. -/
def plainWalk (d : Delimiters) (c : Collection) (template : List Char) : Rendered :=
  walk (fun text => (d.longest? c text).map d.substitution) template

theorem table_eq : d.table c = .ofList (c.toList.map d.substitution) := rfl

theorem placeholder_injective {a b : String} (h : d.placeholder a = d.placeholder b) : a = b := by
  rw [placeholder, placeholder, String.append_left_inj, String.append_right_inj] at h
  exact h

theorem left_prefix_placeholder (d : Delimiters) (key : String) :
    d.left.toList <+: (d.placeholder key).toList := by
  rw [placeholder, String.toList_append, String.toList_append, String.toList_append,
    List.append_assoc, List.append_assoc]
  exact List.prefix_append _ _

theorem longest?_eq_some {text : List Char} {key : String} {value : Variable}
    (hin : (key, value) ∈ c.toList) (hp : (d.placeholder key).toList <+: text)
    (hlong : ∀ other ∈ c.toList, (d.placeholder other.1).toList <+: text →
      (d.placeholder other.1).toList <+: (d.placeholder key).toList) :
    d.longest? c text = some (key, value) := by
  have hf : (key, value) ∈ c.toList.filter fun entry =>
      (d.placeholder entry.1).toList.isPrefixOf text :=
    List.mem_filter.mpr ⟨hin, List.isPrefixOf_iff_prefix.mpr hp⟩
  cases hm : d.longest? c text with
  | none =>
    rw [longest?, List.argmax_eq_none] at hm
    rw [hm] at hf
    cases hf
  | some best =>
    obtain ⟨name, found⟩ := best
    obtain ⟨hb, hbp⟩ := List.mem_filter.mp (List.argmax_mem hm)
    have hle := List.le_of_mem_argmax hf hm
    have hpre := hlong _ hb (List.isPrefixOf_iff_prefix.mp hbp)
    -- Two placeholders of one length at the front of one text are the same.
    have hk : name = key :=
      placeholder_injective (String.toList_injective (hpre.eq_of_length_le hle))
    subst name
    have hv : some found = some value :=
      (Collection.mem_toList_iff.mp hb).symm.trans (Collection.mem_toList_iff.mp hin)
    rw [Option.some.inj hv]

/-- The first token of the table that fits is the longest placeholder that does. -/
theorem match?_eq_longest? (d : Delimiters) (c : Collection) (text : List Char) :
    (d.table c).match? text = (d.longest? c text).map d.substitution := by
  rw [table_eq]
  cases hm : (SubstitutionTable.ofList (c.toList.map d.substitution)).match? text with
  | none =>
    rw [SubstitutionTable.match?_eq_none_iff] at hm
    have hf : (c.toList.filter fun entry =>
        (d.placeholder entry.1).toList.isPrefixOf text) = [] := by
      rw [List.filter_eq_nil_iff]
      intro entry he hp
      exact hm _ (List.mem_map_of_mem he) (List.isPrefixOf_iff_prefix.mp hp)
    rw [longest?, hf]
    rfl
  | some found =>
    obtain ⟨hin, hp, hlong⟩ := SubstitutionTable.match?_longest hm
    obtain ⟨⟨key, value⟩, he, rfl⟩ := List.mem_map.mp hin
    have hb : d.longest? c text = some (key, value) := by
      apply longest?_eq_some he hp
      intro other ho hop
      exact hlong _ (List.mem_map_of_mem ho) hop
    rw [hb]
    rfl

theorem left_ne_nil (d : Delimiters) : d.left.toList ≠ [] := by
  intro h
  exact d.left_ne (String.toList_eq_nil_iff.mp h)

/-- Every token of a table of placeholders begins with the opening mark. -/
theorem left_prefix_of_mem {entry : Substitution} (h : entry ∈ c.toList.map d.substitution) :
    d.left.toList <+: entry.token := by
  obtain ⟨⟨key, value⟩, _, rfl⟩ := List.mem_map.mp h
  exact left_prefix_placeholder d key

theorem opening_table (d : Delimiters) (c : Collection) :
    Opening d.left.toList (d.table c).match? := by
  rw [table_eq]
  exact SubstitutionTable.opening_ofList fun entry he => left_prefix_of_mem he

theorem substitute_eq_plainWalk (d : Delimiters) (c : Collection) (template : String) :
    d.substitute template c = d.plainWalk c template.toList := by
  have hf : (d.table c).match? = fun text => (d.longest? c text).map d.substitution :=
    funext (match?_eq_longest? d c)
  rw [substitute, plainWalk, ← hf, table_eq]
  exact SubstitutionTable.substitute_eq_walk d.left_ne_nil
    (fun entry he => left_prefix_of_mem he) template.toList

/-- Rendering never fails. Its text and the number of placeholders that it replaces are those of the
plain walk, which tries every placeholder at every character. -/
theorem render_eq_plainWalk (d : Delimiters) (c : Collection) (template : String) :
    (Strategy.latex d).render template c =
        .ok (String.ofList (d.plainWalk c template.toList).text) ∧
      (d.substitute template c).replaced = (d.plainWalk c template.toList).replaced := by
  have hs := substitute_eq_plainWalk d c template
  constructor
  · rw [← hs]
    rfl
  · rw [hs]

/-- The mark begins one character later than it first seems to. -/
example : (standard.substitute "\x7b\x7b\x7b.a\x7d\x7d\x7d" (.ofList [("a", .string "1")])).text =
    "\x7b1\x7d".toList := rfl

end Delimiters
end DocTemplate
