import DocTemplate.Proofs.Leaves
import DocTemplate.Proofs.PlainWalk

/-! What a template shows of a collection: the texts of those variables whose placeholders stand in
it, and nothing else. -/
namespace DocTemplate

/-- A walk looks for substitutions only in what is left of its text. -/
theorem walk_congr {find? search? : List Char → Option Substitution} {text : List Char}
    (h : ∀ rest, rest <:+ text → find? rest = search? rest) :
    walk find? text = walk search? text := by
  induction text using walk.induct find? with
  | case1 => rw [walk, walk]
  | case2 c text entry hf ih =>
    have hs : search? (c :: text) = some entry := (h _ List.suffix_rfl).symm.trans hf
    have hdrop : text.drop (entry.token.length - 1) <:+ c :: text :=
      (List.drop_suffix _ text).trans (List.suffix_cons c text)
    have hrest := ih fun rest hr => h rest (hr.trans hdrop)
    rw [walk, walk, hf, hs]
    simp only [hrest]
  | case3 c text hf ih =>
    have hs : search? (c :: text) = none := (h _ List.suffix_rfl).symm.trans hf
    have hrest := ih fun rest hr => h rest (hr.trans (List.suffix_cons c text))
    rw [walk_copy hf, walk_copy hs, hrest]

theorem walk_of_none {find? : List Char → Option Substitution} (h : ∀ text, find? text = none)
    (text : List Char) : walk find? text = ⟨text, 0⟩ := by
  induction text with
  | nil => rw [walk]
  | cons c text ih => rw [walk_copy (h _), ih]

namespace Delimiters

variable {d : Delimiters} {c c' : Collection} {text : List Char} {key : String}
  {value : Variable}

theorem longest?_spec (h : d.longest? c text = some (key, value)) :
    c.get? key = some value ∧ (d.placeholder key).toList <+: text ∧
      ∀ entry ∈ c.toList, (d.placeholder entry.1).toList <+: text →
        (d.placeholder entry.1).toList <+: (d.placeholder key).toList := by
  obtain ⟨hin, hp⟩ := List.mem_filter.mp (List.argmax_mem h)
  have hpre : (d.placeholder key).toList <+: text := List.isPrefixOf_iff_prefix.mp hp
  refine ⟨Collection.mem_toList_iff.mp hin, hpre, ?_⟩
  intro entry he hfit
  have hf : entry ∈ c.toList.filter fun entry => (d.placeholder entry.1).toList.isPrefixOf text :=
    List.mem_filter.mpr ⟨he, List.isPrefixOf_iff_prefix.mpr hfit⟩
  have hle := List.le_of_mem_argmax hf h
  exact List.prefix_of_prefix_length_le hfit hpre hle

theorem not_prefix_of_longest?_eq_none (h : d.longest? c text = none)
    (hg : c.get? key = some value) : ¬ (d.placeholder key).toList <+: text := by
  rw [longest?, List.argmax_eq_none, List.filter_eq_nil_iff] at h
  intro hp
  exact h _ (Collection.mem_toList_iff.mpr hg) (List.isPrefixOf_iff_prefix.mpr hp)

/-- Wherever the placeholder of a key stands in a text, the two collections show the same for the
key: one text, or nothing in either. -/
def AgreeOn (d : Delimiters) (text : List Char) (c c' : Collection) : Prop :=
  ∀ key, (d.placeholder key).toList <:+: text →
    (c.get? key).map Variable.format = (c'.get? key).map Variable.format

namespace AgreeOn

theorem symm (h : d.AgreeOn text c c') : d.AgreeOn text c' c :=
  fun key hk => (h key hk).symm

theorem of_suffix {rest : List Char} (h : d.AgreeOn text c c') (hr : rest <:+ text) :
    d.AgreeOn rest c c' :=
  fun key hk => h key (hk.trans hr.isInfix)

theorem get?_eq_some (h : d.AgreeOn text c c') (hp : (d.placeholder key).toList <+: text)
    (hg : c.get? key = some value) :
    ∃ value', c'.get? key = some value' ∧ value'.format = value.format := by
  have hk := h key hp.isInfix
  rw [hg] at hk
  exact Option.map_eq_some_iff.mp hk.symm

/-- The longest placeholder at the front of a text has the same replacement in both collections. A
placeholder that only one of them has does not stand there, so it hides none of the other. -/
theorem longest?_eq (h : d.AgreeOn text c c') :
    (d.longest? c text).map d.substitution = (d.longest? c' text).map d.substitution := by
  cases hl : d.longest? c text with
  | none =>
    cases hl' : d.longest? c' text with
    | none => rfl
    | some found =>
      obtain ⟨hg, hp, _⟩ := longest?_spec hl'
      obtain ⟨value, hv, _⟩ := h.symm.get?_eq_some hp hg
      exact (not_prefix_of_longest?_eq_none hl hv hp).elim
  | some found =>
    obtain ⟨key, value⟩ := found
    obtain ⟨hg, hp, hlong⟩ := longest?_spec hl
    obtain ⟨value', hv, hf⟩ := h.get?_eq_some hp hg
    have hl' : d.longest? c' text = some (key, value') := by
      apply longest?_eq_some (Collection.mem_toList_iff.mpr hv) hp
      rintro ⟨name, shown⟩ he hfit
      obtain ⟨other, ho, _⟩ := h.symm.get?_eq_some hfit (Collection.mem_toList_iff.mp he)
      exact hlong (name, other) (Collection.mem_toList_iff.mpr ho) hfit
    rw [hl', Option.map_some, Option.map_some, substitution, substitution, hf]

theorem substitute_eq {template : String} (h : d.AgreeOn template.toList c c') :
    d.substitute template c = d.substitute template c' := by
  rw [substitute_eq_plainWalk, substitute_eq_plainWalk]
  exact walk_congr fun rest hr => (h.of_suffix hr).longest?_eq

end AgreeOn

theorem substitute_empty (d : Delimiters) (template : String) :
    d.substitute template .empty = ⟨template.toList, 0⟩ := by
  rw [substitute_eq_plainWalk]
  exact walk_of_none (fun _ => rfl) template.toList

theorem render_of_substitute {template : String} {out : List Char} {n : Nat}
    (h : d.substitute template c = ⟨out, n⟩) :
    (Strategy.latex d).render template c = .ok (String.ofList out) := by
  have ht : (d.substitute template c).text = out := by rw [h]
  rw [← ht]
  rfl

/-- A rendered template depends on the variables only through the texts of those whose placeholders
stand in it. Without variables, or with none that has its placeholder in it, it comes out as it
is. -/
theorem render_depends_on_used (d : Delimiters) (template : String) :
    (∀ c c' : Collection,
        (∀ key, (d.placeholder key).toList <:+: template.toList →
          (c.get? key).map Variable.format = (c'.get? key).map Variable.format) →
        (Strategy.latex d).render template c = (Strategy.latex d).render template c' ∧
          (d.substitute template c).replaced = (d.substitute template c').replaced) ∧
      ((Strategy.latex d).render template .empty = .ok template ∧
        (d.substitute template .empty).replaced = 0) ∧
      ∀ c : Collection,
        (∀ key, c.has key = true → ¬ (d.placeholder key).toList <:+: template.toList) →
        (Strategy.latex d).render template c = .ok template ∧
          (d.substitute template c).replaced = 0 := by
  have hunused : ∀ c : Collection,
      (∀ key, c.has key = true → ¬ (d.placeholder key).toList <:+: template.toList) →
      (Strategy.latex d).render template c = .ok template ∧
        (d.substitute template c).replaced = 0 := by
    intro c hc
    have hagree : d.AgreeOn template.toList c .empty := by
      intro key hk
      cases hg : c.get? key with
      | none => rfl
      | some value => exact (hc key (Option.isSome_of_eq_some hg) hk).elim
    have hs := hagree.substitute_eq.trans (substitute_empty d template)
    rw [render_of_substitute hs, hs, String.ofList_toList]
    exact ⟨rfl, rfl⟩
  refine ⟨?_, hunused .empty (fun key hk => by cases hk), hunused⟩
  intro c c' h
  have hs : d.substitute template c = d.substitute template c' := AgreeOn.substitute_eq h
  rw [hs, render_of_substitute hs]
  exact ⟨rfl, rfl⟩

/-- One variable shows the same as a text and as a number, and the placeholder of another begins
like the template and does not stand in it. -/
theorem render_depends_on_used_beside_longer_key :
    let template := "\x7b\x7b.a\x7d\x7d \x7b\x7b.b\x7d\x7d"
    let longer := "a\x7d\x7d \x7b\x7b.c"
    let c := Collection.empty.set "a" (.string "1.00")
    let c' := (Collection.empty.set "a" (.number (.ofInt 1))).set longer (.string "x")
    let unused := Collection.empty.set longer (.string "x")
    (∀ key, (standard.placeholder key).toList <:+: template.toList →
        (c.get? key).map Variable.format = (c'.get? key).map Variable.format) ∧
      ((Strategy.latex standard).render template c =
          (Strategy.latex standard).render template c' ∧
        (standard.substitute template c).replaced =
          (standard.substitute template c').replaced) ∧
      (∀ key, unused.has key = true →
        ¬ (standard.placeholder key).toList <:+: template.toList) ∧
      (Strategy.latex standard).render template unused = .ok template ∧
        (standard.substitute template unused).replaced = 0 := by
  intro template longer c c' unused
  have hlonger : ¬ (standard.placeholder longer).toList <:+: template.toList := by
    decide +kernel
  have hagree : ∀ key, (standard.placeholder key).toList <:+: template.toList →
      (c.get? key).map Variable.format = (c'.get? key).map Variable.format := by
    intro key hk
    have hl : key ≠ longer := by
      rintro rfl
      exact hlonger hk
    have hone : (Variable.string "1.00").format = (Variable.number (.ofInt 1)).format := rfl
    by_cases ha : key = "a"
    · subst ha
      simp [c, c', hl, hone]
    · simp [c, c', ha, hl]
  have hunused : ∀ key, unused.has key = true →
      ¬ (standard.placeholder key).toList <:+: template.toList := by
    intro key hk
    rcases Collection.has_set.mp hk with rfl | hk
    · exact hlonger
    · cases hk
  obtain ⟨hsame, _, hplain⟩ := render_depends_on_used standard template
  exact ⟨hagree, hsame c c' hagree, hunused, hplain unused hunused⟩

end Delimiters
end DocTemplate
