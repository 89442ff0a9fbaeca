import DocTemplate.Proofs.TemplatePieces

/-! Templates cut in two. If no placeholder of a variable stands across the cut, each part is
rendered by itself. -/
namespace DocTemplate

variable {d : Delimiters} {c : Collection} {find? : List Char → Option Substitution}
  {token front back tail : List Char} {key : String}

namespace Text

/-- The token stands across the place where the two texts meet: its first `n` characters end the one
text, and the others, of which there are some, begin the other. -/
def Straddles (token front back : List Char) : Prop :=
  ∃ n < token.length, n ≠ 0 ∧ token.take n <:+ front ∧ token.drop n <+: back

instance (token front back : List Char) : Decidable (Straddles token front back) :=
  inferInstanceAs (Decidable (∃ n < token.length, _))

/-- What begins in the first text and does not reach over its end stands in it. -/
theorem prefix_of_not_straddles (hn : ¬ Straddles token front back) (hne : tail ≠ [])
    (ht : tail <:+ front) (hp : token <+: tail ++ back) : token <+: tail := by
  have hpre : tail <+: tail ++ back := List.prefix_append tail back
  rcases Nat.lt_or_ge tail.length token.length with hlt | hle
  · exfalso
    obtain ⟨finish, rfl⟩ := List.prefix_of_prefix_length_le hpre hp hlt.le
    have hfinish : finish <+: back := (List.prefix_append_right_inj tail).mp hp
    apply hn
    refine ⟨tail.length, hlt, (List.length_pos_iff.mpr hne).ne', ?_, ?_⟩
    · rwa [List.take_left]
    · rwa [List.drop_left]
  · exact List.prefix_of_prefix_length_le hp hpre hle

end Text

/-- Two texts in a row are walked one after the other, if from each place in the first the search
finds the same with the second behind it. So no step goes past the end of the first. -/
theorem walk_append_walk
    (hp : ∀ {text entry}, find? text = some entry → entry.token <+: text)
    (h : ∀ tail, tail ≠ [] → tail <:+ front → find? (tail ++ back) = find? tail) :
    walk find? (front ++ back) =
      ⟨(walk find? front).text ++ (walk find? back).text,
        (walk find? front).replaced + (walk find? back).replaced⟩ := by
  induction front using walk.induct find? with
  | case1 =>
    have hnil : walk find? [] = ⟨[], 0⟩ := by rw [walk]
    simp [hnil]
  | case2 a text entry hf ih =>
    have hrest : text.drop (entry.token.length - 1) <:+ a :: text :=
      (List.drop_suffix _ text).trans (List.suffix_cons a text)
    have hw := ih fun tail hne ht => h tail hne (ht.trans hrest)
    have hboth : find? (a :: (text ++ back)) = some entry :=
      (h (a :: text) (List.cons_ne_nil a text) List.suffix_rfl).trans hf
    -- The token ends in the first text, so what is left of both is what is left of the first.
    have hlen : entry.token.length - 1 ≤ text.length := by
      have hle := (hp hf).length_le
      rw [List.length_cons] at hle
      omega
    rw [List.cons_append, walk, walk, hf, hboth]
    simp only [List.drop_append_of_le_length hlen, hw, List.append_assoc]
    rw [Nat.add_right_comm]
  | case3 a text hf ih =>
    have hw := ih fun tail hne ht => h tail hne (ht.trans (List.suffix_cons a text))
    have hboth : find? (a :: (text ++ back)) = none :=
      (h (a :: text) (List.cons_ne_nil a text) List.suffix_rfl).trans hf
    rw [List.cons_append, walk_copy hboth, walk_copy hf, hw]
    rfl

namespace Delimiters

theorem token?_prefix {text : List Char} {entry : Substitution}
    (h : d.token? c text = some entry) : entry.token <+: text := by
  obtain ⟨⟨key, value⟩, hl, rfl⟩ := Option.map_eq_some_iff.mp h
  exact (longest?_spec hl).2.1

/-- From a place in the first text the same placeholders fit, with the second text behind it or
without, and so the longest of them is the same. -/
theorem token?_append
    (h : ∀ key, c.has key = true → ¬ Text.Straddles (d.placeholder key).toList front back)
    (hne : tail ≠ []) (ht : tail <:+ front) : d.token? c (tail ++ back) = d.token? c tail := by
  have hfit : ∀ entry ∈ c.toList, (d.placeholder entry.1).toList.isPrefixOf (tail ++ back) =
      (d.placeholder entry.1).toList.isPrefixOf tail := by
    rintro ⟨key, value⟩ he
    have hg : c.get? key = some value := Collection.mem_toList_iff.mp he
    have hhas : c.has key = true := Option.isSome_of_eq_some hg
    rw [Bool.eq_iff_iff, List.isPrefixOf_iff_prefix, List.isPrefixOf_iff_prefix]
    constructor
    · intro hp
      exact Text.prefix_of_not_straddles (h key hhas) hne ht hp
    · intro hp
      exact hp.trans (List.prefix_append tail back)
  rw [token?, token?, longest?, longest?, List.filter_congr hfit]

variable {first second : String}

theorem substitute_append
    (h : ∀ key, c.has key = true →
      ¬ Text.Straddles (d.placeholder key).toList first.toList second.toList) :
    d.substitute (first ++ second) c =
      ⟨(d.substitute first c).text ++ (d.substitute second c).text,
        (d.substitute first c).replaced + (d.substitute second c).replaced⟩ := by
  have hw : walk (d.token? c) (first.toList ++ second.toList) =
      ⟨(walk (d.token? c) first.toList).text ++ (walk (d.token? c) second.toList).text,
        (walk (d.token? c) first.toList).replaced +
          (walk (d.token? c) second.toList).replaced⟩ :=
    walk_append_walk token?_prefix fun _ hne ht => token?_append h hne ht
  rw [substitute_eq_plainWalk, substitute_eq_plainWalk, substitute_eq_plainWalk,
    String.toList_append]
  exact hw

/-- If no placeholder of a variable begins in the first part of a template and ends in the second,
the template is rendered as its parts are, one behind the other, and as many placeholders are
replaced in it as in both. -/
theorem render_append
    (h : ∀ key, c.has key = true →
      ¬ Text.Straddles (d.placeholder key).toList first.toList second.toList) :
    ∃ out out', (Strategy.latex d).render first c = .ok out ∧
      (Strategy.latex d).render second c = .ok out' ∧
      (Strategy.latex d).render (first ++ second) c = .ok (out ++ out') ∧
      (d.substitute (first ++ second) c).replaced =
        (d.substitute first c).replaced + (d.substitute second c).replaced := by
  have hs := substitute_append h
  refine ⟨String.ofList (d.substitute first c).text, String.ofList (d.substitute second c).text,
    rfl, rfl, ?_, ?_⟩
  · rw [render_of_substitute hs, String.ofList_append]
  · rw [hs]

/-- The cut goes through an opening mark, and a longer placeholder begins in front of it like the
template but does not stand there. -/
theorem render_append_inside_opening_mark :
    let longer := "a\x7d\x7d\x7b\x7b.b"
    let c := (Collection.empty.set "a" (.string "1")).set longer (.string "2")
    let first := "\x7b\x7b.a\x7d\x7d\x7b"
    let second := "\x7b.c\x7d\x7d\x7b\x7b.a\x7d\x7d"
    (∀ key, c.has key = true →
        ¬ Text.Straddles (standard.placeholder key).toList first.toList second.toList) ∧
      ∃ out out', (Strategy.latex standard).render first c = .ok out ∧
        (Strategy.latex standard).render second c = .ok out' ∧
        (Strategy.latex standard).render (first ++ second) c = .ok (out ++ out') ∧
        (standard.substitute (first ++ second) c).replaced =
          (standard.substitute first c).replaced + (standard.substitute second c).replaced ∧
        out ++ out' = "1\x7b\x7b.c\x7d\x7d1" ∧
        (standard.substitute (first ++ second) c).replaced = 2 := by
  intro longer c first second
  have hc : ∀ key, c.has key = true →
      ¬ Text.Straddles (standard.placeholder key).toList first.toList second.toList := by
    intro key hk
    rcases Collection.has_set.mp hk with rfl | hk
    · decide +kernel
    · rcases Collection.has_set.mp hk with rfl | hk
      · decide +kernel
      · cases hk
  obtain ⟨out, out', hfirst, hsecond, hboth, hn⟩ := render_append hc
  refine ⟨hc, out, out', hfirst, hsecond, hboth, hn, ?_, ?_⟩
  · cases hfirst
    cases hsecond
    decide +kernel
  · decide +kernel

end Delimiters
end DocTemplate
