import DocTemplate.Proofs.UsedVariables

/-! Templates put together from literal texts and placeholders. If the marks share no character, a
token is found only where a placeholder was put, and only the token of its key. -/
namespace DocTemplate

variable {d : Delimiters} {c : Collection} {find? : List Char → Option Substitution}
  {left right front rest : List Char} {key : String} {value : Variable}

namespace Text

/-- A text that begins with `left` has only characters of `left` that far. -/
theorem not_prefix_of_stranger {a : Char} (hlt : front.length < left.length) (ha : a ∉ left) :
    ¬ left <+: front ++ a :: rest := by
  rintro ⟨tail, ht⟩
  rcases List.append_eq_append_iff.mp ht with ⟨more, hf, _⟩ | ⟨more, hl, hm⟩
  · have hlen := congrArg List.length hf
    rw [List.length_append] at hlen
    omega
  · cases more with
    | nil =>
      have hlen := congrArg List.length hl
      rw [List.append_nil] at hlen
      omega
    | cons b more =>
      cases hm
      apply ha
      rw [hl]
      simp

/-- Two texts without characters of `right` are the same if `right` ends both at one place. -/
theorem eq_of_append_prefix {a b : List Char} (hne : right ≠ []) (ha : a.Disjoint right)
    (hb : b.Disjoint right) (h : a ++ right <+: b ++ right ++ rest) : a = b := by
  induction a generalizing b with
  | nil =>
    cases b with
    | nil => rfl
    | cons y b =>
      have hy : y ∉ right := hb List.mem_cons_self
      have hp : ¬ right <+: [] ++ y :: (b ++ right ++ rest) :=
        not_prefix_of_stranger (List.length_pos_iff.mpr hne) hy
      exact (hp h).elim
  | cons x a ih =>
    have hx : x ∉ right := ha List.mem_cons_self
    cases b with
    | nil =>
      obtain ⟨mark, more, rfl⟩ := List.exists_cons_of_ne_nil hne
      have he : x = mark := (List.cons_prefix_cons.mp h).1
      exact (hx (he ▸ List.mem_cons_self)).elim
    | cons y b =>
      obtain ⟨rfl, ht⟩ := List.cons_prefix_cons.mp h
      rw [ih (fun _ hm => ha (List.mem_cons_of_mem x hm))
        (fun _ hm => hb (List.mem_cons_of_mem x hm)) ht]

end Text

instance decidableDisjoint (a b : List Char) : Decidable (a.Disjoint b) :=
  decidable_of_iff (a.all (fun x => !b.contains x) = true) (by simp [List.disjoint_left])

/-- A part of a template. -/
inductive Piece where
  | literal (text : String)
  | placeholder (key : String)

namespace Piece

/-- What stands in the template for the piece. -/
def written (d : Delimiters) : Piece → String
  | .literal text => text
  | .placeholder key => d.placeholder key

/-- What stands in the rendered template for the piece. -/
def shown (d : Delimiters) (c : Collection) : Piece → String
  | .literal text => text
  | .placeholder key => ((c.get? key).map Variable.format).getD (d.placeholder key)

def isReplaced (c : Collection) : Piece → Bool
  | .literal _ => false
  | .placeholder key => c.has key

/-- A literal text keeps clear of the opening mark, the key of a placeholder of both marks. -/
def KeepsClear (d : Delimiters) : Piece → Prop
  | .literal text => text.toList.Disjoint d.left.toList
  | .placeholder key => key.toList.Disjoint d.left.toList ∧ key.toList.Disjoint d.right.toList

instance (d : Delimiters) : (piece : Piece) → Decidable (piece.KeepsClear d)
  | .literal text => inferInstanceAs (Decidable (text.toList.Disjoint _))
  | .placeholder key =>
    inferInstanceAs (Decidable (key.toList.Disjoint _ ∧ key.toList.Disjoint _))

end Piece

/-- The text is copied as far as nothing is found in it. -/
theorem walk_append (h : ∀ tail, tail ≠ [] → tail <:+ front → find? (tail ++ rest) = none) :
    walk find? (front ++ rest) =
      ⟨front ++ (walk find? rest).text, (walk find? rest).replaced⟩ := by
  induction front with
  | nil => rfl
  | cons a front ih =>
    have hf : find? (a :: (front ++ rest)) = none := h (a :: front) (by simp) List.suffix_rfl
    have hw := ih fun tail hne ht => h tail hne (ht.trans (List.suffix_cons a front))
    rw [List.cons_append, walk_copy hf, hw]
    rfl

namespace Delimiters

/-- The marks share no character, and none of the opening mark is the dot behind it. -/
structure Distinct (d : Delimiters) : Prop where
  disjoint : d.left.toList.Disjoint d.right.toList
  dot_not_mem : '.' ∉ d.left.toList

theorem placeholder_toList (d : Delimiters) (key : String) :
    (d.placeholder key).toList = d.left.toList ++ '.' :: (key.toList ++ d.right.toList) := by
  simp [placeholder]

/-- What replaces the token at the front of a text, in the collection `c`. -/
def token? (d : Delimiters) (c : Collection) (text : List Char) : Option Substitution :=
  (d.longest? c text).map d.substitution

theorem token?_eq_none {text : List Char} (h : ¬ d.left.toList <+: text) :
    d.token? c text = none := by
  cases hl : d.longest? c text with
  | none => rw [token?, hl]; rfl
  | some entry =>
    have hp := (longest?_spec hl).2.1
    exact (h ((left_prefix_placeholder d entry.1).trans hp)).elim

/-- No token begins in a text without characters of the opening mark. -/
theorem walk_literal (h : front.Disjoint d.left.toList) :
    walk (d.token? c) (front ++ rest) =
      ⟨front ++ (walk (d.token? c) rest).text, (walk (d.token? c) rest).replaced⟩ := by
  apply walk_append
  intro tail hne ht
  obtain ⟨a, tail, rfl⟩ := List.exists_cons_of_ne_nil hne
  have ha : a ∉ d.left.toList := h (ht.subset List.mem_cons_self)
  have hpos : ([] : List Char).length < d.left.toList.length :=
    List.length_pos_iff.mpr d.left_ne_nil
  exact token?_eq_none (Text.not_prefix_of_stranger hpos ha)

/-- Behind the first character of a placeholder the opening mark stands nowhere in it: the dot comes
too early for one that begins in the mark, and behind the dot there is no character of it. -/
theorem walk_behind (hd : d.Distinct) (hk : key.toList.Disjoint d.left.toList) {a : Char}
    {mark : List Char} (hm : d.left.toList = a :: mark) :
    walk (d.token? c) (mark ++ '.' :: (key.toList ++ d.right.toList) ++ rest) =
      ⟨mark ++ '.' :: (key.toList ++ d.right.toList) ++ (walk (d.token? c) rest).text,
        (walk (d.token? c) rest).replaced⟩ := by
  have hbody : ('.' :: (key.toList ++ d.right.toList)).Disjoint d.left.toList := by
    intro b hb hl
    rcases List.mem_cons.mp hb with rfl | hb
    · exact hd.dot_not_mem hl
    · rcases List.mem_append.mp hb with hb | hb
      · exact hk hb hl
      · exact hd.disjoint hl hb
  have hmark : walk (d.token? c) (mark ++ ('.' :: (key.toList ++ d.right.toList) ++ rest)) =
      ⟨mark ++ (walk (d.token? c) ('.' :: (key.toList ++ d.right.toList) ++ rest)).text,
        (walk (d.token? c) ('.' :: (key.toList ++ d.right.toList) ++ rest)).replaced⟩ := by
    apply walk_append
    intro tail _ ht
    have hlt : tail.length < d.left.toList.length := by
      have hle := ht.length_le
      rw [hm, List.length_cons]
      omega
    exact token?_eq_none (Text.not_prefix_of_stranger hlt hd.dot_not_mem)
  rw [List.append_assoc, hmark, walk_literal hbody]
  simp

/-- Of all keys, only that of the placeholder has its token there. -/
theorem key_eq_of_prefix {name : String} (hn : name.toList.Disjoint d.right.toList)
    (hk : key.toList.Disjoint d.right.toList)
    (h : (d.placeholder name).toList <+: (d.placeholder key).toList ++ rest) : name = key := by
  have hright : d.right.toList ≠ [] := fun he => d.right_ne (String.toList_eq_nil_iff.mp he)
  rw [placeholder_toList, placeholder_toList, List.append_assoc, List.prefix_append_right_inj,
    List.cons_append, List.cons_prefix_cons] at h
  exact String.toList_injective (Text.eq_of_append_prefix hright hn hk h.2)

section
variable (hc : ∀ name, c.has name = true → name.toList.Disjoint d.right.toList)
include hc

theorem token?_placeholder (hk : key.toList.Disjoint d.right.toList) :
    d.token? c ((d.placeholder key).toList ++ rest) =
      (c.get? key).map fun value => d.substitution (key, value) := by
  have honly : ∀ name value, c.get? name = some value →
      (d.placeholder name).toList <+: (d.placeholder key).toList ++ rest → name = key :=
    fun name value hg hp => key_eq_of_prefix (hc name (Option.isSome_of_eq_some hg)) hk hp
  cases hg : c.get? key with
  | some value =>
    have hl : d.longest? c ((d.placeholder key).toList ++ rest) = some (key, value) := by
      apply longest?_eq_some (Collection.mem_toList_iff.mpr hg) (List.prefix_append _ _)
      rintro ⟨name, other⟩ hm hp
      obtain rfl : name = key := honly name other (Collection.mem_toList_iff.mp hm) hp
      exact List.prefix_rfl
    exact congrArg (Option.map d.substitution) hl
  | none =>
    cases hl : d.longest? c ((d.placeholder key).toList ++ rest) with
    | none => rw [token?, hl]; rfl
    | some entry =>
      obtain ⟨ht, hp, _⟩ := longest?_spec hl
      rw [honly entry.1 entry.2 ht hp, hg] at ht
      cases ht

/-- A step of the walk over whole pieces. -/
theorem walk_piece (hd : d.Distinct) {piece : Piece} (hp : piece.KeepsClear d) :
    walk (d.token? c) ((piece.written d).toList ++ rest) =
      ⟨(piece.shown d c).toList ++ (walk (d.token? c) rest).text,
        (walk (d.token? c) rest).replaced + if piece.isReplaced c then 1 else 0⟩ := by
  cases piece with
  | literal text => exact walk_literal hp
  | placeholder key =>
    obtain ⟨hleft, hright⟩ := hp
    have ht : d.token? c ((d.placeholder key).toList ++ rest) =
        (c.get? key).map fun value => d.substitution (key, value) :=
      token?_placeholder hc hright
    cases hg : c.get? key with
    | some value =>
      rw [hg] at ht
      have hne : (d.substitution (key, value)).token ≠ [] := by
        simp [substitution, placeholder_toList]
      have hw := walk_replace hne (List.prefix_append _ rest) ht
      rw [substitution, List.drop_left] at hw
      simp [Piece.written, Piece.shown, Piece.isReplaced, Collection.has_eq_isSome, hg, hw]
    | none =>
      rw [hg] at ht
      obtain ⟨a, mark, hm⟩ := List.exists_cons_of_ne_nil d.left_ne_nil
      have hplace : (d.placeholder key).toList =
          a :: (mark ++ '.' :: (key.toList ++ d.right.toList)) := by
        rw [placeholder_toList, hm, List.cons_append]
      rw [hplace, List.cons_append] at ht
      simp only [Piece.written, hplace, List.cons_append]
      rw [walk_copy ht, walk_behind hd hleft hm]
      simp [Piece.shown, Piece.isReplaced, Collection.has_eq_isSome, hg, hplace]

/-- The walk over a template that is put together from pieces. -/
theorem walk_pieces (hd : d.Distinct) {pieces : List Piece}
    (hp : ∀ piece ∈ pieces, piece.KeepsClear d) :
    walk (d.token? c) (String.join (pieces.map (Piece.written d))).toList =
      ⟨(String.join (pieces.map (Piece.shown d c))).toList,
        pieces.countP (Piece.isReplaced c)⟩ := by
  induction pieces with
  | nil =>
    have hnil : walk (d.token? c) [] = ⟨[], 0⟩ := by rw [walk]
    exact hnil
  | cons piece pieces ih =>
    obtain ⟨hfirst, hp⟩ := List.forall_mem_cons.mp hp
    rw [List.map_cons, String.join_cons, String.toList_append, walk_piece hc hd hfirst, ih hp,
      List.countP_cons, List.map_cons, String.join_cons, String.toList_append]

/-- A template put together from literal texts and placeholders is rendered piece by piece: a
literal text as it is, a placeholder as the text of its variable, and one without a variable as it
is. The placeholders that have a variable are counted. -/
theorem render_pieces (hd : d.Distinct) {pieces : List Piece}
    (hp : ∀ piece ∈ pieces, piece.KeepsClear d) :
    (Strategy.latex d).render (String.join (pieces.map (Piece.written d))) c =
        .ok (String.join (pieces.map (Piece.shown d c))) ∧
      (d.substitute (String.join (pieces.map (Piece.written d))) c).replaced =
        pieces.countP (Piece.isReplaced c) := by
  have hs : d.substitute (String.join (pieces.map (Piece.written d))) c =
      ⟨(String.join (pieces.map (Piece.shown d c))).toList,
        pieces.countP (Piece.isReplaced c)⟩ :=
    (substitute_eq_plainWalk d c _).trans (walk_pieces hc hd hp)
  rw [render_of_substitute hs, hs, String.ofList_toList]
  exact ⟨rfl, rfl⟩

end

/-- Two placeholders side by side, of which the second has no variable, between texts with closing
marks, and a variable that has the opening mark in its name. -/
theorem render_pieces_beside_unknown_key :
    let c := (Collection.empty.set "user.name" (.string "Ann")).set "b\x7b\x7b.c" .null
    let pieces : List Piece := [.literal "\x7d\x7d ", .placeholder "user.name", .placeholder "b",
      .literal "", .placeholder "user.name", .literal "\x7d"]
    let template := "\x7d\x7d \x7b\x7b.user.name\x7d\x7d\x7b\x7b.b\x7d\x7d" ++
      "\x7b\x7b.user.name\x7d\x7d\x7d"
    standard.Distinct ∧
      (∀ name, c.has name = true → name.toList.Disjoint standard.right.toList) ∧
      (∀ piece ∈ pieces, piece.KeepsClear standard) ∧
      (Strategy.latex standard).render template c =
        .ok "\x7d\x7d Ann\x7b\x7b.b\x7d\x7dAnn\x7d" ∧
      (standard.substitute template c).replaced = 2 := by
  intro c pieces template
  have hd : standard.Distinct := ⟨by decide, by decide⟩
  have hc : ∀ name, c.has name = true → name.toList.Disjoint standard.right.toList := by
    intro name hn
    obtain ⟨value, hv⟩ := Option.isSome_iff_exists.mp hn
    have hm : (name, value) ∈ c.toList := Collection.mem_toList_iff.mpr hv
    have hl : c.toList = [("b\x7b\x7b.c", .null), ("user.name", .string "Ann")] := rfl
    rw [hl] at hm
    rcases List.mem_cons.mp hm with he | hm
    · cases he
      decide
    · cases List.mem_singleton.mp hm
      decide
  have hp : ∀ piece ∈ pieces, piece.KeepsClear standard := by decide
  have hw : String.join (pieces.map (Piece.written standard)) = template := by decide +kernel
  have hs : String.join (pieces.map (Piece.shown standard c)) =
      "\x7d\x7d Ann\x7b\x7b.b\x7d\x7dAnn\x7d" := by decide +kernel
  have hn : pieces.countP (Piece.isReplaced c) = 2 := by decide +kernel
  obtain ⟨hr, ht⟩ := render_pieces hc hd hp
  rw [hw, hs] at hr
  rw [hw, hn] at ht
  exact ⟨hd, hc, hp, hr, ht⟩

end Delimiters
end DocTemplate
