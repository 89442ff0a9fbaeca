import DocTemplate.Proofs.NestedReads

/-! Which value stays when several leaves have one dotted name. Later leaves overwrite earlier ones,
and of two keys that both begin the name the longer one comes later. -/
namespace DocTemplate

namespace Text

/-- The ways to cut a text at a mark, from the one with the longest part in front to the one with
the shortest. -/
def cutsAt (mark : Char) : List Char → List (List Char × List Char)
  | [] => []
  | c :: text =>
    (cutsAt mark text).map (fun cut => (c :: cut.1, cut.2)) ++ if c = mark then [([], text)] else []

theorem mem_cutsAt {mark : Char} {front back text : List Char} :
    (front, back) ∈ cutsAt mark text ↔ text = front ++ mark :: back := by
  induction text generalizing front with
  | nil => simp [cutsAt]
  | cons c text ih =>
    rw [cutsAt, List.mem_append]
    cases front with
    | nil =>
      by_cases hc : c = mark
      · simp [hc, eq_comm]
      · simp [hc]
    | cons d front =>
      have hs : (d :: front, back) ∉ if c = mark then [([], text)] else [] := by
        split <;> simp
      simp [hs, ih, and_comm]

theorem cutsAt_descending (mark : Char) (text : List Char) :
    (cutsAt mark text).Pairwise fun a b => b.1 < a.1 := by
  induction text with
  | nil => exact List.Pairwise.nil
  | cons c text ih =>
    rw [cutsAt, List.pairwise_append, List.pairwise_map]
    refine ⟨ih.imp fun h => List.cons_lt_cons_iff.mpr (Or.inr ⟨rfl, h⟩), ?_, ?_⟩
    · split <;> simp
    · intro a ha b hb
      obtain ⟨cut, _, rfl⟩ := List.mem_map.mp ha
      split at hb
      · rw [List.mem_singleton] at hb
        subst hb
        exact List.nil_lt_cons c cut.1
      · cases hb

end Text

theorem findSome?_congr_mem {α β : Type} {f g : α → Option β} {xs : List α}
    (h : ∀ x ∈ xs, f x = g x) : xs.findSome? f = xs.findSome? g := by
  induction xs with
  | nil => rfl
  | cons x xs ih =>
    rw [List.findSome?_cons, List.findSome?_cons, h x List.mem_cons_self,
      ih fun y hy => h y (List.mem_cons_of_mem x hy)]

section Greatest

variable {α β γ κ : Type} [LinearOrder κ] {key : α → κ} {f : α → Option β}
  {g : γ → Option β} {xs : List α} {ys : List γ}

/-- In a list of descending keys the first answer is the one for the greatest key. -/
theorem findSome?_eq_some_iff_greatest (hs : xs.Pairwise fun x y => key y < key x) {b : β} :
    xs.findSome? f = some b ↔
      ∃ x ∈ xs, f x = some b ∧ ∀ y ∈ xs, key x < key y → f y = none := by
  constructor
  · intro h
    obtain ⟨before, x, after, rfl, hx, hn⟩ := List.findSome?_eq_some_iff.mp h
    refine ⟨x, by simp, hx, ?_⟩
    intro y hy hlt
    obtain ⟨_, ht, _⟩ := List.pairwise_append.mp hs
    rcases List.mem_append.mp hy with hy | hy
    · exact hn y hy
    · rcases List.mem_cons.mp hy with rfl | hy
      · exact (lt_irrefl _ hlt).elim
      · exact (lt_asymm hlt ((List.pairwise_cons.mp ht).1 y hy)).elim
  · rintro ⟨x, hx, hf, hn⟩
    obtain ⟨before, after, rfl⟩ := List.append_of_mem hx
    refine List.findSome?_eq_some_iff.mpr ⟨before, x, after, rfl, hf, ?_⟩
    intro y hy
    obtain ⟨_, _, hb⟩ := List.pairwise_append.mp hs
    exact hn y (by simp [hy]) (hb y hy x (by simp))

/-- An answer under the greatest key of one list is the answer under the greatest key of another, if
both have the same answers under the same keys. What else they look at does not matter. -/
theorem findSome?_of_same_answers (key : α → κ) (key' : γ → κ)
    (hx : xs.Pairwise fun x y => key y < key x) (hy : ys.Pairwise fun x y => key' y < key' x)
    (hxy : ∀ x ∈ xs, ∀ b, f x = some b → ∃ y ∈ ys, key' y = key x ∧ g y = some b)
    (hyx : ∀ y ∈ ys, ∀ b, g y = some b → ∃ x ∈ xs, key x = key' y ∧ f x = some b) {b : β}
    (h : xs.findSome? f = some b) : ys.findSome? g = some b := by
  obtain ⟨x, hm, hf, hn⟩ := (findSome?_eq_some_iff_greatest hx).mp h
  obtain ⟨y, hym, hk, hg⟩ := hxy x hm b hf
  refine (findSome?_eq_some_iff_greatest hy).mpr ⟨y, hym, hg, ?_⟩
  intro z hz hlt
  by_contra hne
  obtain ⟨d, hd⟩ := Option.ne_none_iff_exists'.mp hne
  obtain ⟨w, hw, hwk, hwf⟩ := hyx z hz d hd
  rw [hn w hw (by rw [hwk, ← hk]; exact hlt)] at hwf
  cases hwf

theorem findSome?_eq_of_same_answers (key : α → κ) (key' : γ → κ)
    (hx : xs.Pairwise fun x y => key y < key x) (hy : ys.Pairwise fun x y => key' y < key' x)
    (hxy : ∀ x ∈ xs, ∀ b, f x = some b → ∃ y ∈ ys, key' y = key x ∧ g y = some b)
    (hyx : ∀ y ∈ ys, ∀ b, g y = some b → ∃ x ∈ xs, key x = key' y ∧ f x = some b) :
    xs.findSome? f = ys.findSome? g := by
  apply Option.ext
  intro b
  exact ⟨findSome?_of_same_answers key key' hx hy hxy hyx,
    findSome?_of_same_answers key' key hy hx hyx hxy⟩

end Greatest

namespace Collection

/-- The variable under exactly this name, unless it has fields. -/
def leafAt? (c : Collection) (name : String) : Option Variable :=
  (c.get? name).filter fun value => !value.hasFields

/-- The fields of the object under a name, as a collection, if it has any. -/
def within? (c : Collection) (name : String) : Option Collection :=
  match c.get? name with
  | some (.object fields) => if fields.isEmpty then none else some (ofFields fields)
  | _ => none

/-- The variable that a dotted name stands for: the one with this very name, or else the one that
the rest of the name stands for within an object whose key begins the name. The longest key is tried
first, and a key that leads to nothing gives way to the next shorter one. -/
def resolve? (c : Collection) (name : List Char) : Option Variable :=
  (c.leafAt? (String.ofList name)).or <|
    (Text.cutsAt '.' name).attach.findSome? fun ⟨(key, rest), _hc⟩ =>
      match c.within? (String.ofList key) with
      | some inner => inner.resolve? rest
      | none => none
termination_by name.length
decreasing_by
  rw [Text.mem_cutsAt.mp _hc, List.length_append, List.length_cons]
  omega

theorem resolve?_eq (c : Collection) (name : List Char) :
    c.resolve? name = (c.leafAt? (String.ofList name)).or
      ((Text.cutsAt '.' name).findSome? fun cut =>
        (c.within? (String.ofList cut.1)).bind fun inner => inner.resolve? cut.2) := by
  rw [resolve?]
  congr 1
  rw [List.findSome?_subtype (g := fun cut =>
    (c.within? (String.ofList cut.1)).bind fun inner => inner.resolve? cut.2)]
  · rw [List.unattach_attach]
  · rintro ⟨key, rest⟩ _
    dsimp only
    cases c.within? (String.ofList key) <;> rfl

/-- What is tried for a name, with the key that it is tried under. -/
def candidates (c : Collection) (name : List Char) : List (String × Option Variable) :=
  (String.ofList name, c.leafAt? (String.ofList name)) ::
    (Text.cutsAt '.' name).map fun cut =>
      (String.ofList cut.1,
        (c.within? (String.ofList cut.1)).bind fun inner => inner.resolve? cut.2)

theorem resolve?_eq_candidates (c : Collection) (name : List Char) :
    c.resolve? name = (c.candidates name).findSome? (·.2) := by
  rw [resolve?_eq, candidates, List.findSome?_cons, List.findSome?_map]
  cases c.leafAt? (String.ofList name) <;> rfl

theorem candidates_descending (c : Collection) (name : List Char) :
    (c.candidates name).Pairwise fun a b => b.1 < a.1 := by
  refine List.Pairwise.cons ?_ ?_
  · intro candidate hm
    obtain ⟨⟨key, rest⟩, hc, rfl⟩ := List.mem_map.mp hm
    rw [Text.mem_cutsAt.mp hc, String.lt_iff, String.toList_ofList, String.toList_ofList]
    have hl : key ++ [] < key ++ '.' :: rest := List.append_left_lt (List.nil_lt_cons '.' rest)
    rwa [List.append_nil] at hl
  · rw [List.pairwise_map]
    refine (Text.cutsAt_descending '.' name).imp ?_
    intro a b h
    rw [String.lt_iff, String.toList_ofList, String.toList_ofList]
    exact h

end Collection

/-! What one entry of a level contributes to a name. -/

theorem Leaf.name_under {leaf : Leaf} (h : leaf.path ≠ []) (key : String) :
    (leaf.under key).name = key ++ "." ++ leaf.name := by
  obtain ⟨path, value⟩ := leaf
  cases path with
  | nil => exact (h rfl).elim
  | cons segment more => rfl

/-- Below a key, a leaf has the rest of the name. -/
theorem Leaf.named?_under {leaf : Leaf} {key name rest : String} (h : leaf.path ≠ [])
    (he : name = key ++ "." ++ rest) : (leaf.under key).named? name = leaf.named? rest := by
  rw [named?, named?, name_under h, he]
  simp only [String.append_right_inj]
  rfl

namespace Variable

variable {key name rest : String} {value v : Variable} {fields : Entries Json none}

/-- The last leaf of an entry that has this name. -/
def answer? (key name : String) (value : Variable) : Option Variable :=
  (value.leaves.map (Leaf.under key)).reverse.findSome? (Leaf.named? name)

theorem answer?_of_not_hasFields (h : value.hasFields = false) :
    value.answer? key name = if key = name then some value else none := by
  rw [answer?, leaves_of_not_hasFields h]
  simp only [List.map_cons, List.map_nil, List.reverse_singleton, List.findSome?_singleton]
  rfl

theorem answer?_object (h : fields.isEmpty = false) (he : name = key ++ "." ++ rest) :
    (object fields).answer? key name = (Collection.ofFields fields).flatten.get? rest := by
  rw [answer?, leaves_object h, ← List.map_reverse, List.findSome?_map, Collection.get?_flatten]
  apply findSome?_congr_mem
  intro leaf hm
  exact Leaf.named?_under (Entries.path_ne_nil (List.mem_reverse.mp hm)) he

theorem exists_rest_of_answer? (h : fields.isEmpty = false)
    (ha : (object fields).answer? key name = some v) :
    ∃ rest, name = key ++ "." ++ rest := by
  rw [answer?, leaves_object h] at ha
  obtain ⟨leaf, hm, hn⟩ := List.exists_of_findSome?_eq_some ha
  obtain ⟨inner, hi, rfl⟩ := List.mem_map.mp (List.mem_reverse.mp hm)
  rw [Leaf.named?, Leaf.name_under (Entries.path_ne_nil hi)] at hn
  split at hn
  · rename_i he
    exact ⟨inner.name, he.symm⟩
  · cases hn

end Variable

/-- The last entry that answers gives what the last leaf with the name gives. -/
theorem Entries.findSome?_leaves {low : Option String} (entries : Entries Variable low)
    (name : String) :
    entries.leaves.reverse.findSome? (Leaf.named? name) =
      entries.toList.reverse.findSome? fun entry => entry.2.answer? entry.1 name := by
  induction entries with
  | nil => rfl
  | cons key above value rest ih =>
    rw [leaves, toList, List.reverse_append, List.findSome?_append, ih, List.reverse_cons,
      List.findSome?_append, List.findSome?_singleton]
    rfl

namespace Collection

variable {c : Collection} {name : String} {v : Variable}

theorem leafAt?_eq_some_iff :
    c.leafAt? name = some v ↔ c.get? name = some v ∧ v.hasFields = false := by
  simp [leafAt?]

theorem within?_eq_some_iff {inner : Collection} : c.within? name = some inner ↔
    ∃ fields, c.get? name = some (.object fields) ∧ fields.isEmpty = false ∧
      inner = ofFields fields := by
  constructor
  · intro h
    rw [within?] at h
    split at h
    · rename_i fields hg
      split at h
      · cases h
      · rename_i he
        cases h
        exact ⟨fields, hg, Bool.eq_false_iff.mpr he, rfl⟩
    · cases h
  · rintro ⟨fields, hg, he, rfl⟩
    simp only [within?, hg, he]
    rfl

/-- An entry answers for a name only as one of the candidates for it. -/
theorem exists_candidate_of_answer {key : String} {value : Variable}
    (ih : ∀ (inner : Collection) (rest : String), rest.toList.length < name.toList.length →
      inner.flatten.get? rest = inner.resolve? rest.toList)
    (hm : (key, value) ∈ c.toList.reverse) (ha : value.answer? key name = some v) :
    ∃ candidate ∈ c.candidates name.toList, candidate.1 = key ∧ candidate.2 = some v := by
  have hg : c.get? key = some value := by simpa using hm
  cases hf : value.hasFields with
  | false =>
    rw [Variable.answer?_of_not_hasFields hf] at ha
    split at ha
    · rename_i he
      cases ha
      subst he
      refine ⟨(key, c.leafAt? key), ?_, rfl, leafAt?_eq_some_iff.mpr ⟨hg, hf⟩⟩
      simp [candidates]
    · cases ha
  | true =>
    cases value with
    | object fields =>
      have hne : fields.isEmpty = false := by simpa [Variable.hasFields] using hf
      obtain ⟨rest, rfl⟩ := Variable.exists_rest_of_answer? hne ha
      have hlt : rest.toList.length < (key ++ "." ++ rest).toList.length := by
        simp
        omega
      rw [Variable.answer?_object hne rfl, ih _ _ hlt] at ha
      have hc : (key.toList, rest.toList) ∈ Text.cutsAt '.' (key ++ "." ++ rest).toList := by
        rw [Text.mem_cutsAt]
        simp
      refine ⟨_, List.mem_cons_of_mem _ (List.mem_map_of_mem hc), by simp, ?_⟩
      have hw : c.within? key = some (ofFields fields) :=
        within?_eq_some_iff.mpr ⟨fields, hg, hne, rfl⟩
      simp [hw, ha]
    | _ => cases hf

/-- Each candidate that leads to a value is what the entry under its key answers. -/
theorem exists_answer_of_candidate {candidate : String × Option Variable}
    (ih : ∀ (inner : Collection) (rest : String), rest.toList.length < name.toList.length →
      inner.flatten.get? rest = inner.resolve? rest.toList)
    (hm : candidate ∈ c.candidates name.toList) (ha : candidate.2 = some v) :
    ∃ entry ∈ c.toList.reverse, entry.1 = candidate.1 ∧
      entry.2.answer? entry.1 name = some v := by
  rcases List.mem_cons.mp hm with rfl | hm
  · obtain ⟨hg, hf⟩ := leafAt?_eq_some_iff.mp ha
    refine ⟨(_, v), by simpa using hg, rfl, ?_⟩
    simp [Variable.answer?_of_not_hasFields hf]
  · obtain ⟨⟨key, rest⟩, hc, rfl⟩ := List.mem_map.mp hm
    obtain ⟨inner, hw, hr⟩ := Option.bind_eq_some_iff.mp ha
    obtain ⟨fields, hg, hne, rfl⟩ := within?_eq_some_iff.mp hw
    have hn : name.toList = key ++ '.' :: rest := Text.mem_cutsAt.mp hc
    have he : name = String.ofList key ++ "." ++ String.ofList rest := by
      apply String.toList_injective
      simp [hn]
    have hlt : (String.ofList rest).toList.length < name.toList.length := by
      rw [hn, String.toList_ofList, List.length_append, List.length_cons]
      omega
    refine ⟨(_, .object fields), by simpa using hg, rfl, ?_⟩
    rw [Variable.answer?_object hne he, ih _ _ hlt, String.toList_ofList]
    exact hr

theorem get?_flatten_eq_resolve? (c : Collection) (name : String) :
    c.flatten.get? name = c.resolve? name.toList := by
  induction hl : name.toList.length using Nat.strong_induction_on generalizing c name with
  | _ n ih =>
  subst hl
  have ih' : ∀ (inner : Collection) (rest : String), rest.toList.length < name.toList.length →
      inner.flatten.get? rest = inner.resolve? rest.toList :=
    fun inner rest hlt => ih _ hlt inner rest rfl
  rw [get?_flatten, leaves, Entries.findSome?_leaves, resolve?_eq_candidates]
  apply findSome?_eq_of_same_answers Prod.fst Prod.fst
  · exact List.pairwise_reverse.mpr c.entries.toList_ascending
  · exact c.candidates_descending name.toList
  · intro entry hm v ha
    exact exists_candidate_of_answer ih' hm ha
  · intro candidate hm v ha
    exact exists_answer_of_candidate ih' hm ha

theorem resolve?_of_leafAt? (h : c.leafAt? name = some v) : c.resolve? name.toList = some v := by
  rw [resolve?_eq, String.ofList_toList, h]
  rfl

/-- The winner among the leaves with one dotted name is found by backtracking, longest key first.
No name of a leaf is lost, and a variable without fields stays whatever else has its name. -/
theorem flatten_winner (c : Collection) :
    (∀ name, c.flatten.get? name = c.resolve? name.toList) ∧
      (∀ leaf ∈ c.leaves, c.flatten.has leaf.name = true) ∧
      ∀ name value, c.get? name = some value → value.hasFields = false →
        c.flatten.get? name = some value := by
  refine ⟨get?_flatten_eq_resolve? c, fun leaf => has_flatten_of_mem, ?_⟩
  intro name value hg hf
  rw [get?_flatten_eq_resolve? c name]
  exact resolve?_of_leafAt? (leafAt?_eq_some_iff.mpr ⟨hg, hf⟩)

/-- The longest key that begins the name leads to nothing, the next one has the winner, and a
variable without fields stands against a leaf of its name. -/
theorem flatten_winner_behind_longest_key :
    let c := ofList
      [("a", .object (.ofList [("b.c.d", .string "early")])),
        ("a.b", .object (.ofList [("c.d", .string "late")])),
        ("a.b.c", .object (.ofList [("e", .boolean true)])), ("a.b.c.e", .null)]
    (c.flatten.get? "a.b.c.d" = c.resolve? "a.b.c.d".toList ∧
        c.flatten.get? "a.b.c.d" = some (.string "late")) ∧
      (⟨["a", "b.c.d"], .string "early"⟩ ∈ c.leaves ∧ c.flatten.has "a.b.c.d" = true) ∧
      c.get? "a.b.c.e" = some .null ∧ c.flatten.get? "a.b.c.e" = some .null := by
  intro c
  have hl : ⟨["a", "b.c.d"], .string "early"⟩ ∈ c.leaves := List.mem_cons_self
  exact ⟨⟨(flatten_winner c).1 _, rfl⟩, ⟨hl, (flatten_winner c).2.1 _ hl⟩, rfl,
    (flatten_winner c).2.2 _ _ rfl rfl⟩

end Collection
end DocTemplate
