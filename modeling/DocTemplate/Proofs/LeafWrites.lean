import DocTemplate.Proofs.FlatLookup
import DocTemplate.Proofs.RawForm
import DocTemplate.Proofs.WriteOrder

/-! Flattening undone. The leaves of a collection, written along their paths in any order, build the
collection again. Only numbers inside objects may come back in another form: as variables write
them. -/
namespace DocTemplate

variable {low : Option String} {key name : String} {fields inner : Entries Json none}
  {leaves : List Leaf}

mutual

/-- The value with the numbers that objects lead to in the form in which variables write them. -/
def Json.renumbered : Json → Json
  | .number n => (Variable.ofJson (.number n)).toJson
  | .object fields => .object (renumberedBelow fields)
  | other => other
termination_by structural value => value

def Json.renumberedBelow {low : Option String} : Entries Json low → Entries Json low
  | .nil => .nil
  | .cons key above value rest => .cons key above (renumbered value) (renumberedBelow rest)
termination_by structural fields => fields

end

def Variable.renumbered : Variable → Variable
  | .object fields => .object (Json.renumberedBelow fields)
  | other => other

def Collection.renumbered (c : Collection) : Collection := ⟨c.entries.map Variable.renumbered⟩

mutual

/-- Whether the numbers that objects lead to are integers of absolute value below 2^53, or floats
that are no whole numbers. -/
def Json.exactNumbers : Json → Bool
  | .number (.integer n _ _) => n.natAbs < 9007199254740992
  | .number (.float x) => !x.isIntegral
  | .object fields => exactNumbersBelow fields
  | _ => true
termination_by structural value => value

def Json.exactNumbersBelow {low : Option String} : Entries Json low → Bool
  | .nil => true
  | .cons _ _ value rest => exactNumbers value && exactNumbersBelow rest
termination_by structural fields => fields

end

def Variable.exactNumbers : Variable → Bool
  | .object fields => Json.exactNumbersBelow fields
  | _ => true

def Collection.exactNumbers (c : Collection) : Bool :=
  c.toList.all fun entry => entry.2.exactNumbers

mutual

theorem Json.renumbered_of_exactNumbers : ∀ value : Json, value.exactNumbers = true →
    value.renumbered = value
  | .number (.integer n least below), h =>
    Variable.toJson_ofJson_integer (of_decide_eq_true h)
  | .number (.float x), h => by
    have hi : x.isIntegral = false := by simpa [exactNumbers] using h
    exact congrArg Json.number (Variable.numberOf_of_not_isIntegral hi)
  | .object fields, h => congrArg Json.object (renumberedBelow_of_exactNumbers fields h)
  | .null, _ | .boolean _, _ | .string _, _ | .array _, _ => rfl
termination_by structural value => value

theorem Json.renumberedBelow_of_exactNumbers {low : Option String} :
    ∀ fields : Entries Json low, exactNumbersBelow fields = true →
      renumberedBelow fields = fields
  | .nil, _ => rfl
  | .cons key above value rest, h => by
    obtain ⟨hvalue, hrest⟩ := (Bool.and_eq_true_iff).mp h
    rw [renumberedBelow, renumbered_of_exactNumbers value hvalue,
      renumberedBelow_of_exactNumbers rest hrest]
termination_by structural fields => fields

end

theorem Variable.renumbered_of_exactNumbers {value : Variable} (h : value.exactNumbers = true) :
    value.renumbered = value := by
  cases value with
  | object fields => exact congrArg Variable.object (Json.renumberedBelow_of_exactNumbers fields h)
  | _ => rfl

@[simp]
theorem Collection.get?_renumbered (c : Collection) (name : String) :
    c.renumbered.get? name = (c.get? name).map Variable.renumbered :=
  Entries.get?_map Variable.renumbered c.entries

theorem Collection.renumbered_of_exactNumbers {c : Collection} (h : c.exactNumbers = true) :
    c.renumbered = c := by
  ext name : 1
  rw [get?_renumbered]
  cases hg : c.get? name with
  | none => rfl
  | some value =>
    have hv : value.exactNumbers = true := List.all_eq_true.mp h (name, value) (by simpa using hg)
    exact congrArg some (Variable.renumbered_of_exactNumbers hv)

/-! Leaves written below a key. -/

namespace Json

/-- The fields with a leaf written at its place. -/
def plantLeaf (fields : Entries Json none) (leaf : Leaf) : Entries Json none :=
  match leaf.path with
  | [] => fields
  | segment :: more => (plant leaf.value.toJson fields segment more).1

theorem plantLeaf_under {leaf : Leaf} (ho : opening? (fields.get? key) = some inner)
    (hp : leaf.path ≠ []) :
    plantLeaf fields (leaf.under key) = fields.insert key (.object (plantLeaf inner leaf)) := by
  obtain ⟨path, value⟩ := leaf
  obtain ⟨next, more, rfl⟩ := List.exists_cons_of_ne_nil hp
  exact congrArg Prod.fst (plant_open ho)

/-- Leaves below a key are written into the object at that key. -/
theorem foldl_plantLeaf_under (ho : opening? (fields.get? key) = some inner) (hne : leaves ≠ [])
    (hp : ∀ leaf ∈ leaves, leaf.path ≠ []) :
    (leaves.map (Leaf.under key)).foldl plantLeaf fields =
      fields.insert key (.object (leaves.foldl plantLeaf inner)) := by
  induction leaves generalizing fields inner with
  | nil => exact (hne rfl).elim
  | cons leaf leaves ih =>
    obtain ⟨hfirst, hp⟩ := List.forall_mem_cons.mp hp
    rw [List.map_cons, List.foldl_cons, plantLeaf_under ho hfirst, List.foldl_cons]
    by_cases hl : leaves = []
    · subst hl
      rfl
    · simp [ih opening?_insert hl hp]

mutual

theorem leaves_ne_nil : ∀ value : Json, value.leaves ≠ []
  | .object fields => by
    rw [leaves]
    split
    · exact List.cons_ne_nil _ _
    · rename_i he
      exact leavesBelow_ne_nil fields (Bool.eq_false_iff.mpr he)
  | .null | .boolean _ | .number _ | .string _ | .array _ => List.cons_ne_nil _ _
termination_by structural value => value

theorem leavesBelow_ne_nil {low : Option String} :
    ∀ fields : Entries Json low, fields.isEmpty = false → leavesBelow fields ≠ []
  | .nil, h => by cases h
  | .cons key _ value rest, _ => by
    rw [leavesBelow]
    intro he
    exact leaves_ne_nil value (List.map_eq_nil_iff.mp (List.append_eq_nil_iff.mp he).1)
termination_by structural fields => fields

end

theorem path_ne_nil {given : Entries Json low} : ∀ leaf ∈ leavesBelow given, leaf.path ≠ [] := by
  rw [leavesBelow_eq]
  exact fun leaf hm => Entries.path_ne_nil hm

mutual

/-- Where nothing stands, the leaves of a value build the value. -/
theorem foldl_leaves : ∀ (value : Json) {fields : Entries Json none} {key : String},
    fields.get? key = none →
      (value.leaves.map (Leaf.under key)).foldl plantLeaf fields =
        fields.insert key value.renumbered
  | .object given, fields, key, hf => by
    cases he : given.isEmpty with
    | true =>
      cases given with
      | nil => rfl
      | cons => cases he
    | false =>
      have ho : opening? (fields.get? key) = some .nil := by rw [hf]; rfl
      have hb : (leavesBelow given).foldl plantLeaf .nil = renumberedBelow given := by
        apply Entries.ext
        intro name
        rw [get?_foldl_leavesBelow given (fun _ _ => rfl)]
        exact Option.or_none
      rw [leaves, he, renumbered, ← hb]
      exact foldl_plantLeaf_under ho (leavesBelow_ne_nil given he) path_ne_nil
  | .null, _, _, _ | .boolean _, _, _, _ | .number _, _, _, _ | .string _, _, _, _
  | .array _, _, _, _ => rfl
termination_by structural value => value

/-- Where nothing stands above the bound of the fields, their leaves build the fields. -/
theorem get?_foldl_leavesBelow {low : Option String} :
    ∀ (given : Entries Json low) {fields : Entries Json none},
      (∀ name, Above low name → fields.get? name = none) → ∀ {name : String},
        ((leavesBelow given).foldl plantLeaf fields).get? name =
          ((renumberedBelow given).get? name).or (fields.get? name)
  | .nil, _, _, _ => rfl
  | .cons key above value rest, fields, hf, name => by
    have hrest : ∀ name, Above (some key) name →
        (fields.insert key value.renumbered).get? name = none := by
      intro name hn
      have hlt : key < name := hn
      rw [Entries.get?_insert_of_ne _ hlt.ne']
      exact hf name (above.trans hlt)
    rw [leavesBelow, List.foldl_append, foldl_leaves value (hf key above),
      get?_foldl_leavesBelow rest hrest, renumberedBelow, Entries.get?_cons, Entries.get?_insert]
    by_cases he : name = key
    · subst he
      simp
    · simp [he]
termination_by structural given => given

end

theorem foldl_leavesBelow (given : Entries Json none) :
    (leavesBelow given).foldl plantLeaf .nil = renumberedBelow given := by
  ext name : 1
  exact (get?_foldl_leavesBelow given (fun _ _ => rfl)).trans Option.or_none

end Json

namespace Collection

variable {c : Collection} {writes : List (String × Variable)}

/-- The collection with a leaf written along the path that its name spells. -/
def writeLeaf (c : Collection) (leaf : Leaf) : Collection := c.write (leaf.name, leaf.value)

/-- The name of the leaf spells its path. -/
def Spelled (leaf : Leaf) : Prop := (Path.ofText leaf.name).segments = leaf.path

theorem writeLeaf_below {leaf : Leaf} (ho : Variable.opening? (c.get? key) = some inner)
    (hp : leaf.path ≠ []) (hs : Spelled (leaf.under key)) :
    c.writeLeaf (leaf.under key) = c.set key (.object (Json.plantLeaf inner leaf)) := by
  obtain ⟨path, value⟩ := leaf
  obtain ⟨next, more, rfl⟩ := List.exists_cons_of_ne_nil hp
  obtain ⟨hroot, hrest⟩ := List.cons.inj hs
  rw [← hroot] at ho
  rw [writeLeaf, write, setNested_open hrest ho, hroot]
  rfl

theorem foldl_writeLeaf_below (ho : Variable.opening? (c.get? key) = some inner)
    (hne : leaves ≠ []) (hp : ∀ leaf ∈ leaves, leaf.path ≠ [])
    (hs : ∀ leaf ∈ leaves, Spelled (leaf.under key)) :
    (leaves.map (Leaf.under key)).foldl writeLeaf c =
      c.set key (.object (leaves.foldl Json.plantLeaf inner)) := by
  induction leaves generalizing c inner with
  | nil => exact (hne rfl).elim
  | cons leaf leaves ih =>
    obtain ⟨hpath, hp⟩ := List.forall_mem_cons.mp hp
    obtain ⟨hspelled, hs⟩ := List.forall_mem_cons.mp hs
    rw [List.map_cons, List.foldl_cons, writeLeaf_below ho hpath hspelled, List.foldl_cons]
    by_cases hl : leaves = []
    · subst hl
      rfl
    · simp [ih opening?_set hl hp hs]

theorem foldl_leaves (value : Variable) (hg : c.get? key = none)
    (hs : ∀ leaf ∈ value.leaves, Spelled (leaf.under key)) :
    (value.leaves.map (Leaf.under key)).foldl writeLeaf c = c.set key value.renumbered := by
  cases hf : value.hasFields with
  | false =>
    have hv : value.renumbered = value := by
      cases value with
      | object fields =>
        cases fields with
        | nil => rfl
        | cons => cases hf
      | _ => rfl
    rw [Variable.leaves_of_not_hasFields hf] at hs ⊢
    obtain ⟨hroot, hrest⟩ := List.cons.inj (hs _ List.mem_cons_self)
    rw [hv]
    exact congrArg Prod.snd (setNested_root hrest)
  | true =>
    cases value with
    | object fields =>
      have he : fields.isEmpty = false := by simpa [Variable.hasFields] using hf
      have hl : (Variable.object fields).leaves = Json.leavesBelow fields := by
        rw [Variable.leaves_object he, ← Json.leavesBelow_eq]
      have ho : Variable.opening? (c.get? key) = some .nil := by rw [hg]; rfl
      rw [hl] at hs ⊢
      rw [Variable.renumbered, ← Json.foldl_leavesBelow]
      exact foldl_writeLeaf_below ho (Json.leavesBelow_ne_nil fields he) Json.path_ne_nil hs
    | _ => cases hf

theorem get?_foldl_entries (entries : Entries Variable low)
    (hs : ∀ leaf ∈ entries.leaves, Spelled leaf)
    (hc : ∀ name, Above low name → c.get? name = none) :
    (entries.leaves.foldl writeLeaf c).get? name =
      ((entries.map Variable.renumbered).get? name).or (c.get? name) := by
  induction entries generalizing c with
  | nil => rfl
  | cons key above value rest ih =>
    rw [Entries.leaves, List.forall_mem_append, List.forall_mem_map] at hs
    have hrest : ∀ name, Above (some key) name → (c.set key value.renumbered).get? name = none := by
      intro name hn
      have hlt : key < name := hn
      rw [get?_set_of_ne hlt.ne']
      exact hc name (above.trans hlt)
    rw [Entries.leaves, List.foldl_append, foldl_leaves value (hc key above) hs.1,
      ih hs.2 hrest, Entries.map, Entries.get?_cons, get?_set]
    by_cases he : name = key
    · subst he
      simp
    · simp [he]

/-- The leaves of a collection without dots in its keys build it, from first to last. -/
theorem foldl_writeLeaf_leaves (h : c.dotFree = true) :
    c.leaves.foldl writeLeaf empty = c.renumbered := by
  have hs : ∀ leaf ∈ c.leaves, Spelled leaf := fun leaf hm => (path_of_name h hm).symm
  have hempty : ∀ name, Above none name → empty.get? name = none := fun _ _ => get?_empty
  ext name : 1
  exact (get?_foldl_entries c.entries hs hempty).trans Option.or_none

end Collection

/-! Leaves written in any order. No leaf stands on the way to another. -/

theorem Variable.eq_of_leaves_append {value v w : Variable} {front back : List String}
    (hv : ⟨front, v⟩ ∈ value.leaves) (hw : ⟨front ++ back, w⟩ ∈ value.leaves) :
    back = [] ∧ v = w := by
  induction front generalizing value with
  | nil =>
    obtain ⟨rfl, hf⟩ := Variable.nil_mem_leaves.mp hv
    rw [Variable.leaves_of_not_hasFields hf] at hw
    cases List.mem_singleton.mp hw
    exact ⟨rfl, rfl⟩
  | cons key front ih =>
    obtain ⟨fields, inner, rfl, hg, hi⟩ := Variable.cons_mem_leaves.mp hv
    obtain ⟨_, inner', ⟨⟩, hg', hi'⟩ := Variable.cons_mem_leaves.mp hw
    cases hg.symm.trans hg'
    exact ih hi hi'

namespace Collection

variable {c : Collection} {text : String} {v : Variable}
  {writes first second : List (String × Variable)} {P : Set String}

theorem path_eq_of_initial {leaf other : Leaf} (hl : leaf ∈ c.leaves) (ho : other ∈ c.leaves)
    (hp : leaf.path <+: other.path) : leaf.path = other.path := by
  obtain ⟨path, v⟩ := leaf
  obtain ⟨_, w⟩ := other
  obtain ⟨back, rfl⟩ := hp
  cases path with
  | nil => exact (Entries.nil_not_mem_leaves _ hl).elim
  | cons key path =>
    obtain ⟨value, hg, hv⟩ := (Entries.cons_mem_leaves _).mp hl
    obtain ⟨value', hg', hw⟩ := (Entries.cons_mem_leaves _).mp ho
    cases hg.symm.trans hg'
    have hb := (Variable.eq_of_leaves_append hv hw).1
    subst hb
    exact (List.append_nil _).symm

/-- The names of the leaves. -/
def leafNames (c : Collection) : Set String := {name | ∃ leaf ∈ c.leaves, leaf.name = name}

theorem allApart_leafNames (h : c.dotFree = true) : AllApart c.leafNames := by
  rintro _ ⟨leaf, hl, rfl⟩ _ ⟨other, ho, rfl⟩ hne
  rw [← path_of_name h hl, ← path_of_name h ho]
  constructor
  · intro hp
    exact hne (congrArg (Text.joined ".") (path_eq_of_initial hl ho hp))
  · intro hp
    exact hne (congrArg (Text.joined ".") (path_eq_of_initial ho hl hp).symm)

theorem mem_of_lastWrite? (h : lastWrite? text writes = some v) : (text, v) ∈ writes := by
  induction writes with
  | nil => cases h
  | cons entry writes ih =>
    rw [lastWrite?, Option.or_eq_some_iff] at h
    rcases h with hl | ⟨_, hn⟩
    · exact List.mem_cons_of_mem _ (ih hl)
    · split at hn
      · rename_i he
        cases he
        cases hn
        exact List.mem_cons_self
      · cases hn

/-- Where each path is written with one value, the last value is that one. -/
theorem lastWrite?_eq_some_iff (hone : ∀ w, (text, v) ∈ writes → (text, w) ∈ writes → w = v) :
    lastWrite? text writes = some v ↔ (text, v) ∈ writes := by
  constructor
  · exact mem_of_lastWrite?
  · intro hm
    obtain ⟨w, hw⟩ := Option.isSome_iff_exists.mp (lastWrite?_isSome_iff.mpr ⟨v, hm⟩)
    rw [hw, hone w hm (mem_of_lastWrite? hw)]

/-- Runs with the same writes, one value for each path, have the same last writes. -/
theorem lastWrite?_congr (hmem : ∀ entry, entry ∈ first ↔ entry ∈ second)
    (hone : ∀ text v w, (text, v) ∈ first → (text, w) ∈ first → w = v) (text : String) :
    lastWrite? text first = lastWrite? text second := by
  have hone' : ∀ v w, (text, v) ∈ second → (text, w) ∈ second → w = v :=
    fun v w hv hw => hone text v w ((hmem _).mpr hv) ((hmem _).mpr hw)
  apply Option.ext
  intro v
  exact (lastWrite?_eq_some_iff (hone text v)).trans
    ((hmem _).trans (lastWrite?_eq_some_iff (hone' v)).symm)

/-- Where every write would succeed at the start, all writes of the run succeed. -/
theorem writeAll_ok (hP : AllApart P) (hw : ∀ entry ∈ writes, entry.1 ∈ P)
    (hok : ∀ text ∈ P, ∀ v, (c.setNested text v).1 = .ok ()) :
    (c.writeAll writes).1 = writes.map fun entry => (entry.1, .ok ()) := by
  induction writes generalizing c with
  | nil => rfl
  | cons entry writes ih =>
    obtain ⟨hfirst, hw⟩ := List.forall_mem_cons.mp hw
    have hafter : ∀ text ∈ P, ∀ v, ((c.write entry).setNested text v).1 = .ok () :=
      fun text ht v => (outcome_write hP ht hfirst).trans (hok text ht v)
    have hrest : ((c.write entry).writeAll writes).1 =
        writes.map fun entry => (entry.1, .ok ()) := ih hw hafter
    have hthis : (c.setNested entry.1 entry.2).1 = .ok () := hok entry.1 hfirst entry.2
    rw [List.map_cons, ← hrest, ← hthis]
    rfl

theorem setNested_empty_ok (text : String) (v : Variable) :
    (empty.setNested text v).1 = .ok () := by
  cases hr : (Path.ofText text).rest with
  | nil => rw [setNested_root hr]
  | cons segment more => rw [setNested_missing hr rfl]

theorem mem_toList_flatten_iff (h : c.dotFree = true) {entry : String × Variable} :
    entry ∈ c.flatten.toList ↔ entry ∈ c.leaves.map fun leaf => (leaf.name, leaf.value) := by
  obtain ⟨name, v⟩ := entry
  have hleaf : (name, v) ∈ c.flatten.toList ↔ ⟨(Path.ofText name).segments, v⟩ ∈ c.leaves :=
    mem_toList_iff.trans (get?_flatten_iff_mem h)
  rw [hleaf, List.mem_map]
  constructor
  · intro hm
    exact ⟨_, hm, by simp⟩
  · rintro ⟨leaf, hm, he⟩
    cases he
    rw [← path_of_name h hm]
    exact hm

/-- The variables of a flattened collection without dots in its keys, written into an empty one in
any order, all find their way free. They build the collection that was flattened, with the numbers
inside its objects as variables write them: the collection itself, if these are integers of
absolute value below 2^53 and floats that are no whole numbers. -/
theorem writeAll_flatten (h : c.dotFree = true) (hp : writes.Perm c.flatten.toList) :
    (empty.writeAll writes).1 = writes.map (fun entry => (entry.1, .ok ())) ∧
      (empty.writeAll writes).2 = c.renumbered ∧
      (c.exactNumbers = true → (empty.writeAll writes).2 = c) := by
  have hleaves : ∀ entry, entry ∈ writes ↔
      entry ∈ c.leaves.map fun leaf => (leaf.name, leaf.value) :=
    fun entry => hp.mem_iff.trans (mem_toList_flatten_iff h)
  have hnames : ∀ entry ∈ writes, entry.1 ∈ c.leafNames := by
    intro entry hm
    obtain ⟨leaf, hl, rfl⟩ := List.mem_map.mp ((hleaves entry).mp hm)
    exact ⟨leaf, hl, rfl⟩
  have hone : ∀ text v w, (text, v) ∈ writes → (text, w) ∈ writes → w = v := by
    intro text v w hv hw
    have hv' := mem_toList_iff.mp (hp.mem_iff.mp hv)
    have hw' := mem_toList_iff.mp (hp.mem_iff.mp hw)
    exact Option.some.inj (hw'.symm.trans hv')
  have hend : (empty.writeAll writes).2 = c.renumbered := by
    have hsecond : ∀ entry ∈ c.leaves.map fun leaf => (leaf.name, leaf.value),
        entry.1 ∈ c.leafNames := fun entry hm => hnames entry ((hleaves entry).mpr hm)
    have hsame := foldl_write_congr (c := empty) (allApart_leafNames h) hnames hsecond
      (lastWrite?_congr hleaves hone)
    rw [writeAll_eq_foldl, hsame, List.foldl_map]
    exact foldl_writeLeaf_leaves h
  refine ⟨writeAll_ok (allApart_leafNames h) hnames fun text _ v => setNested_empty_ok text v,
    hend, ?_⟩
  intro he
  rw [hend, renumbered_of_exactNumbers he]

/-- Last variable first: an empty object and a number under an empty key share an object, and a
number in a list stays what it is. -/
theorem writeAll_flatten_in_reverse :
    let seven : Json := .number (.integer 7 (by decide) (by decide))
    let c := ofFields (.ofList [("a", .object (.ofList [("", seven), ("e", .object .nil)])),
      ("l", .array [.number (.float (.zero true))])])
    let writes := c.flatten.toList.reverse
    c.dotFree = true ∧ writes.Perm c.flatten.toList ∧ c.exactNumbers = true ∧
      (empty.writeAll writes).1 = writes.map (fun entry => (entry.1, .ok ())) ∧
      (empty.writeAll writes).2 = c := by
  intro seven c writes
  have hd : c.dotFree = true := by decide +kernel
  have he : c.exactNumbers = true := by decide +kernel
  have hp : writes.Perm c.flatten.toList := List.reverse_perm _
  obtain ⟨hok, _, hsame⟩ := writeAll_flatten hd hp
  exact ⟨hd, hp, he, hok, hsame he⟩

end Collection
end DocTemplate
