import DocTemplate.Proofs.DottedNames
import DocTemplate.Proofs.NestedReads
import DocTemplate.Proofs.NestedWrites

/-! What a write along a path leaves alone. A way that parts from the written one reads what it read
before; only the segment at which nothing was found may be a later one. -/
namespace DocTemplate

/-- Neither list of segments is an initial part of the other, so the two ways part. -/
def Apart (a b : List String) : Prop := ¬ a <+: b ∧ ¬ b <+: a

instance (a b : List String) : Decidable (Apart a b) :=
  inferInstanceAs (Decidable (¬ a <+: b ∧ ¬ b <+: a))

variable {c d : Collection} {value : Json} {fields inner other : Entries Json none}
  {segment next : String} {more : List String}

namespace Apart

variable {a b : String} {as bs : List String}

theorem cons_iff : Apart (a :: as) (b :: bs) ↔ (a = b → Apart as bs) := by
  by_cases he : a = b
  · subst he
    simp [Apart, List.cons_prefix_cons]
  · simp [Apart, List.cons_prefix_cons, he, Ne.symm he]

theorem ne_of_singleton (h : Apart [a] (b :: bs)) : a ≠ b := by
  intro he
  exact (cons_iff.mp h he).1 List.nil_prefix

theorem exists_cons (h : Apart as bs) :
    (∃ a more, as = a :: more) ∧ ∃ b more, bs = b :: more := by
  constructor
  · apply List.exists_cons_of_ne_nil
    rintro rfl
    exact h.1 List.nil_prefix
  · apply List.exists_cons_of_ne_nil
    rintro rfl
    exact h.2 List.nil_prefix

end Apart

namespace Obstacle

@[simp]
theorem error_missing (path : Path) (segment : String) :
    (missing segment).error path = .notFound path.text segment := rfl

@[simp]
theorem error_blocked (path : Path) (segment : String) (kind : Kind) :
    (blocked segment kind).error path = .notAnObject path.text segment kind := rfl

/-- The segment and the kind of value that block a way. A way that ends because nothing is there is
not blocked. -/
def block? : Obstacle → Option (String × Kind)
  | .missing _ => none
  | .blocked segment kind => some (segment, kind)

/-- Two ways that are blocked alike, if at all, end alike, or end with nothing there both. -/
theorem eq_or_missing {α : Type} {before after : Except Obstacle α}
    (h : after.mapError block? = before.mapError block?) :
    after = before ∨ ∃ a b, before = .error (.missing a) ∧ after = .error (.missing b) := by
  cases before with
  | ok v =>
    cases after with
    | ok w =>
      cases h
      exact Or.inl rfl
    | error e => cases h
  | error e =>
    cases after with
    | ok w => cases h
    | error e' =>
      cases e <;> cases e' <;> cases h
      · exact Or.inr ⟨_, _, rfl, rfl⟩
      · exact Or.inl rfl

end Obstacle

namespace Json

/-- The fields through which a way goes on from what stands at a segment. Where nothing stands there
are none yet; no way goes on through any other value. -/
def opening? : Option Json → Option (Entries Json none)
  | none => some .nil
  | some (.object fields) => some fields
  | some _ => none

@[simp]
theorem opening?_none : opening? none = some .nil := rfl

@[simp]
theorem opening?_object : opening? (some (.object inner)) = some inner := rfl

theorem opening?_eq_some {found : Option Json} (h : opening? found = some inner) :
    found = none ∧ inner = .nil ∨ found = some (.object inner) := by
  cases found with
  | none =>
    cases h
    exact Or.inl ⟨rfl, rfl⟩
  | some found =>
    cases found with
    | object fields =>
      cases h
      exact Or.inr rfl
    | _ => cases h

theorem opening?_eq_none {found : Option Json} (h : opening? found = none) :
    ∃ blocking, found = some blocking ∧ ∀ inner, blocking ≠ .object inner := by
  cases found with
  | none => cases h
  | some blocking =>
    refine ⟨blocking, rfl, ?_⟩
    rintro inner rfl
    cases h

theorem plant_open (h : opening? (fields.get? segment) = some inner) :
    plant value fields segment (next :: more) =
      (fields.insert segment (.object (plant value inner next more).1),
        (plant value inner next more).2) := by
  rcases opening?_eq_some h with ⟨hf, rfl⟩ | hf
  · exact plant_missing hf
  · exact plant_object hf

theorem plant_shut (h : opening? (fields.get? segment) = none) : ∃ obstacle, ∀ value next more,
    plant value fields segment (next :: more) = (fields, some obstacle) := by
  obtain ⟨blocking, hf, hb⟩ := opening?_eq_none h
  exact ⟨.blocked segment blocking.kind, fun _ _ _ => plant_blocked hf hb⟩

/-- Of the fields, a write looks only at the one where it begins, and it writes only that one. -/
theorem plant_at (value : Json) (found : Option Json) (segment : String) (more : List String) :
    ∃ given obstacle, ∀ fields, fields.get? segment = found →
      plant value fields segment more = (fields.insert segment given, obstacle) := by
  cases more with
  | nil => exact ⟨value, none, fun _ _ => rfl⟩
  | cons next more =>
    cases ho : opening? found with
    | some inner =>
      refine ⟨.object (plant value inner next more).1, (plant value inner next more).2, ?_⟩
      rintro fields rfl
      exact plant_open ho
    | none =>
      -- What blocks the way is as good as written again.
      obtain ⟨blocking, rfl, hb⟩ := opening?_eq_none ho
      refine ⟨blocking, some (.blocked segment blocking.kind), ?_⟩
      intro fields hf
      rw [Entries.insert_of_get? hf]
      exact plant_blocked hf hb

theorem get?_plant_of_ne {name : String} (h : name ≠ segment) :
    (plant value fields segment more).1.get? name = fields.get? name := by
  obtain ⟨given, obstacle, hp⟩ := plant_at value (fields.get? segment) segment more
  simp [hp fields rfl, h]

theorem descend_congr (h : fields.get? segment = other.get? segment) :
    descend fields segment more = descend other segment more := by
  cases more <;> rw [descend, descend, h]

@[simp]
theorem descend_nil_fields : descend .nil segment more = .error (.missing segment) := by
  cases more <;> rfl

theorem descend_object (h : fields.get? segment = some (.object inner)) :
    descend fields segment (next :: more) = descend inner next more := by
  rw [descend, h]

/-- Where nothing stands, a way is as free as through an object without fields. -/
theorem descend_open (h : opening? (fields.get? segment) = some inner) :
    (descend fields segment (next :: more)).mapError Obstacle.block? =
      (descend inner next more).mapError Obstacle.block? := by
  rcases opening?_eq_some h with ⟨hf, rfl⟩ | hf
  · rw [descend, hf, descend_nil_fields]
    rfl
  · rw [descend_object hf]

theorem descend_plant_apart {target : String} {rest : List String}
    (h : Apart (segment :: more) (target :: rest)) :
    (descend (plant value fields segment more).1 target rest).mapError Obstacle.block? =
      (descend fields target rest).mapError Obstacle.block? := by
  induction more generalizing fields segment target rest with
  | nil => rw [descend_congr (get?_plant_of_ne h.ne_of_singleton.symm)]
  | cons next more ih =>
    by_cases he : segment = target
    · subst he
      have hi := Apart.cons_iff.mp h rfl
      obtain ⟨_, target, rest, rfl⟩ := hi.exists_cons
      cases ho : opening? (fields.get? segment) with
      | some inner =>
        rw [plant_open ho, descend_object (Entries.get?_insert_self fields), ih hi,
          descend_open ho]
      | none =>
        obtain ⟨obstacle, hp⟩ := plant_shut ho
        rw [hp]
    · rw [descend_congr (get?_plant_of_ne (Ne.symm he))]

end Json

namespace Variable

theorem toJson_eq_object {v : Variable} (h : v.toJson = .object fields) : v = .object fields := by
  cases v with
  | object inner =>
    cases h
    rfl
  | number n => cases n <;> cases h
  | _ => cases h

/-- The fields through which a path goes on from its root. -/
def opening? (found : Option Variable) : Option (Entries Json none) :=
  Json.opening? (found.map toJson)

@[simp]
theorem opening?_object : opening? (some (.object fields)) = some fields := rfl

theorem opening?_eq_some {found : Option Variable} (h : opening? found = some fields) :
    found = none ∧ fields = .nil ∨ found = some (.object fields) := by
  rcases Json.opening?_eq_some h with ⟨hn, hf⟩ | hs
  · exact Or.inl ⟨Option.map_eq_none_iff.mp hn, hf⟩
  · obtain ⟨v, rfl, hv⟩ := Option.map_eq_some_iff.mp hs
    exact Or.inr (congrArg some (toJson_eq_object hv))

theorem opening?_eq_none {found : Option Variable} (h : opening? found = none) :
    ∃ blocking, found = some blocking ∧ ∀ fields, blocking ≠ .object fields := by
  obtain ⟨value, hs, hb⟩ := Json.opening?_eq_none h
  obtain ⟨v, rfl, rfl⟩ := Option.map_eq_some_iff.mp hs
  refine ⟨v, rfl, ?_⟩
  rintro fields rfl
  exact hb fields rfl

end Variable

namespace Collection

variable {text : String} {given : Variable} {path : Path}

/-- What a path leads to, or what stands in its way. -/
def reach (c : Collection) (path : Path) : Except Obstacle Variable :=
  match c.get? path.root, path.rest with
  | none, _ => .error (.missing path.root)
  | some value, [] => .ok value
  | some (.object fields), segment :: more => (Json.descend fields segment more).map Variable.ofJson
  | some other, _ :: _ => .error (.blocked path.root other.kind)

theorem reach_object (hr : path.rest = segment :: more)
    (hg : c.get? path.root = some (.object fields)) :
    c.reach path = (Json.descend fields segment more).map Variable.ofJson := by
  rw [reach, hr, hg]

/-- Of the variables, a read looks only at the root of its path. -/
theorem reach_congr (h : c.get? path.root = d.get? path.root) : c.reach path = d.reach path := by
  rw [reach, reach, h]

theorem getNested_eq_reach (c : Collection) (text : String) :
    c.getNested text =
      (c.reach (Path.ofText text)).mapError (Obstacle.error (Path.ofText text)) := by
  cases hg : c.get? (Path.ofText text).root with
  | none =>
    rw [getNested_missing hg, reach, hg]
    simp [Except.mapError]
  | some found =>
    cases hr : (Path.ofText text).rest with
    | nil =>
      rw [getNested_root hr hg, reach, hg, hr]
      rfl
    | cons segment more =>
      cases found with
      | object fields =>
        rw [getNested_object hr hg, reach_object hr hg]
        cases Json.descend fields segment more <;> rfl
      | _ =>
        rw [getNested_blocked hr hg (fun _ => Variable.noConfusion), reach, hg, hr]
        simp [Except.mapError]

theorem reach_open (hr : path.rest = segment :: more)
    (ho : Variable.opening? (c.get? path.root) = some fields) :
    (c.reach path).mapError Obstacle.block? =
      ((Json.descend fields segment more).mapError Obstacle.block?).map Variable.ofJson := by
  rcases Variable.opening?_eq_some ho with ⟨hg, rfl⟩ | hg
  · rw [reach, hg, Json.descend_nil_fields]
    rfl
  · rw [reach_object hr hg]
    cases Json.descend fields segment more <;> rfl

theorem setNested_open (hr : (Path.ofText text).rest = segment :: more)
    (ho : Variable.opening? (c.get? (Path.ofText text).root) = some fields) :
    c.setNested text given =
      (Obstacle.result (Path.ofText text) (Json.plant given.toJson fields segment more).2,
        c.set (Path.ofText text).root
          (.object (Json.plant given.toJson fields segment more).1)) := by
  rcases Variable.opening?_eq_some ho with ⟨hg, rfl⟩ | hg
  · rw [setNested_missing hr hg, Json.plant_nil_obstacle]
    rfl
  · exact setNested_object hr hg

theorem setNested_shut (hr : (Path.ofText text).rest = segment :: more)
    (ho : Variable.opening? (c.get? (Path.ofText text).root) = none) :
    ∃ e, ∀ given, c.setNested text given = (.error e, c) := by
  obtain ⟨blocking, hg, hb⟩ := Variable.opening?_eq_none ho
  exact ⟨.notAnObject text (Path.ofText text).root blocking.kind,
    fun _ => setNested_blocked hr hg hb⟩

theorem root_eq_text (hr : (Path.ofText text).rest = []) : (Path.ofText text).root = text := by
  have hj := Path.joined_segments (Path.ofText text)
  rwa [Path.segments, hr, Path.text_ofText] at hj

/-- Of the variables, a write looks only at the root of its path, and it writes only that one. -/
theorem setNested_at (text : String) (given : Variable) (found : Option Variable) :
    ∃ put outcome, ∀ c : Collection, c.get? (Path.ofText text).root = found →
      c.setNested text given = (outcome, c.set (Path.ofText text).root put) := by
  cases hr : (Path.ofText text).rest with
  | nil =>
    refine ⟨given, .ok (), ?_⟩
    intro c _
    rw [setNested_root hr, root_eq_text hr]
  | cons segment more =>
    cases ho : Variable.opening? found with
    | some fields =>
      refine ⟨.object (Json.plant given.toJson fields segment more).1,
        Obstacle.result (Path.ofText text) (Json.plant given.toJson fields segment more).2, ?_⟩
      rintro c rfl
      exact setNested_open hr ho
    | none =>
      obtain ⟨blocking, rfl, hb⟩ := Variable.opening?_eq_none ho
      refine ⟨blocking, .error (.notAnObject text (Path.ofText text).root blocking.kind), ?_⟩
      intro c hg
      rw [set_of_get? hg]
      exact setNested_blocked hr hg hb

theorem get?_setNested_of_ne {name : String} (h : name ≠ (Path.ofText text).root) :
    (c.setNested text given).2.get? name = c.get? name := by
  obtain ⟨put, outcome, hs⟩ := setNested_at text given (c.get? (Path.ofText text).root)
  simp [hs c rfl, h]

theorem reach_setNested_apart (h : Apart (Path.ofText text).segments path.segments) :
    ((c.setNested text given).2.reach path).mapError Obstacle.block? =
      (c.reach path).mapError Obstacle.block? := by
  rw [Path.segments, Path.segments, Apart.cons_iff] at h
  by_cases he : (Path.ofText text).root = path.root
  · obtain ⟨⟨segment, more, hr⟩, target, rest, hr'⟩ := (h he).exists_cons
    cases ho : Variable.opening? (c.get? (Path.ofText text).root) with
    | some fields =>
      have hapart := h he
      rw [hr, hr'] at hapart
      have hafter : Variable.opening? ((c.setNested text given).2.get? path.root) =
          some (Json.plant given.toJson fields segment more).1 := by
        rw [setNested_open hr ho, get?_set, if_pos he.symm]
        rfl
      rw [reach_open hr' hafter, Json.descend_plant_apart hapart, reach_open hr' (he ▸ ho)]
    | none =>
      obtain ⟨e, hs⟩ := setNested_shut hr ho
      rw [hs]
  · rw [reach_congr (get?_setNested_of_ne (Ne.symm he))]

/-- A write, whether it succeeds or not, changes no variable but the root of its path. On a path
that parts from its own a value and a blocked way stay as they are, and where nothing was found
nothing is found, though perhaps at a later segment. -/
theorem setNested_frame (c : Collection) (text : String) (given : Variable) :
    (∀ name, name ≠ (Path.ofText text).root →
        (c.setNested text given).2.get? name = c.get? name) ∧
      ∀ other, ¬ (Path.ofText text).segments <+: (Path.ofText other).segments →
        ¬ (Path.ofText other).segments <+: (Path.ofText text).segments →
        (∀ value, c.getNested other = .ok value →
          (c.setNested text given).2.getNested other = .ok value) ∧
        (∀ path segment kind, c.getNested other = .error (.notAnObject path segment kind) →
          (c.setNested text given).2.getNested other =
            .error (.notAnObject path segment kind)) ∧
        (∀ path segment, c.getNested other = .error (.notFound path segment) →
          ∃ later, (c.setNested text given).2.getNested other =
            .error (.notFound path later)) := by
  refine ⟨fun name hn => get?_setNested_of_ne hn, ?_⟩
  intro other hp hq
  have hreach : ((c.setNested text given).2.reach (Path.ofText other)).mapError Obstacle.block? =
      (c.reach (Path.ofText other)).mapError Obstacle.block? := reach_setNested_apart ⟨hp, hq⟩
  rw [getNested_eq_reach, getNested_eq_reach]
  rcases Obstacle.eq_or_missing hreach with he | ⟨a, b, ha, hb⟩
  · rw [he]
    exact ⟨fun _ h => h, fun _ _ _ h => h, fun _ segment h => ⟨segment, h⟩⟩
  · rw [ha, hb]
    refine ⟨?_, ?_, ?_⟩
    · intro value h
      cases h
    · intro path segment kind h
      cases h
    · intro path segment h
      cases h
      exact ⟨b, rfl⟩

/-- Beside a write that creates two objects: a value, a text in the way, and a way that ended at the
first of these objects and now ends in it. -/
theorem setNested_frame_beside_new_objects :
    let c := ((empty.setNested "a.b" (.boolean true)).2.setNested "a.t" (.string "x")).2
    let after := (c.setNested "a.n.k.l" .null).2
    let parts (other : String) :=
      ¬ (Path.ofText "a.n.k.l").segments <+: (Path.ofText other).segments ∧
        ¬ (Path.ofText other).segments <+: (Path.ofText "a.n.k.l").segments
    (parts "a.b" ∧ c.getNested "a.b" = .ok (.boolean true) ∧
        after.getNested "a.b" = .ok (.boolean true)) ∧
      (parts "a.t.z" ∧ c.getNested "a.t.z" = .error (.notAnObject "a.t.z" "t" .string) ∧
        after.getNested "a.t.z" = .error (.notAnObject "a.t.z" "t" .string)) ∧
      parts "a.n.m" ∧ c.getNested "a.n.m" = .error (.notFound "a.n.m" "n") ∧
        ∃ later, after.getNested "a.n.m" = .error (.notFound "a.n.m" later) := by
  intro c after parts
  have hb : parts "a.b" := by decide
  have ht : parts "a.t.z" := by decide
  have hm : parts "a.n.m" := by decide
  have hf := (setNested_frame c "a.n.k.l" .null).2
  exact ⟨⟨hb, rfl, (hf "a.b" hb.1 hb.2).1 _ rfl⟩, ⟨ht, rfl, (hf "a.t.z" ht.1 ht.2).2.1 _ _ _ rfl⟩,
    hm, rfl, (hf "a.n.m" hm.1 hm.2).2.2 _ _ rfl⟩

end Collection
end DocTemplate
