import DocTemplate.Proofs.NestedFrame
import DocTemplate.Proofs.RawForm

/-! What is read along a path after a write along it: the value that was written, and objects all
the way to it. -/
namespace DocTemplate

variable {c : Collection} {value : Json} {fields : Entries Json none}
  {segment next : String} {more front back : List String}

namespace Json

/-- A write that met nothing in its way is found at the end of it. -/
theorem descend_plant (h : (plant value fields segment more).2 = none) :
    descend (plant value fields segment more).1 segment more = .ok value := by
  induction more generalizing fields segment with
  | nil => simp [plant, descend]
  | cons next more ih =>
    cases ho : opening? (fields.get? segment) with
    | some inner =>
      rw [plant_open ho] at h ⊢
      rw [descend_object (Entries.get?_insert_self fields)]
      exact ih h
    | none =>
      obtain ⟨obstacle, hp⟩ := plant_shut ho
      rw [hp] at h
      cases h

theorem exists_object_of_descend (h : descend fields segment (next :: more) = .ok value) :
    ∃ inner, fields.get? segment = some (.object inner) ∧
      descend inner next more = .ok value := by
  cases hf : fields.get? segment with
  | none =>
    rw [descend, hf] at h
    cases h
  | some found =>
    cases found with
    | object inner =>
      rw [descend_object hf] at h
      exact ⟨inner, rfl, h⟩
    | _ =>
      rw [descend, hf] at h
      cases h

theorem contains_of_descend (h : descend fields segment more = .ok value) :
    fields.contains segment = true := by
  cases hf : fields.get? segment with
  | some found => rw [Entries.contains, hf]; rfl
  | none => cases more <;> rw [descend, hf] at h <;> cases h

/-- On the way to a value stand objects, each with the next segment among its fields. -/
theorem exists_object_on_way (h : descend fields segment (front ++ next :: back) = .ok value) :
    ∃ inner, descend fields segment front = .ok (.object inner) ∧
      inner.contains next = true := by
  induction front generalizing fields segment with
  | nil =>
    obtain ⟨inner, hf, hd⟩ := exists_object_of_descend h
    refine ⟨inner, ?_, contains_of_descend hd⟩
    rw [descend, hf]
  | cons first front ih =>
    obtain ⟨inner, hf, hd⟩ := exists_object_of_descend h
    rw [descend_object hf]
    exact ih hd

end Json

namespace Collection

variable {text : String} {given found : Variable}

theorem exists_object_of_getNested (hr : (Path.ofText text).rest = segment :: more)
    (h : c.getNested text = .ok found) :
    ∃ fields value, c.get? (Path.ofText text).root = some (.object fields) ∧
      Json.descend fields segment more = .ok value := by
  cases hg : c.get? (Path.ofText text).root with
  | none =>
    rw [getNested_missing hg] at h
    cases h
  | some root =>
    cases root with
    | object fields =>
      rw [getNested_object hr hg] at h
      cases hd : Json.descend fields segment more with
      | ok value => exact ⟨fields, value, rfl, hd⟩
      | error obstacle =>
        rw [hd] at h
        cases h
    | _ =>
      rw [getNested_blocked hr hg (fun _ => Variable.noConfusion)] at h
      cases h

/-- On the path to a variable stand objects, each with the next segment among its fields. -/
theorem exists_object_on_path (h : c.getNested text = .ok found)
    (hs : (Path.ofText text).segments = front ++ next :: back) (hne : front ≠ []) :
    ∃ fields, c.getNested (Text.joined "." front) = .ok (.object fields) ∧
      fields.contains next = true := by
  have hd : ∀ segment ∈ front, '.' ∉ segment.toList := by
    intro segment hm
    have ht : segment ∈ (Path.ofText text).segments := by
      rw [hs]
      exact List.mem_append_left _ hm
    exact Path.dotFree_of_mem ht
  have hfront := Path.segments_joined hne hd
  obtain ⟨root, front, rfl⟩ := List.exists_cons_of_ne_nil hne
  obtain ⟨hroot, hrest⟩ := List.cons.inj hs
  obtain ⟨hroot', hrest'⟩ := List.cons.inj hfront
  cases front with
  | nil =>
    obtain ⟨fields, value, hg, hv⟩ := exists_object_of_getNested hrest h
    rw [hroot, ← hroot'] at hg
    exact ⟨fields, getNested_root hrest' hg, Json.contains_of_descend hv⟩
  | cons first front =>
    obtain ⟨fields, value, hg, hv⟩ := exists_object_of_getNested hrest h
    rw [hroot, ← hroot'] at hg
    obtain ⟨inner, hi, hc⟩ := Json.exists_object_on_way hv
    refine ⟨inner, ?_, hc⟩
    rw [getNested_object hrest' hg, hi]
    rfl

theorem getNested_setNested_root (hr : (Path.ofText text).rest = []) :
    (c.setNested text given).2.getNested text = .ok given := by
  apply getNested_root hr
  rw [setNested_root hr, root_eq_text hr, get?_set_self]

theorem getNested_setNested_below (hr : (Path.ofText text).rest = segment :: more)
    (h : (c.setNested text given).1 = .ok ()) :
    (c.setNested text given).2.getNested text = .ok (.ofJson given.toJson) := by
  cases ho : Variable.opening? (c.get? (Path.ofText text).root) with
  | some fields =>
    rw [setNested_open hr ho] at h ⊢
    have hn : (Json.plant given.toJson fields segment more).2 = none := by
      cases hp : (Json.plant given.toJson fields segment more).2 with
      | none => rfl
      | some obstacle =>
        rw [hp] at h
        cases h
    rw [getNested_object hr get?_set_self, Json.descend_plant hn]
    rfl
  | none =>
    obtain ⟨e, hs⟩ := setNested_shut hr ho
    rw [hs] at h
    cases h

theorem exists_getNested_setNested (h : (c.setNested text given).1 = .ok ()) :
    ∃ found, (c.setNested text given).2.getNested text = .ok found := by
  cases hr : (Path.ofText text).rest with
  | nil => exact ⟨_, getNested_setNested_root hr⟩
  | cons segment more => exact ⟨_, getNested_setNested_below hr h⟩

/-- After a write that succeeded its path reads the variable that was written. Below the root it is
stored as a JSON value, and read back from it, which makes no difference to any variable that
has one. On the way stand objects that have the next segment. -/
theorem setNested_then_getNested (h : (c.setNested text given).1 = .ok ()) :
    ((Path.ofText text).segments.length = 1 →
        (c.setNested text given).2.getNested text = .ok given) ∧
      (1 < (Path.ofText text).segments.length →
        (c.setNested text given).2.getNested text = .ok (.ofJson given.toJson)) ∧
      (given.isFinite = true → (Variable.ofJson given.toJson).same given = true) ∧
      ∀ front next back, (Path.ofText text).segments = front ++ next :: back → front ≠ [] →
        ∃ fields, (c.setNested text given).2.getNested (Text.joined "." front) =
            .ok (.object fields) ∧ fields.contains next = true := by
  refine ⟨?_, ?_, Variable.ofJson_toJson_same, ?_⟩
  · intro hl
    rw [Path.segments, List.length_cons, Nat.add_eq_right, List.length_eq_zero_iff] at hl
    exact getNested_setNested_root hl
  · intro hl
    rw [Path.segments, List.length_cons] at hl
    obtain ⟨segment, more, hr⟩ := List.exists_cons_of_length_pos (Nat.lt_of_succ_lt_succ hl)
    exact getNested_setNested_below hr h
  · intro front next back hs hne
    obtain ⟨found, hf⟩ := exists_getNested_setNested h
    exact exists_object_on_path hf hs hne

/-- The negative zero becomes an integer below an object that is created, and stays as it is at the
root. -/
theorem getNested_of_negative_zero :
    let c := (empty.setNested "a.b" (.string "x")).2
    let given := Variable.number (.finite (.zero true))
    let below := c.setNested "a..k" given
    let top := c.setNested "a" given
    (below.1 = .ok () ∧ 1 < (Path.ofText "a..k").segments.length ∧ given.isFinite = true ∧
        (Path.ofText "a..k").segments = ["a"] ++ "" :: ["k"] ∧
        below.2.getNested "a..k" = .ok (.ofJson given.toJson) ∧
        (Variable.ofJson given.toJson).same given = true ∧
        ∃ fields, below.2.getNested "a" = .ok (.object fields) ∧ fields.contains "" = true) ∧
      top.1 = .ok () ∧ (Path.ofText "a").segments.length = 1 ∧
        top.2.getNested "a" = .ok given := by
  intro c given below top
  have hb : below.1 = .ok () := rfl
  have ht : top.1 = .ok () := rfl
  obtain ⟨_, hread, hsame, hway⟩ := setNested_then_getNested hb
  exact ⟨⟨hb, by decide, rfl, rfl, hread (by decide), hsame rfl,
      hway ["a"] "" ["k"] rfl (List.cons_ne_nil _ _)⟩,
    ht, rfl, (setNested_then_getNested ht).1 rfl⟩

end Collection
end DocTemplate
