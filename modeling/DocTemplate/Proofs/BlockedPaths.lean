import DocTemplate.Proofs.PathParts

/-! What is in the way of a write is in the way of a read. Both end at the first value along a path
that is no object and has segments behind it. -/
namespace DocTemplate

variable {c : Collection} {value : Json} {fields : Entries Json none} {path : Path}
  {text segment : String} {more : List String} {kind : Kind}

/-- What a write meets on a way that ends so. Where nothing stands it goes on. -/
def Obstacle.blocking? {α : Type} : Except Obstacle α → Option Obstacle
  | .error (.blocked segment kind) => some (.blocked segment kind)
  | _ => none

theorem Json.plant_obstacle :
    (plant value fields segment more).2 = Obstacle.blocking? (descend fields segment more) := by
  induction more generalizing fields segment with
  | nil =>
    rw [plant, descend]
    cases fields.get? segment <;> rfl
  | cons next more ih =>
    cases hf : fields.get? segment with
    | none => simp [plant_missing hf, descend, hf, Obstacle.blocking?]
    | some found =>
      cases found with
      | object inner =>
        rw [plant_object hf, descend_object hf]
        exact ih
      | _ =>
        rw [plant_blocked hf (fun _ => Json.noConfusion), descend, hf]
        rfl

namespace Collection

variable {given found : Variable} {front back : String}

/-- A write fails where its path is blocked, and nowhere else. -/
theorem setNested_outcome (c : Collection) (text : String) (given : Variable) :
    (c.setNested text given).1 =
      match c.reach (Path.ofText text) with
      | .error (.blocked segment kind) => .error (.notAnObject text segment kind)
      | _ => .ok () := by
  cases hr : (Path.ofText text).rest with
  | nil =>
    rw [setNested_root hr, reach, hr]
    cases c.get? (Path.ofText text).root <;> rfl
  | cons segment more =>
    cases hg : c.get? (Path.ofText text).root with
    | none =>
      rw [setNested_missing hr hg, reach, hg]
    | some found =>
      cases found with
      | object fields =>
        rw [setNested_object hr hg, reach_object hr hg, Json.plant_obstacle]
        cases Json.descend fields segment more with
        | ok value => rfl
        | error obstacle =>
          cases obstacle <;> simp [Obstacle.blocking?, Obstacle.result, Except.map]
      | _ => rw [setNested_blocked hr hg (fun _ => Variable.noConfusion), reach, hg, hr]

/-- A read and a write along one path end in one of three ways. -/
theorem outcomes (c : Collection) (text : String) (given : Variable) :
    (∃ value, c.getNested text = .ok value ∧ (c.setNested text given).1 = .ok ()) ∨
    (∃ segment, c.getNested text = .error (.notFound text segment) ∧
      (c.setNested text given).1 = .ok ()) ∨
    ∃ segment kind, c.getNested text = .error (.notAnObject text segment kind) ∧
      (c.setNested text given).1 = .error (.notAnObject text segment kind) := by
  rw [getNested_eq_reach, setNested_outcome]
  cases c.reach (Path.ofText text) with
  | ok value => exact Or.inl ⟨value, rfl, rfl⟩
  | error obstacle =>
    right
    cases obstacle with
    | missing segment => exact Or.inl ⟨segment, by simp [Except.mapError], rfl⟩
    | blocked segment kind => exact Or.inr ⟨segment, kind, by simp [Except.mapError], rfl⟩

theorem setNested_eq_error_iff {e : VariableError} :
    (c.setNested text given).1 = .error e ↔
      c.getNested text = .error e ∧ ∃ path segment kind, e = .notAnObject path segment kind := by
  rcases outcomes c text given with ⟨value, hr, hw⟩ | ⟨segment, hr, hw⟩ | ⟨segment, kind, hr, hw⟩
  · simp [hr, hw]
  · rw [hr, hw]
    constructor
    · intro h
      cases h
    · rintro ⟨h, path, other, kind, rfl⟩
      cases h
  · rw [hr, hw]
    constructor
    · intro h
      cases h
      exact ⟨rfl, text, segment, kind, rfl⟩
    · rintro ⟨h, _⟩
      cases h
      rfl

theorem setNested_eq_ok_iff : (c.setNested text given).1 = .ok () ↔
    (∃ value, c.getNested text = .ok value) ∨
      ∃ path segment, c.getNested text = .error (.notFound path segment) := by
  rcases outcomes c text given with ⟨value, hr, hw⟩ | ⟨segment, hr, hw⟩ | ⟨segment, kind, hr, hw⟩
  · simp [hr, hw]
  · simp [hr, hw]
  · simp [hr, hw]

theorem getNested_eq_ok_iff : c.getNested text = .ok found ↔
    c.reach (Path.ofText text) = .ok found := by
  rw [getNested_eq_reach]
  cases c.reach (Path.ofText text) <;> simp [Except.mapError]

theorem setNested_eq_blocked_iff :
    (c.setNested text given).1 = .error (.notAnObject text segment kind) ↔
      c.reach (Path.ofText text) = .error (.blocked segment kind) := by
  rw [setNested_outcome]
  cases c.reach (Path.ofText text) with
  | ok value => simp
  | error obstacle => cases obstacle <;> simp

/-- A single segment is never blocked. -/
theorem reach_root_ne_blocked (hr : path.rest = []) :
    c.reach path ≠ .error (.blocked segment kind) := by
  intro h
  rw [reach, hr] at h
  cases hg : c.get? path.root with
  | none =>
    rw [hg] at h
    cases h
  | some value =>
    rw [hg] at h
    cases h

/-- An initial part of a blocked path leads to the value that blocks it. -/
theorem exists_blocking_part (h : c.reach path = .error (.blocked segment kind)) :
    ∃ front back value, path = front.append back ∧ c.reach front = .ok value ∧
      value.kind ≠ .object ∧ segment = front.last ∧ kind = value.kind := by
  generalize hr : path.rest = rest
  induction rest generalizing c path with
  | nil => exact (reach_root_ne_blocked hr h).elim
  | cons next more ih =>
    obtain ⟨root, tail, rfl, hroot, htail⟩ := Path.exists_root_of_rest hr
    rw [reach_append] at h
    cases hv : c.reach root with
    | error obstacle =>
      rw [hv] at h
      cases h
      exact (reach_root_ne_blocked hroot hv).elim
    | ok value =>
      rw [hv] at h
      cases value with
      | object fields =>
        obtain ⟨front, back, value, rfl, hfront, hkind, hlast, hvalue⟩ := ih h htail
        refine ⟨root.append front, back, value, (Path.append_assoc root front back).symm, ?_,
          hkind, ?_, hvalue⟩
        · rw [reach_append, hv]
          exact hfront
        · rw [Path.last_append]
          exact hlast
      | _ =>
        cases h
        exact ⟨root, tail, _, rfl, hv, Kind.noConfusion, rfl, rfl⟩

theorem reach_of_blocking_part {front back : Path} (hv : c.reach front = .ok found)
    (hk : found.kind ≠ .object) :
    c.reach (front.append back) = .error (.blocked front.last found.kind) := by
  rw [reach_append, hv]
  cases found with
  | object fields => exact (hk rfl).elim
  | _ => rfl

/-- Every initial part of a path that leads to a variable leads to an object. -/
theorem exists_object_of_reach {front back : Path} (h : c.reach (front.append back) = .ok found) :
    ∃ fields, c.reach front = .ok (.object fields) := by
  rw [reach_append] at h
  cases hv : c.reach front with
  | error obstacle =>
    rw [hv] at h
    cases h
  | ok value =>
    rw [hv] at h
    cases value with
    | object fields => exact ⟨fields, rfl⟩
    | _ => cases h

/-- A write fails exactly where a read finds a value in its way, and with the very error of the
read: where the read succeeds or finds nothing, the write succeeds. In the way is the first value
along the path that is no object although segments follow; the error names its segment and its
kind. -/
theorem setNested_fails_where_blocked (c : Collection) (text : String) (given : Variable) :
    ((c.setNested text given).1 = .ok () ∨
      ∃ segment kind, (c.setNested text given).1 = .error (.notAnObject text segment kind)) ∧
    (∀ e, (c.setNested text given).1 = .error e ↔
      c.getNested text = .error e ∧ ∃ path segment kind, e = .notAnObject path segment kind) ∧
    ((c.setNested text given).1 = .ok () ↔
      (∃ value, c.getNested text = .ok value) ∨
        ∃ path segment, c.getNested text = .error (.notFound path segment)) ∧
    ∀ segment kind, (c.setNested text given).1 = .error (.notAnObject text segment kind) ↔
      ∃ front back value, text = front ++ "." ++ back ∧
        (∀ start more, front = start ++ "." ++ more →
          ∃ fields, c.getNested start = .ok (.object fields)) ∧
        c.getNested front = .ok value ∧ value.kind ≠ .object ∧
        segment = (Path.ofText front).last ∧ kind = value.kind := by
  refine ⟨?_, fun _ => setNested_eq_error_iff, setNested_eq_ok_iff, ?_⟩
  · rcases outcomes c text given with ⟨_, _, hw⟩ | ⟨_, _, hw⟩ | ⟨segment, kind, _, hw⟩
    · exact Or.inl hw
    · exact Or.inl hw
    · exact Or.inr ⟨segment, kind, hw⟩
  · intro segment kind
    rw [setNested_eq_blocked_iff]
    constructor
    · intro h
      obtain ⟨front, back, value, hp, hv, hk, hs, he⟩ := exists_blocking_part h
      have ht : text = front.text ++ "." ++ back.text := by simpa using congrArg Path.text hp
      rw [← Path.ofText_text front] at hv hs
      refine ⟨front.text, back.text, value, ht, ?_, getNested_eq_ok_iff.mpr hv, hk, hs, he⟩
      intro start more hstart
      rw [hstart, Path.ofText_append] at hv
      obtain ⟨fields, hf⟩ := exists_object_of_reach hv
      exact ⟨fields, getNested_eq_ok_iff.mpr hf⟩
    · rintro ⟨front, back, value, rfl, _, hv, hk, rfl, rfl⟩
      rw [Path.ofText_append]
      exact reach_of_blocking_part (getNested_eq_ok_iff.mp hv) hk

/-- A number inside an object blocks a path that goes on for two segments; a path that parts from it
one segment earlier is free. -/
theorem setNested_fails_where_blocked_by_number :
    let c := (empty.setNested "a.b" (.number .zero)).2
    let e := VariableError.notAnObject "a.b.c.d" "b" .number
    (c.getNested "a.b.c.d" = .error e ∧ (c.setNested "a.b.c.d" .null).1 = .error e ∧
        ∃ front back value, "a.b.c.d" = front ++ "." ++ back ∧
          (∀ start more, front = start ++ "." ++ more →
            ∃ fields, c.getNested start = .ok (.object fields)) ∧
          c.getNested front = .ok value ∧ value.kind ≠ .object ∧
          "b" = (Path.ofText front).last ∧ Kind.number = value.kind) ∧
      c.getNested "a.c.d" = .error (.notFound "a.c.d" "c") ∧
        (c.setNested "a.c.d" .null).1 = .ok () := by
  intro c e
  obtain ⟨_, hsame, _, hfirst⟩ := setNested_fails_where_blocked c "a.b.c.d" .null
  obtain ⟨_, _, hfree, _⟩ := setNested_fails_where_blocked c "a.c.d" .null
  have hread : c.getNested "a.b.c.d" = .error e := rfl
  have hnone : c.getNested "a.c.d" = .error (.notFound "a.c.d" "c") := rfl
  have hwrite := (hsame e).mpr ⟨hread, _, _, _, rfl⟩
  exact ⟨⟨hread, hwrite, (hfirst "b" .number).mp hwrite⟩, hnone,
    hfree.mpr (Or.inr ⟨_, _, hnone⟩)⟩

end Collection
end DocTemplate
