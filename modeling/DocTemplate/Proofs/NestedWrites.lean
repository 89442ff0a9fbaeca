import DocTemplate.Proofs.Collections

/-! Writes along a path. What is in the way is met before anything is created. -/
namespace DocTemplate

variable {c : Collection} {value : Json} {fields inner : Entries Json none}
  {segment next : String} {more : List String} {obstacle : Obstacle}

namespace Json

theorem plant_object (h : fields.get? segment = some (.object inner)) :
    plant value fields segment (next :: more) =
      (fields.insert segment (.object (plant value inner next more).1),
        (plant value inner next more).2) := by
  rw [plant, h]

theorem plant_missing (h : fields.get? segment = none) :
    plant value fields segment (next :: more) =
      (fields.insert segment (.object (plant value .nil next more).1),
        (plant value .nil next more).2) := by
  rw [plant, h]

theorem plant_blocked {other : Json} (h : fields.get? segment = some other)
    (ho : ∀ inner, other ≠ .object inner) :
    plant value fields segment (next :: more) =
      (fields, some (.blocked segment other.kind)) := by
  rw [plant, h]
  cases other with
  | object inner => exact (ho inner rfl).elim
  | _ => rfl

/-- Nothing is in the way in an object that was just created. -/
@[simp]
theorem plant_nil_obstacle : (plant value .nil segment more).2 = none := by
  induction more generalizing segment with
  | nil => rfl
  | cons next more ih =>
    rw [plant_missing rfl]
    exact ih

/-- A write that meets an obstacle leaves the fields as they were: on the way to it there were
objects only, and each of them is put back as it was. -/
theorem plant_unchanged_of_obstacle (h : (plant value fields segment more).2 = some obstacle) :
    (plant value fields segment more).1 = fields := by
  induction more generalizing fields segment with
  | nil => cases h
  | cons next more ih =>
    cases hf : fields.get? segment with
    | none =>
      rw [plant_missing hf, plant_nil_obstacle] at h
      cases h
    | some found =>
      cases found with
      | object inner =>
        rw [plant_object hf] at h ⊢
        have hi : (plant value inner next more).1 = inner := ih h
        rw [hi]
        exact Entries.insert_of_get? hf
      | _ =>
        rw [plant_blocked hf (fun _ => Json.noConfusion)]

end Json

/-- How a write along a path ends. -/
def Obstacle.result (path : Path) : Option Obstacle → Except VariableError Unit
  | none => .ok ()
  | some obstacle => .error (obstacle.error path)

namespace Collection

variable {text : String} {given : Variable}

theorem setNested_root (hr : (Path.ofText text).rest = []) :
    c.setNested text given = (.ok (), c.set text given) := by
  simp only [setNested, hr]

theorem setNested_missing (hr : (Path.ofText text).rest = segment :: more)
    (hg : c.get? (Path.ofText text).root = none) :
    c.setNested text given =
      (.ok (), c.set (Path.ofText text).root
        (.object (Json.plant given.toJson .nil segment more).1)) := by
  simp only [setNested, hr, hg, Json.plant_nil_obstacle]

theorem setNested_object (hr : (Path.ofText text).rest = segment :: more)
    (hg : c.get? (Path.ofText text).root = some (.object fields)) :
    c.setNested text given =
      (Obstacle.result (Path.ofText text) (Json.plant given.toJson fields segment more).2,
        c.set (Path.ofText text).root
          (.object (Json.plant given.toJson fields segment more).1)) := by
  simp only [setNested, hr, hg]
  rfl

theorem setNested_blocked {other : Variable} (hr : (Path.ofText text).rest = segment :: more)
    (hg : c.get? (Path.ofText text).root = some other) (ho : ∀ fields, other ≠ .object fields) :
    c.setNested text given =
      (.error (.notAnObject text (Path.ofText text).root other.kind), c) := by
  cases other with
  | object fields => exact (ho fields rfl).elim
  | _ => simp only [setNested, hr, hg]

/-- A write that fails changes nothing at any depth, although objects are created on the way before
its end is known. -/
theorem setNested_failed_unchanged {e : VariableError}
    (h : (c.setNested text given).1 = .error e) : (c.setNested text given).2 = c := by
  cases hr : (Path.ofText text).rest with
  | nil =>
    rw [setNested_root hr] at h
    cases h
  | cons segment more =>
    cases hg : c.get? (Path.ofText text).root with
    | none =>
      rw [setNested_missing hr hg] at h
      cases h
    | some found =>
      by_cases ho : ∃ fields, found = .object fields
      · obtain ⟨fields, rfl⟩ := ho
        rw [setNested_object hr hg] at h ⊢
        cases hb : (Json.plant given.toJson fields segment more).2 with
        | none =>
          rw [hb] at h
          cases h
        | some obstacle =>
          rw [Json.plant_unchanged_of_obstacle hb]
          exact set_of_get? hg
      · rw [setNested_blocked hr hg (fun fields he => ho ⟨fields, he⟩)]

/-- A text stands in the way below two objects. -/
theorem setNested_through_text_unchanged :
    let c := (empty.setNested "user.name.first" (.string "Ann")).2
    (c.setNested "user.name.first.a.b" .null).1 =
        .error (.notAnObject "user.name.first.a.b" "first" .string) ∧
      (c.setNested "user.name.first.a.b" .null).2 = c :=
  ⟨rfl, setNested_failed_unchanged rfl⟩

end Collection
end DocTemplate
