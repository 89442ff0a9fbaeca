import DocTemplate.Proofs.RawRoundTrip
import DocTemplate.Proofs.ReadBack

/-! A variable that was read along a path, written back along it. Nothing changes but a number
inside an object, which is written in the form that a variable gives it. -/
namespace DocTemplate

variable {c : Collection} {x : Json} {fields inner : Entries Json none} {f : Json → Json}
  {segment : String} {more : List String}

namespace Entries

variable {α : Type} {low : Option String} {name other : String} {value : α}

/-- The entries with the value under one key changed. -/
def adjust (name : String) (f : α → α) : {low : Option String} → Entries α low → Entries α low
  | _, .nil => .nil
  | _, .cons key above value rest =>
    .cons key above (if key = name then f value else value) (rest.adjust name f)

theorem get?_adjust (f : α → α) (entries : Entries α low) :
    (entries.adjust name f).get? other =
      if other = name then (entries.get? other).map f else entries.get? other := by
  induction entries with
  | nil =>
    rw [adjust, get?]
    split <;> rfl
  | cons key above value rest ih =>
    rw [adjust, get?_cons, get?_cons, ih]
    by_cases he : other = key
    · subst he
      rw [if_pos rfl, if_pos rfl]
      split <;> rfl
    · rw [if_neg he, if_neg he]

/-- Of a key that is there the value is changed in its place. -/
theorem insert_eq_adjust {f : α → α} {entries : Entries α none}
    (h : entries.get? name = some value) :
    entries.insert name (f value) = entries.adjust name f := by
  apply ext
  intro other
  rw [get?_insert, get?_adjust]
  by_cases he : other = name
  · subst he
    rw [if_pos rfl, if_pos rfl, h, Option.map_some]
  · rw [if_neg he, if_neg he]

end Entries

namespace Json

/-- An object with its fields changed. -/
def inside (g : Entries Json none → Entries Json none) : Json → Json
  | .object fields => .object (g fields)
  | other => other

/-- The fields with the value at the end of a way changed, where objects lead to one. -/
def adjustAt (f : Json → Json) (fields : Entries Json none) (segment : String) :
    List String → Entries Json none
  | [] => fields.adjust segment f
  | next :: more => fields.adjust segment (inside fun inner => adjustAt f inner next more)

theorem descend_last (h : descend fields segment [] = .ok x) : fields.get? segment = some x := by
  cases hf : fields.get? segment with
  | none =>
    rw [descend, hf] at h
    cases h
  | some found =>
    rw [descend, hf] at h
    cases h
    rfl

/-- A write where a value stands changes that value in its place, and nothing is in its way. -/
theorem plant_eq_adjustAt (h : descend fields segment more = .ok x) :
    plant (f x) fields segment more = (adjustAt f fields segment more, none) := by
  induction more generalizing fields segment with
  | nil => rw [plant, adjustAt, Entries.insert_eq_adjust (descend_last h)]
  | cons next more ih =>
    obtain ⟨inner, hf, hd⟩ := exists_object_of_descend h
    rw [plant_object hf, ih hd, adjustAt]
    exact congrArg (·, none) (Entries.insert_eq_adjust
      (f := inside fun inner => adjustAt f inner next more) hf)

/-- A value that is not changed leaves the fields as they are, at every level above it. -/
theorem adjustAt_of_fixed (h : descend fields segment more = .ok x) (hx : f x = x) :
    adjustAt f fields segment more = fields := by
  induction more generalizing fields segment with
  | nil =>
    have hf := descend_last h
    rw [adjustAt, ← Entries.insert_eq_adjust hf, hx]
    exact Entries.insert_of_get? hf
  | cons next more ih =>
    obtain ⟨inner, hf, hd⟩ := exists_object_of_descend h
    rw [adjustAt, ← Entries.insert_eq_adjust hf, inside, ih hd]
    exact Entries.insert_of_get? hf

end Json

namespace Collection

variable {text : String} {v : Variable} {path : Path}

/-- The JSON value that stands inside an object at the end of a path. -/
def stored? (c : Collection) (path : Path) : Option Json :=
  match c.get? path.root, path.rest with
  | some (.object fields), segment :: more => (Json.descend fields segment more).toOption
  | _, _ => none

/-- The collection with the JSON value at the end of a path changed. -/
def adjustAt (f : Json → Json) (c : Collection) (path : Path) : Collection :=
  match path.rest with
  | [] => c
  | segment :: more => ⟨c.entries.adjust path.root fun
      | .object fields => .object (Json.adjustAt f fields segment more)
      | other => other⟩

theorem stored?_object (hr : path.rest = segment :: more)
    (hg : c.get? path.root = some (.object fields)) :
    c.stored? path = (Json.descend fields segment more).toOption := by
  rw [stored?, hr, hg]

theorem set_eq_adjustAt (hr : path.rest = segment :: more)
    (hg : c.get? path.root = some (.object fields)) :
    c.set path.root (.object (Json.adjustAt f fields segment more)) = c.adjustAt f path := by
  rw [adjustAt, hr]
  exact congrArg mk (Entries.insert_eq_adjust
    (f := fun | .object fields => .object (Json.adjustAt f fields segment more) | other => other)
    hg)

theorem stored?_setNested (hr : (Path.ofText text).rest = segment :: more)
    (hg : c.get? (Path.ofText text).root = some (.object fields))
    (h : Json.descend fields segment more = .ok x) :
    (c.setNested text v).2.stored? (Path.ofText text) = some v.toJson := by
  have hp := Json.plant_eq_adjustAt (f := fun _ => v.toJson) h
  have hn : (Json.plant v.toJson fields segment more).2 = none := congrArg Prod.snd hp
  rw [setNested_object hr hg, stored?_object hr get?_set_self, Json.descend_plant hn]
  rfl

/-- A variable is read from a JSON value wherever its path goes on below the root. -/
theorem exists_stored_of_getNested (hr : (Path.ofText text).rest = segment :: more)
    (h : c.getNested text = .ok v) :
    ∃ fields x, c.get? (Path.ofText text).root = some (.object fields) ∧
      Json.descend fields segment more = .ok x ∧ v = .ofJson x := by
  obtain ⟨fields, x, hg, hd⟩ := exists_object_of_getNested hr h
  refine ⟨fields, x, hg, hd, ?_⟩
  rw [getNested_object hr hg, hd] at h
  cases h
  rfl

theorem setNested_getNested_root (hr : (Path.ofText text).rest = [])
    (h : c.getNested text = .ok v) : c.setNested text v = (.ok (), c) := by
  rw [setNested_root hr]
  cases hg : c.get? (Path.ofText text).root with
  | none =>
    rw [getNested_missing hg] at h
    cases h
  | some found =>
    rw [getNested_root hr hg] at h
    cases h
    rw [root_eq_text hr] at hg
    rw [set_of_get? hg]

theorem setNested_ofJson (hr : (Path.ofText text).rest = segment :: more)
    (hg : c.get? (Path.ofText text).root = some (.object fields))
    (h : Json.descend fields segment more = .ok x) :
    c.setNested text (.ofJson x) =
      (.ok (), c.adjustAt (fun x => (Variable.ofJson x).toJson) (Path.ofText text)) := by
  have hp := Json.plant_eq_adjustAt (f := fun x => (Variable.ofJson x).toJson) h
  rw [setNested_object hr hg, hp, ← set_eq_adjustAt hr hg]
  rfl

/-- Writing back what was read succeeds. The collection stays as it was, but that a number inside an
object is replaced by the number a variable writes for it; so it stays as it was just if that number
is an integer of absolute value below 2^53, or a float that is no whole number or not below 2^53. -/
theorem setNested_getNested (h : c.getNested text = .ok v) :
    (c.setNested text v).1 = .ok () ∧
      ((Path.ofText text).segments.length = 1 → (c.setNested text v).2 = c) ∧
      (1 < (Path.ofText text).segments.length → ∃ x, c.stored? (Path.ofText text) = some x ∧
        (c.setNested text v).2 =
          c.adjustAt (fun x => (Variable.ofJson x).toJson) (Path.ofText text) ∧
        ((∀ n, x ≠ .number n) → (c.setNested text v).2 = c) ∧
        ∀ n, x = .number n → ((c.setNested text v).2 = c ↔ n.Exact)) := by
  cases hr : (Path.ofText text).rest with
  | nil =>
    rw [setNested_getNested_root hr h, Path.segments, hr]
    refine ⟨rfl, fun _ => rfl, fun hl => ?_⟩
    exact (Nat.lt_irrefl 1 hl).elim
  | cons segment more =>
    obtain ⟨fields, x, hg, hd, rfl⟩ := exists_stored_of_getNested hr h
    have hs := setNested_ofJson hr hg hd
    have hx : c.stored? (Path.ofText text) = some x := by
      rw [stored?_object hr hg, hd]
      rfl
    have hkept : x.Exact → (c.setNested text (.ofJson x)).2 = c := by
      intro he
      have hfixed := Json.adjustAt_of_fixed (f := fun x => (Variable.ofJson x).toJson) hd
        (Variable.toJson_ofJson_of_exact he)
      rw [hs, ← set_eq_adjustAt hr hg, hfixed, set_of_get? hg]
    -- What is stored afterwards is the written form, so it is what was stored before.
    have hexact : (c.setNested text (.ofJson x)).2 = c → x.Exact := by
      intro hc
      have hafter : _ = some (Variable.ofJson x).toJson := stored?_setNested hr hg hd
      rw [hc, hx, Option.some.injEq] at hafter
      apply Variable.exact_of_same
      rw [← hafter]
      exact Json.same_self x
    refine ⟨congrArg Prod.fst hs, ?_, fun _ => ⟨x, hx, congrArg Prod.snd hs, ?_, ?_⟩⟩
    · intro hl
      rw [Path.segments, hr] at hl
      cases hl
    · intro hn
      apply hkept
      cases x with
      | number n => exact (hn n rfl).elim
      | _ => trivial
    · rintro n rfl
      exact ⟨hexact, hkept⟩

/-- An object whose number is 2^53 as an integer. The number comes back as a float; the text beside
it and the object as a whole come back as they were. -/
theorem setNested_getNested_beside_edge :
    let edge := Number.integer 9007199254740992 (by decide) (by decide)
    let c := ofFields (.cons "user" trivial (.object (.cons "age" trivial (.number edge)
      (.cons "name" (by decide : "age" < "name") (.string "Ann") .nil))) .nil)
    let age := Variable.ofJson (.number edge)
    (c.getNested "user.age" = .ok age ∧ 1 < (Path.ofText "user.age").segments.length ∧
        (c.setNested "user.age" age).1 = .ok () ∧ ¬ edge.Exact ∧
        (c.setNested "user.age" age).2 ≠ c) ∧
      (c.getNested "user.name" = .ok (.string "Ann") ∧
        (c.setNested "user.name" (.string "Ann")).2 = c) ∧
      ∃ user, c.getNested "user" = .ok user ∧ (Path.ofText "user").segments.length = 1 ∧
        (c.setNested "user" user).2 = c := by
  intro edge c age
  have hage : c.getNested "user.age" = .ok age := rfl
  have hname : c.getNested "user.name" = .ok (.string "Ann") := rfl
  have hedge : ¬ edge.Exact := by
    change ¬ (9007199254740992 : Int).natAbs < 2 ^ 53
    decide
  have hlength : ∀ key ∈ ["age", "name"],
      1 < (Path.ofText ("user." ++ key)).segments.length := by decide
  obtain ⟨hok, _, hbelow⟩ := setNested_getNested hage
  obtain ⟨x, hx, _, _, hnumber⟩ := hbelow (hlength "age" (by decide))
  have hx' : c.stored? (Path.ofText "user.age") = some (.number edge) := rfl
  cases hx'.symm.trans hx
  obtain ⟨y, hy, _, hother, _⟩ := (setNested_getNested hname).2.2 (hlength "name" (by decide))
  have hy' : c.stored? (Path.ofText "user.name") = some (.string "Ann") := rfl
  cases hy'.symm.trans hy
  exact ⟨⟨hage, hlength "age" (by decide), hok, hedge,
      fun hc => hedge ((hnumber edge rfl).mp hc)⟩,
    ⟨hname, hother fun _ => Json.noConfusion⟩,
    _, rfl, rfl, (setNested_getNested (v := .object _) rfl).2.1 rfl⟩

end Collection
end DocTemplate
