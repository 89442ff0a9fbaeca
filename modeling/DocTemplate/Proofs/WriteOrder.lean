import DocTemplate.Proofs.NestedFrame
import Mathlib.Data.List.Perm.Basic
import Mathlib.Data.Set.Pairwise.Basic

/-! Runs of writes along paths that part from one another. Such writes commute, and of those along
one path the last one counts, so that a run is known by the last write along each path. -/
namespace DocTemplate

variable {c : Collection} {value given : Json} {fields inner : Entries Json none}
  {segment target next : String} {more rest : List String}

namespace Json

theorem opening?_insert :
    opening? ((fields.insert segment (.object inner)).get? segment) = some inner := by
  simp

/-- What stands in the way of a write does not depend on its value. -/
theorem plant_obstacle_eq (value given : Json) :
    (plant value fields segment more).2 = (plant given fields segment more).2 := by
  induction more generalizing fields segment with
  | nil => rfl
  | cons next more ih =>
    cases ho : opening? (fields.get? segment) with
    | some inner =>
      rw [plant_open ho, plant_open ho]
      exact ih
    | none =>
      obtain ⟨obstacle, hp⟩ := plant_shut ho
      rw [hp, hp]

/-- Of two writes along one path the second stays. -/
theorem plant_plant_self :
    plant given (plant value fields segment more).1 segment more =
      plant given fields segment more := by
  induction more generalizing fields segment with
  | nil => simp [plant]
  | cons next more ih =>
    cases ho : opening? (fields.get? segment) with
    | some inner => simp [plant_open ho, plant_open opening?_insert, ih]
    | none =>
      obtain ⟨obstacle, hp⟩ := plant_shut ho
      rw [hp, hp]

theorem plant_plant_of_ne (h : segment ≠ target) :
    plant given (plant value fields segment more).1 target rest =
      ((plant value (plant given fields target rest).1 segment more).1,
        (plant given fields target rest).2) := by
  obtain ⟨put, obstacle, hp⟩ := plant_at value (fields.get? segment) segment more
  obtain ⟨put', obstacle', hp'⟩ := plant_at given (fields.get? target) target rest
  have hs : (fields.insert target put').get? segment = fields.get? segment := by simp [h]
  have ht : (fields.insert segment put).get? target = fields.get? target := by simp [h.symm]
  rw [hp fields rfl, hp' fields rfl, hp' _ ht, hp _ hs, Entries.insert_comm fields h]

/-- Of two writes along ways that part, the second meets what it would have met without the first,
and both leave what they would leave the other way round. -/
theorem plant_plant_apart (h : Apart (segment :: more) (target :: rest)) :
    plant given (plant value fields segment more).1 target rest =
      ((plant value (plant given fields target rest).1 segment more).1,
        (plant given fields target rest).2) := by
  induction more generalizing fields segment target rest with
  | nil => exact plant_plant_of_ne h.ne_of_singleton
  | cons next more ih =>
    by_cases he : segment = target
    · subst he
      have hi := Apart.cons_iff.mp h rfl
      obtain ⟨_, target, rest, rfl⟩ := hi.exists_cons
      cases ho : opening? (fields.get? segment) with
      | some inner =>
        simp [plant_open ho, plant_open opening?_insert, ih hi]
      | none =>
        obtain ⟨obstacle, hp⟩ := plant_shut ho
        rw [hp, hp, hp]
    · exact plant_plant_of_ne he

end Json

namespace Collection

variable {text other name : String} {v w : Variable} {fields : Entries Json none}

theorem opening?_set :
    Variable.opening? ((c.set name (.object fields)).get? name) = some fields := by
  simp

/-- Whether a write succeeds does not depend on its value. -/
theorem setNested_outcome_eq (v w : Variable) :
    (c.setNested text v).1 = (c.setNested text w).1 := by
  cases hr : (Path.ofText text).rest with
  | nil => rw [setNested_root hr, setNested_root hr]
  | cons segment more =>
    cases ho : Variable.opening? (c.get? (Path.ofText text).root) with
    | some fields =>
      rw [setNested_open hr ho, setNested_open hr ho,
        Json.plant_obstacle_eq v.toJson w.toJson]
    | none =>
      obtain ⟨e, hs⟩ := setNested_shut hr ho
      rw [hs, hs]

theorem setNested_setNested_self :
    (c.setNested text v).2.setNested text w = c.setNested text w := by
  cases hr : (Path.ofText text).rest with
  | nil => simp [setNested_root hr]
  | cons segment more =>
    cases ho : Variable.opening? (c.get? (Path.ofText text).root) with
    | some fields =>
      simp [setNested_open hr ho, setNested_open hr opening?_set, Json.plant_plant_self]
    | none =>
      obtain ⟨e, hs⟩ := setNested_shut hr ho
      rw [hs, hs]

theorem setNested_setNested_of_ne (h : (Path.ofText text).root ≠ (Path.ofText other).root) :
    (c.setNested text v).2.setNested other w =
      ((c.setNested other w).1, ((c.setNested other w).2.setNested text v).2) := by
  obtain ⟨put, outcome, hs⟩ := setNested_at text v (c.get? (Path.ofText text).root)
  obtain ⟨put', outcome', hs'⟩ := setNested_at other w (c.get? (Path.ofText other).root)
  have ht : (c.set (Path.ofText other).root put').get? (Path.ofText text).root =
      c.get? (Path.ofText text).root := by simp [h]
  have ho : (c.set (Path.ofText text).root put).get? (Path.ofText other).root =
      c.get? (Path.ofText other).root := by simp [h.symm]
  rw [hs c rfl, hs' c rfl, hs' _ ho, hs _ ht, set_comm h]

theorem setNested_setNested_apart
    (h : Apart (Path.ofText text).segments (Path.ofText other).segments) :
    (c.setNested text v).2.setNested other w =
      ((c.setNested other w).1, ((c.setNested other w).2.setNested text v).2) := by
  rw [Path.segments, Path.segments, Apart.cons_iff] at h
  by_cases he : (Path.ofText text).root = (Path.ofText other).root
  · have hapart := h he
    obtain ⟨⟨segment, more, hr⟩, target, rest, hr'⟩ := hapart.exists_cons
    rw [hr, hr'] at hapart
    cases ho : Variable.opening? (c.get? (Path.ofText text).root) with
    | some fields =>
      have ho' : Variable.opening? (c.get? (Path.ofText other).root) = some fields := he ▸ ho
      have hafter : Variable.opening? ((c.setNested text v).2.get? (Path.ofText other).root) =
          some (Json.plant v.toJson fields segment more).1 := by
        rw [setNested_open hr ho, ← he]
        exact opening?_set
      have hafter' : Variable.opening? ((c.setNested other w).2.get? (Path.ofText text).root) =
          some (Json.plant w.toJson fields target rest).1 := by
        rw [setNested_open hr' ho', he]
        exact opening?_set
      rw [setNested_open hr' hafter, setNested_open hr hafter', Json.plant_plant_apart hapart,
        setNested_open hr ho, setNested_open hr' ho', he, set_set, set_set]
    | none =>
      obtain ⟨e, hs⟩ := setNested_shut hr ho
      obtain ⟨e', hs'⟩ := setNested_shut hr' (he ▸ ho)
      rw [hs, hs', hs]
  · exact setNested_setNested_of_ne he

/-! Runs of writes. -/

/-- Writes one after the other, whether they succeed or not, and tells how each of them ended. -/
def writeAll (c : Collection) :
    List (String × Variable) → List (String × Except VariableError Unit) × Collection
  | [] => ([], c)
  | (text, value) :: more =>
    let (outcome, next) := c.setNested text value
    let (outcomes, last) := next.writeAll more
    ((text, outcome) :: outcomes, last)

/-- The value of the last write along a path, if there is a write along it. -/
def lastWrite? (text : String) : List (String × Variable) → Option Variable
  | [] => none
  | (name, value) :: more =>
    (lastWrite? text more).or (if name = text then some value else none)

/-- The writes without those that a later one along the same path follows. -/
def lastWrites : List (String × Variable) → List (String × Variable)
  | [] => []
  | (name, value) :: more =>
    if (lastWrite? name more).isSome then lastWrites more else (name, value) :: lastWrites more

/-- What a write leaves. -/
def write (c : Collection) (entry : String × Variable) : Collection :=
  (c.setNested entry.1 entry.2).2

variable {entry : String × Variable} {writes first second : List (String × Variable)}
  {P : Set String} {outcome : Except VariableError Unit}

theorem writeAll_eq_foldl : (c.writeAll writes).2 = writes.foldl write c := by
  induction writes generalizing c with
  | nil => rfl
  | cons entry writes ih => exact ih

theorem lastWrite?_isSome_iff :
    (lastWrite? text writes).isSome = true ↔ ∃ v, (text, v) ∈ writes := by
  induction writes with
  | nil => simp [lastWrite?]
  | cons entry writes ih =>
    obtain ⟨name, value⟩ := entry
    rw [lastWrite?, Option.isSome_or, Bool.or_eq_true, ih]
    by_cases hn : name = text
    · subst hn
      simp
    · simp [hn, Ne.symm hn]

theorem mem_lastWrites_iff : (text, v) ∈ lastWrites writes ↔ lastWrite? text writes = some v := by
  induction writes with
  | nil => simp [lastWrites, lastWrite?]
  | cons entry writes ih =>
    obtain ⟨name, value⟩ := entry
    rw [lastWrites, lastWrite?]
    cases hl : lastWrite? name writes with
    | some later =>
      rw [Option.isSome_some, if_pos rfl, ih]
      by_cases hn : name = text
      · subst hn
        rw [hl, Option.some_or]
      · rw [if_neg hn, Option.or_none]
    | none =>
      rw [Option.isSome_none, if_neg Bool.false_ne_true, List.mem_cons, ih, Prod.mk.injEq]
      by_cases hn : name = text
      · subst hn
        simp [hl, eq_comm]
      · simp [hn, Ne.symm hn]

theorem nodup_lastWrites : (lastWrites writes).Nodup := by
  induction writes with
  | nil => exact List.nodup_nil
  | cons entry writes ih =>
    obtain ⟨name, value⟩ := entry
    rw [lastWrites]
    split
    · exact ih
    · rename_i hn
      refine List.nodup_cons.mpr ⟨?_, ih⟩
      rw [mem_lastWrites_iff]
      intro hl
      rw [hl] at hn
      exact hn rfl

/-- Paths that part from one another. -/
abbrev AllApart (P : Set String) : Prop :=
  P.Pairwise fun a b => Apart (Path.ofText a).segments (Path.ofText b).segments

theorem write_write_self : (c.write (text, v)).write (text, w) = c.write (text, w) :=
  congrArg Prod.snd setNested_setNested_self

theorem write_comm (hP : AllApart P) (ht : text ∈ P) (ho : other ∈ P) (hne : text ≠ other) :
    (c.write (text, v)).write (other, w) = (c.write (other, w)).write (text, v) := by
  have h := congrArg Prod.snd (setNested_setNested_apart (c := c) (v := v) (w := w) (hP ht ho hne))
  exact h

/-- A write may be left out if a later one goes along its path. -/
theorem foldl_write_of_later (hP : AllApart P) (ht : text ∈ P)
    (hw : ∀ entry ∈ writes, entry.1 ∈ P) (hl : (lastWrite? text writes).isSome = true) :
    writes.foldl write (c.write (text, v)) = writes.foldl write c := by
  induction writes generalizing c with
  | nil => cases hl
  | cons entry writes ih =>
    obtain ⟨name, value⟩ := entry
    obtain ⟨hn, hw⟩ := List.forall_mem_cons.mp hw
    rw [List.foldl_cons, List.foldl_cons]
    by_cases he : name = text
    · subst he
      rw [write_write_self]
    · rw [lastWrite?, if_neg he, Option.or_none] at hl
      rw [write_comm hP ht hn (Ne.symm he), ih hw hl]

theorem foldl_write_lastWrites (hP : AllApart P) (hw : ∀ entry ∈ writes, entry.1 ∈ P) :
    (lastWrites writes).foldl write c = writes.foldl write c := by
  induction writes generalizing c with
  | nil => rfl
  | cons entry writes ih =>
    obtain ⟨name, value⟩ := entry
    obtain ⟨hn, hw⟩ := List.forall_mem_cons.mp hw
    rw [lastWrites]
    split
    · rename_i hl
      rw [ih hw, List.foldl_cons, foldl_write_of_later hP hn hw hl]
    · rw [List.foldl_cons, List.foldl_cons, ih hw]

/-- Only the last write along each path counts, and the order of these does not. -/
theorem foldl_write_congr (hP : AllApart P) (hf : ∀ entry ∈ first, entry.1 ∈ P)
    (hs : ∀ entry ∈ second, entry.1 ∈ P)
    (hlast : ∀ text, lastWrite? text first = lastWrite? text second) :
    first.foldl write c = second.foldl write c := by
  have hperm : (lastWrites first).Perm (lastWrites second) := by
    rw [List.perm_ext_iff_of_nodup nodup_lastWrites nodup_lastWrites]
    rintro ⟨text, v⟩
    rw [mem_lastWrites_iff, mem_lastWrites_iff, hlast]
  have hmem : ∀ {text v}, (text, v) ∈ lastWrites first → text ∈ P := by
    intro text v hm
    rw [mem_lastWrites_iff] at hm
    obtain ⟨v, hv⟩ := lastWrite?_isSome_iff.mp (Option.isSome_of_eq_some hm)
    exact hf _ hv
  rw [← foldl_write_lastWrites hP hf, ← foldl_write_lastWrites hP hs]
  apply hperm.foldl_eq'
  rintro ⟨text, v⟩ hv ⟨other, w⟩ hw c
  by_cases he : text = other
  · subst he
    have hvw : some v = some w :=
      (mem_lastWrites_iff.mp hv).symm.trans (mem_lastWrites_iff.mp hw)
    cases hvw
    rfl
  · exact write_comm hP (hmem hv) (hmem hw) he

/-- Writes along other paths, or along the same one, do not change how a write ends. -/
theorem outcome_write (hP : AllApart P) (ht : text ∈ P) (hn : entry.1 ∈ P) :
    ((c.write entry).setNested text v).1 = (c.setNested text v).1 := by
  obtain ⟨name, value⟩ := entry
  by_cases he : name = text
  · subst he
    exact congrArg Prod.fst setNested_setNested_self
  · rw [write, setNested_setNested_apart (hP hn ht he)]

theorem path_mem_of_outcome_mem (h : (text, outcome) ∈ (c.writeAll writes).1) :
    ∃ entry ∈ writes, entry.1 = text := by
  induction writes generalizing c with
  | nil => cases h
  | cons entry writes ih =>
    rcases List.mem_cons.mp h with he | hm
    · cases he
      exact ⟨entry, List.mem_cons_self, rfl⟩
    · obtain ⟨other, ho, he⟩ := ih hm
      exact ⟨other, List.mem_cons_of_mem entry ho, he⟩

/-- Each write of a run ends as it would have ended at the start of the run. -/
theorem outcome_of_mem (hP : AllApart P) (hw : ∀ entry ∈ writes, entry.1 ∈ P)
    (h : (text, outcome) ∈ (c.writeAll writes).1) (v : Variable) :
    outcome = (c.setNested text v).1 := by
  have ht : text ∈ P := by
    obtain ⟨entry, he, rfl⟩ := path_mem_of_outcome_mem h
    exact hw entry he
  induction writes generalizing c with
  | nil => cases h
  | cons entry writes ih =>
    obtain ⟨hn, hw⟩ := List.forall_mem_cons.mp hw
    rcases List.mem_cons.mp h with he | hm
    · cases he
      exact setNested_outcome_eq entry.2 v
    · exact (ih hw hm).trans (outcome_write hP ht hn)

/-- Two runs of writes along paths that part from one another, with the same last write along each
path, end in the same collection. In both, each write ends as it would have ended before all
others, whatever its value: those along one path all succeed, or all fail with one error. -/
theorem writeAll_order_independent (hP : AllApart P) (hf : ∀ entry ∈ first, entry.1 ∈ P)
    (hs : ∀ entry ∈ second, entry.1 ∈ P)
    (hlast : ∀ text, lastWrite? text first = lastWrite? text second) (c : Collection) :
    (c.writeAll first).2 = (c.writeAll second).2 ∧
      ∀ text outcome,
        (text, outcome) ∈ (c.writeAll first).1 ∨ (text, outcome) ∈ (c.writeAll second).1 →
        ∀ v, outcome = (c.setNested text v).1 := by
  constructor
  · rw [writeAll_eq_foldl, writeAll_eq_foldl, foldl_write_congr hP hf hs hlast]
  · rintro text outcome (h | h) v
    · exact outcome_of_mem hP hf h v
    · exact outcome_of_mem hP hs h v

/-- Two paths create one object, in either order; one of them is written twice, and a text is in the
way of the third. -/
theorem writeAll_order_independent_of_sharing :
    let c := empty.set "t" (.string "x")
    let first : List (String × Variable) :=
      [("a.b", .null), ("t.x", .null), ("a.c", .string "y"), ("a.b", .boolean true)]
    let second : List (String × Variable) :=
      [("a.c", .string "y"), ("a.b", .boolean true), ("t.x", .null)]
    let P : Set String := {text | text ∈ ["a.b", "a.c", "t.x"]}
    AllApart P ∧ (∀ entry ∈ first, entry.1 ∈ P) ∧ (∀ entry ∈ second, entry.1 ∈ P) ∧
      (∀ text, lastWrite? text first = lastWrite? text second) ∧
      (c.writeAll first).2 = (c.writeAll second).2 ∧
      ("t.x", Except.error (.notAnObject "t.x" "t" .string)) ∈ (c.writeAll first).1 ∧
      ∀ outcome, ("t.x", outcome) ∈ (c.writeAll second).1 →
        outcome = .error (.notAnObject "t.x" "t" .string) := by
  intro c first second P
  have hapart : ∀ a ∈ ["a.b", "a.c", "t.x"], ∀ b ∈ ["a.b", "a.c", "t.x"], a ≠ b →
      Apart (Path.ofText a).segments (Path.ofText b).segments := by decide
  have hP : AllApart P := fun a ha b hb => hapart a ha b hb
  have hf : ∀ entry ∈ first, entry.1 ∈ P := by simp [first, P]
  have hs : ∀ entry ∈ second, entry.1 ∈ P := by simp [second, P]
  have hlast : ∀ text, lastWrite? text first = lastWrite? text second := by
    intro text
    by_cases hb : "a.b" = text
    · subst hb
      rfl
    · by_cases hc : "a.c" = text
      · subst hc
        rfl
      · simp [first, second, lastWrite?, hb, hc]
  obtain ⟨hlike, hends⟩ := writeAll_order_independent hP hf hs hlast c
  refine ⟨hP, hf, hs, hlast, hlike, List.mem_cons_of_mem _ List.mem_cons_self, ?_⟩
  intro outcome ho
  exact hends "t.x" outcome (Or.inr ho) .null

end Collection
end DocTemplate
