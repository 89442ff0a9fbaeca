import DocTemplate.Proofs.Entries
import DocTemplate.Template.Registry

/-! What a registry does after any registrations. Everything that is seen of it follows from one map
of tags to strategies, the last registered under each tag, and from the strategy for all others. -/
namespace DocTemplate.Registry

variable {r : Registry} {tag other : String} {strategy : Strategy} {d : Delimiters}

/-- A registry before anything is registered. -/
inductive Start where
  | empty (fallback : Strategy)
  | standard (d : Delimiters)

namespace Start

def registry : Start → Registry
  | .empty fallback => Registry.empty fallback
  | .standard d => Registry.standard d

/-- The strategy that is there for a tag from the start. -/
def given? : Start → String → Option Strategy
  | .empty _, _ => none
  | .standard d, tag => if tag = "latex" ∨ tag = "beamer" then some (.latex d) else none

/-- The strategy for tags without one of their own. -/
def fallback : Start → Strategy
  | .empty fallback => fallback
  | .standard d => .latex d

/-- The strategy registered last under exactly this tag, else the one that was there. -/
def registered? (start : Start) (history : List (String × Strategy)) (tag : String) :
    Option Strategy :=
  (history.reverse.lookup tag).or (start.given? tag)

/-- The strategy that the tag stands for after the registrations. -/
def chosen (start : Start) (history : List (String × Strategy)) (tag : String) : Strategy :=
  (start.registered? history tag).getD start.fallback

end Start

/-- One registration after the other. -/
def registerAll (r : Registry) (history : List (String × Strategy)) : Registry :=
  history.foldl (fun r (tag, strategy) => (r.register tag strategy).2) r

/-! One registration. -/

@[grind =]
theorem get?_register : (r.register tag strategy).2.strategies.get? other =
    if other = tag then some strategy else r.strategies.get? other :=
  Entries.get?_insert r.strategies

theorem register_isSome_iff : (r.register tag strategy).1.isSome = true ↔ r.has tag = true :=
  Iff.rfl

theorem render_register_of_ne (h : other ≠ tag) (template : String) (c : Collection) :
    (r.register tag strategy).2.render other template c = r.render other template c := by
  have hg : (r.register tag strategy).2.strategies.get? other = r.strategies.get? other := by
    simp [get?_register, h]
  simp only [render, strategyFor, hg]
  rfl

theorem mem_tags_iff : tag ∈ r.tags ↔ r.has tag = true := by
  rw [has, Entries.contains, Option.isSome_iff_exists, tags, Entries.keys, List.mem_map]
  constructor
  · rintro ⟨⟨_, strategy⟩, hm, rfl⟩
    exact ⟨strategy, Entries.mem_toList_iff.mp hm⟩
  · rintro ⟨strategy, hg⟩
    exact ⟨(tag, strategy), Entries.mem_toList_iff.mpr hg, rfl⟩

theorem tags_ascending (r : Registry) : r.tags.Pairwise (· < ·) :=
  List.pairwise_map.mpr (Entries.toList_ascending r.strategies)

/-! Any number of them. -/

@[simp]
theorem fallback_registerAll (history : List (String × Strategy)) :
    (r.registerAll history).fallback = r.fallback := by
  induction history generalizing r with
  | nil => rfl
  | cons entry history ih => exact ih

theorem get?_registerAll (history : List (String × Strategy)) :
    (r.registerAll history).strategies.get? tag =
      (history.reverse.lookup tag).or (r.strategies.get? tag) := by
  induction history generalizing r with
  | nil => rfl
  | cons entry history ih =>
    obtain ⟨name, strategy⟩ := entry
    have hnext := ih (r := (r.register name strategy).2)
    rw [get?_register] at hnext
    rw [List.reverse_cons, List.lookup_append, Option.or_assoc]
    refine hnext.trans (congrArg _ ?_)
    by_cases he : tag = name
    · simp [he]
    · have hb : (tag == name) = false := beq_eq_false_iff_ne.mpr he
      simp [he, List.lookup_cons, hb]

theorem get?_registry (start : Start) (tag : String) :
    start.registry.strategies.get? tag = start.given? tag := by
  cases start with
  | empty fallback => rfl
  | standard d =>
    simp only [Start.registry, standard, get?_register, Start.given?, DocumentType.tag]
    by_cases hb : tag = "beamer"
    · simp [hb]
    · by_cases hl : tag = "latex"
      · simp [hl]
      · rw [if_neg hb, if_neg hl, if_neg (not_or.mpr ⟨hl, hb⟩)]
        rfl

@[simp]
theorem fallback_registry (start : Start) : start.registry.fallback = start.fallback := by
  cases start <;> rfl

variable {start : Start} {history : List (String × Strategy)}

@[simp]
theorem get?_history :
    (start.registry.registerAll history).strategies.get? tag = start.registered? history tag := by
  rw [get?_registerAll, get?_registry, Start.registered?]

theorem strategyFor_history :
    (start.registry.registerAll history).strategyFor tag = start.chosen history tag := by
  simp [strategyFor, Start.chosen]

theorem has_history_iff : (start.registry.registerAll history).has tag = true ↔
    (start.registered? history tag).isSome = true := by
  simp [has, Entries.contains]

/-- The standard registry has one strategy for all tags, known or not. -/
@[simp]
theorem strategyFor_standard (d : Delimiters) (tag : String) :
    (standard d).strategyFor tag = .latex d := by
  have hs : ((Start.standard d).registry.registerAll []).strategyFor tag =
      (Start.standard d).chosen [] tag := strategyFor_history
  refine hs.trans ?_
  simp only [Start.chosen, Start.registered?, Start.given?, Start.fallback]
  split <;> rfl

/-- After any registrations a tag stands for the strategy registered last under it, else for the one
that was there from the start, else for the one for all others. A registration leaves all other tags
as they are, and tells which strategy it replaced, if there was one. The tags are those that have a
strategy, each once and in order. A template whose type is detected is rendered under the tag of the
type. The standard registry, left as it is, renders alike under all tags. -/
theorem dispatch_after_registrations (start : Start) (history : List (String × Strategy)) :
    let r := start.registry.registerAll history
    (∀ tag template c,
        r.render tag template c = (start.chosen history tag).render template c) ∧
      (∀ tag strategy other, other ≠ tag → ∀ template c,
        (r.register tag strategy).2.render other template c = r.render other template c) ∧
      (∀ tag strategy, (r.register tag strategy).1 = start.registered? history tag ∧
        ((r.register tag strategy).1.isSome = true ↔ r.has tag = true)) ∧
      (∀ tag, (tag ∈ r.tags ↔ r.has tag = true) ∧
        (r.has tag = true ↔ (start.registered? history tag).isSome = true)) ∧
      r.tags.Pairwise (· < ·) ∧
      (∀ template c, r.renderDetected template c =
        (start.chosen history (DocumentType.detect template).tag).render template c) ∧
      ∀ d tag other template c,
        (standard d).render tag template c = (standard d).render other template c := by
  intro r
  have hrender : ∀ tag template c,
      r.render tag template c = (start.chosen history tag).render template c := by
    intro tag template c
    rw [render, strategyFor_history]
  refine ⟨hrender, ?_, ?_, ?_, r.tags_ascending, ?_, ?_⟩
  · intro tag strategy other hne template c
    exact render_register_of_ne hne template c
  · intro tag strategy
    exact ⟨get?_history, register_isSome_iff⟩
  · intro tag
    exact ⟨mem_tags_iff, has_history_iff⟩
  · intro template c
    exact hrender _ template c
  · intro d tag other template c
    simp [render]

/-- A strategy that answers with a label and the template. -/
def labelled (label : String) : Strategy := ⟨fun template _ => .ok (label ++ ":" ++ template)⟩

/-- One tag is registered twice, one was there from the start, and one differs from it only in the
case of a letter. -/
theorem dispatch_after_registrations_with_repeats :
    let history := [("html", labelled "a"), ("latex", labelled "b"), ("Latex", labelled "c"),
      ("html", labelled "d")]
    let r := (Start.standard .standard).registry.registerAll history
    "latex" ≠ "Latex" ∧
      (∀ template c, r.render "html" template c = .ok ("d:" ++ template)) ∧
      (∀ strategy template c,
        (r.register "Latex" strategy).2.render "latex" template c = .ok ("b:" ++ template)) ∧
      ∀ template c,
        r.render "Beamer" template c = (Strategy.latex .standard).render template c := by
  intro history r
  have hne : "latex" ≠ "Latex" := by decide
  obtain ⟨hrender, hother, _⟩ := dispatch_after_registrations (.standard .standard) history
  refine ⟨hne, ?_, ?_, ?_⟩
  · intro template c
    exact hrender "html" template c
  · intro strategy template c
    exact (hother "Latex" strategy "latex" hne template c).trans (hrender "latex" template c)
  · intro template c
    exact hrender "Beamer" template c

end DocTemplate.Registry
