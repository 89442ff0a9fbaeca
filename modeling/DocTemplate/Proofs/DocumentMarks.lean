import DocTemplate.Document
import DocTemplate.Proofs.TextSearch

/-! The marks of each type of document, as a grammar. A document is of the first type, in a fixed
order, whose marks its text has. -/
namespace DocTemplate.DocumentType

variable {text rest line gap options name : List Char} {type : DocumentType} {content : String}

/-- The higher of two types is tried first. -/
def priority : DocumentType → Nat
  | .beamer => 4
  | .latex => 3
  | .html => 2
  | .markdown => 1
  | .plain => 0

/-- Options in brackets, or nothing. -/
inductive ClassOptions : List Char → Prop
  | absent : ClassOptions []
  | given {inside : List Char} : ']' ∉ inside → ClassOptions ('[' :: (inside ++ [']']))

/-- A name in braces at the front of the text, with blanks before it and around the name. -/
inductive BracedName (name : List Char) : List Char → Prop
  | intro {gap body rest : List Char} : Text.Blanks gap → '\x7d' ∉ body → Text.Trimmed body name →
      BracedName name (gap ++ '\x7b' :: (body ++ '\x7d' :: rest))

/-- What stands behind a class command: options, with blanks before them, and the name of the
class. -/
inductive ClassArguments (name : List Char) : List Char → Prop
  | intro {gap options rest : List Char} : Text.Blanks gap → ClassOptions options →
      BracedName name rest → ClassArguments name (gap ++ (options ++ rest))

/-- The first class command of the text has this name in its braces. -/
def NamesClass (name text : List Char) : Prop :=
  ∃ before after, Text.FirstAt "\\documentclass".toList text before after ∧
    ClassArguments name after

/-- One to six hash marks and a space, at the front of a line. -/
inductive Heading : List Char → Prop
  | intro {level : Nat} {title : List Char} : 1 ≤ level → level ≤ 6 →
      Heading (List.replicate level '#' ++ ' ' :: title)

/-- What makes a text a document of the type, unless it is one of a higher type. -/
def Marks : DocumentType → List Char → Prop
  | .beamer, text =>
    "\\usepackage\x7bbeamer\x7d".toList <:+: text ∨ NamesClass "beamer".toList text
  | .latex, text => "\\documentclass".toList <:+: text
  | .html, text =>
    ∃ tag, tag <:+: text ∧
      (Text.lowerCase tag = "<!doctype html".toList ∨ Text.lowerCase tag = "<html".toList)
  | .markdown, text =>
    ∃ before line, text = before ++ line ∧ (before = [] ∨ ['\n'] <:+ before) ∧ Heading line
  | .plain, _ => True

/-! The class command. -/

theorem bracedName?_eq_some_iff : bracedName? text = some name ↔ BracedName name text := by
  rw [bracedName?]
  constructor
  · intro h
    split at h
    · rename_i body hbody
      obtain ⟨gap, hgap, rfl⟩ := Text.exists_blanks_of_trimStart hbody
      obtain ⟨⟨inside, found⟩, hc, rfl⟩ := Option.map_eq_some_iff.mp h
      obtain ⟨after, rfl, hf⟩ := Text.cutAt?_firstAt hc
      obtain ⟨rfl, hn⟩ := Text.firstAt_mark_iff.mp hf
      exact .intro hgap hn (Text.trimmed_trim inside)
    · cases h
  · rintro ⟨hgap, hn, ht⟩
    rename_i gap body rest
    have hcut : Text.cutAt? ['\x7d'] (body ++ '\x7d' :: rest) = some (body, '\x7d' :: rest) :=
      Text.cutAt?_eq_some_iff.mpr ⟨rest, rfl, Text.firstAt_mark_iff.mpr ⟨rfl, hn⟩⟩
    rw [Text.trimStart_blanks_cons hgap (by decide)]
    simp only [hcut, Option.map_some, Text.trim_eq_iff.mpr ht]

theorem exists_options_of_afterOptions? (h : afterOptions? text = some rest) :
    ∃ gap options, Text.Blanks gap ∧ ClassOptions options ∧ text = gap ++ (options ++ rest) := by
  rw [afterOptions?] at h
  split at h
  · rename_i inside hinside
    obtain ⟨gap, hgap, rfl⟩ := Text.exists_blanks_of_trimStart hinside
    obtain ⟨before, hf⟩ := Text.afterFirst?_eq_some_iff.mp h
    obtain ⟨rfl, hn⟩ := Text.firstAt_mark_iff.mp hf
    exact ⟨gap, _, hgap, .given hn, by simp⟩
  · cases h
    obtain ⟨gap, hgap, ht⟩ := Text.exists_blanks text
    exact ⟨gap, [], hgap, .absent, ht⟩

/-- Without options the blanks before them and before the name are passed over together. -/
theorem afterOptions?_of_bracedName (hgap : Text.Blanks gap) (ho : ClassOptions options)
    (hn : BracedName name rest) :
    ∃ more, afterOptions? (gap ++ (options ++ rest)) = some more ∧ BracedName name more := by
  cases ho with
  | absent =>
    obtain ⟨hblanks, hbody, ht⟩ := hn
    rename_i blanks body rest
    refine ⟨'\x7b' :: (body ++ '\x7d' :: rest), ?_, .intro Text.blanks_nil hbody ht⟩
    rw [List.nil_append, ← List.append_assoc, afterOptions?,
      Text.trimStart_blanks_cons (hgap.append hblanks) (by decide)]
    rfl
  | given hinside =>
    rename_i inside
    have hf : Text.FirstAt [']'] (inside ++ ']' :: rest) inside rest :=
      Text.firstAt_mark_iff.mpr ⟨rfl, hinside⟩
    refine ⟨rest, ?_, hn⟩
    rw [List.cons_append, List.append_assoc, afterOptions?,
      Text.trimStart_blanks_cons hgap (by decide)]
    exact Text.afterFirst?_eq_some_iff.mpr ⟨inside, hf⟩

theorem documentClass?_eq_some_iff : documentClass? text = some name ↔ NamesClass name text := by
  constructor
  · intro h
    obtain ⟨arguments, ha, hrest⟩ := Option.bind_eq_some_iff.mp h
    obtain ⟨rest, hr, hn⟩ := Option.bind_eq_some_iff.mp hrest
    obtain ⟨before, hf⟩ := Text.afterFirst?_eq_some_iff.mp ha
    obtain ⟨gap, options, hgap, ho, rfl⟩ := exists_options_of_afterOptions? hr
    exact ⟨before, _, hf, .intro hgap ho (bracedName?_eq_some_iff.mp hn)⟩
  · rintro ⟨before, _, hf, hgap, ho, hn⟩
    obtain ⟨more, hm, hn⟩ := afterOptions?_of_bracedName hgap ho hn
    have ha := Text.afterFirst?_eq_some_iff.mpr ⟨before, hf⟩
    refine Option.bind_eq_some_iff.mpr ⟨_, ha, ?_⟩
    exact Option.bind_eq_some_iff.mpr ⟨more, hm, bracedName?_eq_some_iff.mpr hn⟩

/-! Headings. -/

theorem Heading.append (h : Heading line) (more : List Char) : Heading (line ++ more) := by
  obtain ⟨hlow, hhigh⟩ := h
  rw [List.append_assoc, List.cons_append]
  exact .intro hlow hhigh

/-- A line is its hash marks and what follows them. -/
theorem replicate_append_drop_marks (line : List Char) :
    List.replicate (line.takeWhile (· == '#')).length '#' ++
      line.drop (line.takeWhile (· == '#')).length = line := by
  have hmarks : line.takeWhile (· == '#') =
      List.replicate (line.takeWhile (· == '#')).length '#' :=
    List.eq_replicate_iff.mpr ⟨rfl, fun c hc => by simpa using List.mem_takeWhile_imp hc⟩
  rw [← hmarks]
  exact List.prefix_iff_eq_append.mp (List.takeWhile_prefix _)

theorem isHeading_iff : isHeading line = true ↔ Heading line := by
  constructor
  · intro h
    simp only [isHeading, Bool.and_eq_true, decide_eq_true_eq, beq_iff_eq] at h
    obtain ⟨⟨hlow, hhigh⟩, hspace⟩ := h
    obtain ⟨title, ht⟩ := List.head?_eq_some_iff.mp hspace
    rw [← replicate_append_drop_marks line, ht]
    exact .intro hlow hhigh
  · rintro ⟨hlow, hhigh⟩
    rename_i level title
    have hmarks : (List.replicate level '#' ++ ' ' :: title).takeWhile (· == '#') =
        List.replicate level '#' := by
      rw [List.takeWhile_append_of_pos (by simp)]
      simp
    simp [isHeading, hmarks, hlow, hhigh]

/-- A carriage return at the end of a line is no part of the marks of a heading. -/
theorem heading_append_return : Heading (line ++ ['\r']) ↔ Heading line := by
  constructor
  · intro h
    generalize ht : line ++ ['\r'] = text at h
    obtain @⟨level, title, hlow, hhigh⟩ := h
    rcases title.eq_nil_or_concat with rfl | ⟨title, last, rfl⟩
    · obtain ⟨_, hreturn⟩ := List.append_inj' ht rfl
      cases hreturn
    · rw [List.concat_eq_append, ← List.cons_append, ← List.append_assoc] at ht
      rw [List.append_inj_left' ht rfl]
      exact .intro hlow hhigh
  · intro h
    exact h.append ['\r']

theorem isHeading_withoutReturn (line : List Char) :
    isHeading (Text.withoutReturn line) = isHeading line := by
  rw [Text.withoutReturn]
  split
  · next h =>
    obtain ⟨front, rfl⟩ := List.getLast?_eq_some_iff.mp h
    rw [List.dropLast_concat, Bool.eq_iff_iff, isHeading_iff, isHeading_iff, heading_append_return]
  · rfl

/-- Headings are the same among the lines and among the pieces between line feeds. -/
theorem any_isHeading_linesOf (pieces : List (List Char)) :
    (Text.linesOf pieces).any isHeading = pieces.any isHeading := by
  induction pieces with
  | nil => rfl
  | cons piece more ih =>
    cases more with
    | nil => cases piece <;> rfl
    | cons next more =>
      have hlines : Text.linesOf (piece :: next :: more) =
          Text.withoutReturn piece :: Text.linesOf (next :: more) := rfl
      rw [hlines, List.any_cons, isHeading_withoutReturn, ih]
      rfl

/-- The marks of a heading end before the line does, whatever follows the line. -/
theorem any_isHeading_pieces_iff : (Text.pieces '\n' text).any isHeading = true ↔
    ∃ before line, text = before ++ line ∧ (before = [] ∨ ['\n'] <:+ before) ∧ Heading line := by
  rw [List.any_eq_true]
  constructor
  · rintro ⟨piece, hm, hp⟩
    obtain ⟨_, before, after, ht, hb, _⟩ := Text.mem_pieces_iff.mp hm
    exact ⟨before, piece ++ after, ht, hb, (isHeading_iff.mp hp).append after⟩
  · rintro ⟨before, _, rfl, hb, @⟨level, title, hlow, hhigh⟩⟩
    obtain ⟨piece, after, rfl, hn, ha⟩ := Text.exists_piece '\n' title
    refine ⟨List.replicate level '#' ++ ' ' :: piece, ?_, isHeading_iff.mpr (.intro hlow hhigh)⟩
    exact Text.mem_pieces_iff.mpr ⟨by simp [hn], before, after, by simp, hb, ha⟩

theorem any_isHeading_lines_iff : (Text.lines text).any isHeading = true ↔
    ∃ before line, text = before ++ line ∧ (before = [] ∨ ['\n'] <:+ before) ∧ Heading line := by
  rw [Text.lines, any_isHeading_linesOf, any_isHeading_pieces_iff]

theorem holds_iff : holds text type = true ↔ type.Marks text := by
  cases type with
  | beamer =>
    rw [holds, Bool.or_eq_true, Text.contains_iff, beq_iff_eq, documentClass?_eq_some_iff]
    rfl
  | latex => exact Text.contains_iff
  | html =>
    rw [holds, Bool.or_eq_true, Text.contains_lowerCase_iff, Text.contains_lowerCase_iff, Marks]
    simp only [and_or_left, exists_or]
  | markdown => exact any_isHeading_lines_iff
  | plain => exact ⟨fun _ => trivial, fun _ => rfl⟩

theorem holds_detect (content : String) : holds content.toList (detect content) = true := by
  rw [detect]
  cases hf : all.find? (holds content.toList) with
  | none => rfl
  | some type => exact List.find?_some hf

/-- The types are tried in descending order, so what is found is above all others that fit. -/
theorem priority_le_detect (h : holds content.toList type = true) :
    type.priority ≤ (detect content).priority := by
  have hm : type ∈ all := by cases type <;> decide
  have hsorted : all.Pairwise fun a b => b.priority < a.priority := by decide
  obtain ⟨found, hf⟩ := Option.isSome_iff_exists.mp (List.find?_isSome.mpr ⟨type, hm, h⟩)
  obtain ⟨_, before, after, hall, hn⟩ := List.find?_eq_some_iff_append.mp hf
  rw [detect, hf, Option.getD_some]
  -- what stands in front of the found type does not hold, and what stands behind it is lower
  rw [hall] at hm hsorted
  rcases List.mem_append.mp hm with hm | hm
  · have hno := hn type hm
    rw [h] at hno
    cases hno
  · rcases List.mem_cons.mp hm with rfl | hm
    · exact Nat.le_refl _
    · exact ((List.pairwise_cons.mp (List.pairwise_append.mp hsorted).2.1).1 type hm).le

theorem priority_injective {a b : DocumentType} (h : a.priority = b.priority) : a = b := by
  cases a <;> cases b <;> simp_all [priority]

/-- Detection answers with a type exactly if the text has its marks, and those of no higher type. -/
theorem detect_eq_iff (content : String) (type : DocumentType) :
    detect content = type ↔ type.Marks content.toList ∧
      ∀ other : DocumentType, type.priority < other.priority → ¬ other.Marks content.toList := by
  constructor
  · rintro rfl
    refine ⟨holds_iff.mp (holds_detect content), ?_⟩
    intro other hlt hm
    exact Nat.not_lt.mpr (priority_le_detect (holds_iff.mpr hm)) hlt
  · rintro ⟨hm, hn⟩
    have hle := priority_le_detect (holds_iff.mpr hm)
    have hge : ¬ type.priority < (detect content).priority :=
      fun hlt => hn _ hlt (holds_iff.mp (holds_detect content))
    exact priority_injective (by omega)

/-- Options that are not closed hide the name of the class. -/
example : detect "\\documentclass [draft\n\x7bbeamer\x7d" = .latex := by decide +kernel

end DocTemplate.DocumentType
