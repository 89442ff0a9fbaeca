import DocTemplate.Proofs.DocumentMarks

/-! Documents that grow at their end. Each mark of a type stays where it is, and what was the first
class command stays the first, so the type only rises. -/
namespace DocTemplate.DocumentType

variable {text name : List Char} {type : DocumentType}

theorem BracedName.append (h : BracedName name text) (more : List Char) :
    BracedName name (text ++ more) := by
  obtain ⟨hgap, hbody, ht⟩ := h
  rename_i gap body rest
  have hparts : gap ++ '\x7b' :: (body ++ '\x7d' :: rest) ++ more =
      gap ++ '\x7b' :: (body ++ '\x7d' :: (rest ++ more)) := by simp
  rw [hparts]
  exact .intro hgap hbody ht

theorem ClassArguments.append (h : ClassArguments name text) (more : List Char) :
    ClassArguments name (text ++ more) := by
  obtain ⟨hgap, ho, hn⟩ := h
  rename_i gap options rest
  have hparts : gap ++ (options ++ rest) ++ more = gap ++ (options ++ (rest ++ more)) := by simp
  rw [hparts]
  exact .intro hgap ho (hn.append more)

theorem NamesClass.append (h : NamesClass name text) (more : List Char) :
    NamesClass name (text ++ more) := by
  obtain ⟨before, after, hf, ha⟩ := h
  exact ⟨before, after ++ more, hf.append more, ha.append more⟩

theorem Marks.append (h : type.Marks text) (more : List Char) : type.Marks (text ++ more) := by
  have hwhole : text <:+: text ++ more := (List.prefix_append text more).isInfix
  cases type with
  | beamer =>
    rcases h with hpackage | hclass
    · exact Or.inl (hpackage.trans hwhole)
    · exact Or.inr (hclass.append more)
  | latex =>
    have hcommand : "\\documentclass".toList <:+: text := h
    exact hcommand.trans hwhole
  | html =>
    obtain ⟨tag, hi, ht⟩ := h
    exact ⟨tag, hi.trans hwhole, ht⟩
  | markdown =>
    obtain ⟨before, line, rfl, hb, hl⟩ := h
    exact ⟨before, line ++ more, List.append_assoc before line more, hb, hl.append more⟩
  | plain => trivial

theorem priority_detect_append (content more : String) :
    (detect content).priority ≤ (detect (content ++ more)).priority := by
  have hm : (detect content).Marks content.toList := holds_iff.mp (holds_detect content)
  apply priority_le_detect
  rw [holds_iff, String.toList_append]
  exact hm.append more.toList

/-- Text put behind a document never lowers its type, and a document that already is one of the
highest type stays one however it goes on. -/
theorem detect_append (content more : String) :
    (detect content).priority ≤ (detect (content ++ more)).priority ∧
      (detect content = .beamer → detect (content ++ more) = .beamer) := by
  have hle := priority_detect_append content more
  refine ⟨hle, ?_⟩
  intro h
  rw [h] at hle
  cases hd : detect (content ++ more) with
  | beamer => rfl
  | _ =>
    rw [hd] at hle
    simp [priority] at hle

/-- The slides are cut off inside a command, and another class command follows. -/
theorem detect_append_to_cut_slides :
    let content := "\\documentclass[t]\n\x7b beamer \x7d\\fra"
    let more := "me\x7b\x7d\\documentclass\x7barticle\x7d"
    detect content = .beamer ∧
      (detect content).priority ≤ (detect (content ++ more)).priority ∧
        detect (content ++ more) = .beamer := by
  intro content more
  have h : detect content = .beamer := by decide +kernel
  obtain ⟨hle, hbeamer⟩ := detect_append content more
  exact ⟨h, hle, hbeamer h⟩

/-- In front of a document another class command is the one that counts. -/
example : detect "\\documentclass\x7bbeamer\x7d" = .beamer ∧
    detect ("\\documentclass\x7barticle\x7d" ++ "\\documentclass\x7bbeamer\x7d") = .latex := by
  decide +kernel

end DocTemplate.DocumentType
