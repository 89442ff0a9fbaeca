import Mathlib.Data.String.Basic
import DocTemplate.Proofs.TextSearch
import DocTemplate.Variable.Path

/-! Splitting a dotted name into its segments, and joining them again. -/
namespace DocTemplate

namespace Text

theorem toList_joined (mark : Char) (parts : List String) :
    (joined (String.singleton mark) parts).toList =
      [mark].intercalate (parts.map String.toList) := by
  induction parts with
  | nil => rfl
  | cons part parts ih =>
    cases parts with
    | nil => simp [joined]
    | cons next more => simp_all [joined]

end Text

namespace Path

variable {path : Path} {segment : String}

theorem segments_eq (path : Path) :
    path.segments = (path.text.toList.splitOn '.').map String.ofList := by
  rw [segments, ← path.split, segmentsOf, Text.pieces_eq_splitOn]

/-- The segments of a path, joined by dots, are its text. -/
@[simp]
theorem joined_segments (path : Path) : Text.joined "." path.segments = path.text := by
  apply String.toList_injective
  have hj := Text.toList_joined '.' ((path.text.toList.splitOn '.').map String.ofList)
  rw [List.map_map] at hj
  simpa [segments_eq, Function.comp_def] using hj

/-- A path is given by its segments. -/
theorem ext_segments {p q : Path} (h : p.segments = q.segments) : p = q := by
  apply ext_text
  rw [← joined_segments p, h, joined_segments]

theorem dotFree_of_mem (h : segment ∈ path.segments) : '.' ∉ segment.toList := by
  rw [segments, ← path.split, segmentsOf] at h
  obtain ⟨piece, hm, rfl⟩ := List.mem_map.mp h
  rw [String.toList_ofList]
  exact (Text.mem_pieces_iff.mp hm).1

/-- Segments without dots are found again in the path that they are joined to. -/
theorem segments_joined {parts : List String} (hne : parts ≠ [])
    (hd : ∀ segment ∈ parts, '.' ∉ segment.toList) :
    (ofText (Text.joined "." parts)).segments = parts := by
  have hj : (Text.joined "." parts).toList = ['.'].intercalate (parts.map String.toList) :=
    Text.toList_joined '.' parts
  rw [segments_eq, text_ofText, hj, List.splitOn_intercalate '.' (by simpa using hd)
    (by simpa using hne)]
  simp

theorem segmentsOf_append (front back : String) :
    segmentsOf (front ++ "." ++ back) = segmentsOf front ++ segmentsOf back := by
  have ht : (front ++ "." ++ back).toList = front.toList ++ '.' :: back.toList := by simp
  rw [segmentsOf, segmentsOf, segmentsOf, ht, Text.pieces_append, List.map_append]

end Path
end DocTemplate
