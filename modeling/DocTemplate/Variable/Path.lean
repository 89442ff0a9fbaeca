import DocTemplate.Text.Search
import DocTemplate.Variable.Error
/-!
Dotted paths through nested objects: reading the value at the end of a path, and writing one
there, with the objects on the way created where they are missing.
-/
namespace DocTemplate

namespace Path

/-- The segments of a dotted text: what stands between its dots. There is at least one, and any of
them may be empty. -/
def segmentsOf (text : String) : List String := (Text.pieces '.' text.toList).map String.ofList

theorem segmentsOf_ne_nil (text : String) : segmentsOf text ≠ [] := by
  rw [segmentsOf, Ne, List.map_eq_nil_iff]
  exact Text.pieces_ne_nil '.' text.toList

end Path

/-- A path has a root and perhaps further segments, those of its text. -/
structure Path where
  text : String
  root : String
  rest : List String
  split : Path.segmentsOf text = root :: rest

namespace Path

def ofText (text : String) : Path :=
  match split : segmentsOf text with
  | [] => (segmentsOf_ne_nil text split).elim
  | root :: rest => ⟨text, root, rest, split⟩

@[simp]
theorem text_ofText (text : String) : (ofText text).text = text := by
  rw [ofText]
  split
  · next h => exact (segmentsOf_ne_nil text h).elim
  · rfl

def segments (path : Path) : List String := path.root :: path.rest

/-- A path is given by its text. -/
theorem ext_text {p q : Path} (h : p.text = q.text) : p = q := by
  obtain ⟨text, root, rest, hp⟩ := p
  obtain ⟨_, root', rest', hq⟩ := q
  cases h
  cases hp.symm.trans hq
  rfl

@[simp]
theorem ofText_text (path : Path) : ofText path.text = path := ext_text (text_ofText path.text)

end Path

/-- What stands in the way at a segment. -/
inductive Obstacle where
  | missing (segment : String)
  | blocked (segment : String) (kind : Kind)
deriving DecidableEq

def Obstacle.error (path : Path) : Obstacle → VariableError
  | .missing segment => .notFound path.text segment
  | .blocked segment kind => .notAnObject path.text segment kind

/-- The value found under `segment` and then under each of the further segments. -/
def Json.descend (fields : Entries Json none) (segment : String) :
    List String → Except Obstacle Json
  | [] =>
    match fields.get? segment with
    | some value => .ok value
    | none => .error (.missing segment)
  | next :: more =>
    match fields.get? segment with
    | some (.object inner) => descend inner next more
    | some other => .error (.blocked segment other.kind)
    | none => .error (.missing segment)

/-- The fields with `value` written at the end of the path, and what stood in its way. -/
def Json.plant (value : Json) (fields : Entries Json none) (segment : String) :
    List String → Entries Json none × Option Obstacle
  | [] => (fields.insert segment value, none)
  | next :: more =>
    match fields.get? segment with
    | some (.object inner) =>
      let (inner, obstacle) := plant value inner next more
      (fields.insert segment (.object inner), obstacle)
    | some other => (fields, some (.blocked segment other.kind))
    | none =>
      let (inner, obstacle) := plant value .nil next more
      (fields.insert segment (.object inner), obstacle)

end DocTemplate
