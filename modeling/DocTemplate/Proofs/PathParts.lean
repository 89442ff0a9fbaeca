import DocTemplate.Proofs.NestedFrame

/-! Paths in two parts. A path leads where its second part leads from the object at the end of the
first. Any other value there is in the way, and what is in the way of the first part is in the way
of the whole path. -/
namespace DocTemplate

variable {c : Collection} {fields : Entries Json none} {path : Path} {segment : String}
  {more : List String}

namespace Path

/-- The two paths, one behind the other. -/
def append (p q : Path) : Path where
  text := p.text ++ "." ++ q.text
  root := p.root
  rest := p.rest ++ q.segments
  split := by
    rw [segmentsOf_append, p.split, q.split]
    rfl

/-- The last segment. -/
def last (path : Path) : String := path.segments.getLast (List.cons_ne_nil _ _)

@[simp]
theorem text_append (p q : Path) : (p.append q).text = p.text ++ "." ++ q.text := rfl

@[simp]
theorem segments_append (p q : Path) : (p.append q).segments = p.segments ++ q.segments := rfl

theorem ofText_append (front back : String) :
    ofText (front ++ "." ++ back) = (ofText front).append (ofText back) :=
  ext_text (by simp)

theorem append_assoc (p q r : Path) : (p.append q).append r = p.append (q.append r) :=
  ext_text (by simp [String.append_assoc])

@[simp]
theorem last_append (p q : Path) : (p.append q).last = q.last := by
  have hne : q.segments ≠ [] := List.cons_ne_nil _ _
  simp only [last, segments_append, List.getLast_append_of_ne_nil _ hne]

/-- A path with more than one segment is its first segment and a path behind it. -/
theorem exists_root_of_rest (h : path.rest = segment :: more) :
    ∃ root tail : Path, path = root.append tail ∧ root.rest = [] ∧ tail.rest = more := by
  have hs : path.segments = path.root :: segment :: more := congrArg (path.root :: ·) h
  have hd : ∀ part ∈ path.root :: segment :: more, '.' ∉ part.toList :=
    fun part hm => dotFree_of_mem (hs ▸ hm)
  obtain ⟨hroot, htail⟩ := List.forall_mem_cons.mp hd
  have hone := segments_joined (List.cons_ne_nil path.root []) (by simpa using hroot)
  have hmore := segments_joined (List.cons_ne_nil segment more) htail
  refine ⟨ofText path.root, ofText (Text.joined "." (segment :: more)), ?_, ?_, ?_⟩
  · apply ext_segments
    rw [segments_append, hmore, hs]
    exact congrArg (· ++ segment :: more) hone.symm
  · exact (List.cons.inj hone).2
  · exact (List.cons.inj hmore).2

end Path

/-- An error of a path, met on a path that goes on behind it. -/
def VariableError.along (path : String) : VariableError → VariableError
  | .notFound _ segment => .notFound path segment
  | .notAnObject _ segment kind => .notAnObject path segment kind
  | other => other

namespace Obstacle

theorem along_error (obstacle : Obstacle) (path : Path) (text : String) :
    (obstacle.error path).along text = obstacle.error (Path.ofText text) := by
  cases obstacle <;> simp [VariableError.along]

end Obstacle

/-- The way on from the value that stands at a segment: only an object leads further. -/
def Json.onward (segment next : String) (more : List String) : Json → Except Obstacle Json
  | .object fields => descend fields next more
  | other => .error (.blocked segment other.kind)

/-- A way down in two parts. -/
theorem Json.descend_append {rest : List String} (next : String) :
    descend fields segment (more ++ next :: rest) =
      (descend fields segment more).bind
        (onward ((segment :: more).getLast (List.cons_ne_nil _ _)) next rest) := by
  induction more generalizing fields segment with
  | nil =>
    rw [List.nil_append, descend, descend]
    cases fields.get? segment with
    | none => rfl
    | some found => cases found <;> rfl
  | cons first more ih =>
    rw [List.cons_append, descend, descend]
    cases fields.get? segment with
    | none => rfl
    | some found =>
      cases found with
      | object inner =>
        simp only [ih]
        rfl
      | _ => rfl

/-- The way on from the variable that stands at a segment. -/
def Variable.onward (segment : String) (path : Path) : Variable → Except Obstacle Variable
  | .object fields => (Collection.ofFields fields).reach path
  | other => .error (.blocked segment other.kind)

namespace Collection

/-- The fields of an object are read like the variables of a collection. -/
theorem reach_ofFields (fields : Entries Json none) (path : Path) :
    (ofFields fields).reach path =
      (Json.descend fields path.root path.rest).map Variable.ofJson := by
  rw [reach, get?_ofFields]
  cases hr : path.rest with
  | nil =>
    rw [Json.descend]
    cases fields.get? path.root <;> rfl
  | cons segment more =>
    rw [Json.descend]
    cases fields.get? path.root with
    | none => rfl
    | some value => cases value <;> rfl

theorem onward_ofJson (segment : String) (path : Path) (value : Json) :
    (Variable.ofJson value).onward segment path =
      (value.onward segment path.root path.rest).map Variable.ofJson := by
  cases value with
  | object fields => exact reach_ofFields fields path
  | _ => rfl

theorem reach_append (c : Collection) (p q : Path) :
    c.reach (p.append q) = (c.reach p).bind (Variable.onward p.last q) := by
  obtain ⟨text, root, rest, hp⟩ := p
  cases hg : c.get? root with
  | none =>
    simp only [reach, Path.append, hg]
    rfl
  | some value =>
    cases rest with
    | nil =>
      cases value with
      | object fields =>
        simp only [reach, Path.append, hg]
        exact (reach_ofFields fields q).symm
      | _ =>
        simp only [reach, Path.append, hg]
        rfl
    | cons segment more =>
      cases value with
      | object fields =>
        have hlast : Path.last ⟨text, root, segment :: more, hp⟩ =
            (segment :: more).getLast (List.cons_ne_nil _ _) := rfl
        have hwhole : c.reach (Path.append ⟨text, root, segment :: more, hp⟩ q) =
            (Json.descend fields segment (more ++ q.root :: q.rest)).map Variable.ofJson :=
          reach_object rfl hg
        have hfront : c.reach ⟨text, root, segment :: more, hp⟩ =
            (Json.descend fields segment more).map Variable.ofJson := reach_object rfl hg
        rw [hwhole, hfront, hlast, Json.descend_append]
        cases Json.descend fields segment more with
        | error obstacle => rfl
        | ok found => exact (onward_ofJson _ q found).symm
      | _ =>
        simp only [reach, Path.append, hg]
        rfl

/-- What a path reads in a collection, told of a longer path. -/
theorem getNested_along (c : Collection) (text whole : String) :
    (c.getNested text).mapError (.along whole) =
      (c.reach (Path.ofText text)).mapError (Obstacle.error (Path.ofText whole)) := by
  rw [getNested_eq_reach]
  cases c.reach (Path.ofText text) with
  | error obstacle => exact congrArg Except.error (obstacle.along_error _ whole)
  | ok value => rfl

/-- A path in two parts ends as its first part does, if that ends in an error. From an object it
goes on along the second part, and any other value is in its way. -/
theorem getNested_append (c : Collection) (front back : String) :
    c.getNested (front ++ "." ++ back) =
      match c.getNested front with
      | .ok (.object fields) =>
        ((ofFields fields).getNested back).mapError (.along (front ++ "." ++ back))
      | .ok value =>
        .error (.notAnObject (front ++ "." ++ back) (Path.ofText front).last value.kind)
      | .error e => .error (e.along (front ++ "." ++ back)) := by
  have hreach : c.reach (Path.ofText (front ++ "." ++ back)) =
      (c.reach (Path.ofText front)).bind
        (Variable.onward (Path.ofText front).last (Path.ofText back)) := by
    rw [Path.ofText_append, reach_append]
  rw [getNested_eq_reach, hreach, getNested_eq_reach c front]
  cases c.reach (Path.ofText front) with
  | error obstacle => exact congrArg Except.error (obstacle.along_error _ _).symm
  | ok value =>
    cases value with
    | object fields => exact (getNested_along (ofFields fields) back _).symm
    | _ => simp [Except.bind, Except.mapError, Variable.onward]

end Collection
end DocTemplate
