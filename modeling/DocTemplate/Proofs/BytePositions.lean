import DocTemplate.Proofs.PlainWalk

/-! The pass over a template counted in bytes. Every cut that it makes is at the end of a character
inside the template, and every iteration moves it forward. -/
namespace DocTemplate

namespace Text

variable {before rest text pattern : List Char} {n : Nat}

/-- The text from a byte position on. There is none from inside a character or behind the end. -/
def from? (position : Nat) (text : List Char) : Option (List Char) :=
  (cutBytes? position text).map (·.2)

/-- The text between two byte positions. The first is not behind the second. -/
def between? (start stop : Nat) (text : List Char) : Option (List Char) :=
  if start ≤ stop then
    (from? start text).bind fun rest => (cutBytes? (stop - start) rest).map (·.1)
  else none

/-- The byte position of the first occurrence of a pattern. -/
def offset? (pattern text : List Char) : Option Nat :=
  (cutAt? pattern text).map fun (before, _) => byteSize before

@[simp]
theorem cutBytes?_append (before rest : List Char) :
    cutBytes? (byteSize before) (before ++ rest) = some (before, rest) := by
  induction before with
  | nil => cases rest <;> rfl
  | cons c before ih =>
    have hpos := c.utf8Size_pos
    obtain ⟨k, hk⟩ : ∃ k, byteSize (c :: before) = k + 1 :=
      ⟨byteSize (c :: before) - 1, by rw [byteSize]; omega⟩
    have hle : c.utf8Size ≤ k + 1 := by rw [← hk, byteSize]; omega
    have hrest : k + 1 - c.utf8Size = byteSize before := by rw [← hk, byteSize]; omega
    rw [hk, List.cons_append, cutBytes?, if_pos hle, hrest, ih]
    rfl

@[simp]
theorem from?_append (before rest : List Char) :
    from? (byteSize before) (before ++ rest) = some rest := by
  simp [from?]

@[simp]
theorem between?_append (before middle rest : List Char) :
    between? (byteSize before) (byteSize before + byteSize middle) (before ++ (middle ++ rest)) =
      some middle := by
  simp [between?]

theorem byteSize_eq_utf8Len (text : List Char) : byteSize text = String.utf8Len text := by
  induction text with
  | nil => rfl
  | cons c text ih => rw [byteSize, String.utf8Len_cons, ih, Nat.add_comm]

theorem byteSize_toList (s : String) : byteSize s.toList = s.utf8ByteSize := by
  rw [byteSize_eq_utf8Len, ← String.utf8ByteSize_ofList, String.ofList_toList]

theorem byteSize_eq_zero_iff : byteSize text = 0 ↔ text = [] := by
  constructor
  · intro h
    have hlength := length_le_byteSize text
    exact List.length_eq_zero_iff.mp (by omega)
  · rintro rfl
    rfl

end Text

/-- What can go wrong with byte positions: a cut beside the template or inside a character, a step
at the end of the text where there is no character, and a pass that takes too long. -/
inductive Slip where
  | cut
  | noCharacter
  | tooLong
deriving DecidableEq

/-- What one iteration emits, how many tokens it replaces, and where the next one begins. -/
structure Iteration where
  emitted : List Char
  replaced : Nat
  next : Nat
deriving DecidableEq

def Advance.iteration (advance : Advance) : Iteration :=
  ⟨advance.emitted, advance.replaced, advance.next.position⟩

def checked : Option (List Char) → Except Slip (List Char)
  | some text => .ok text
  | none => .error .cut

@[simp]
theorem checked_some (text : List Char) : checked (some text) = .ok text := rfl

@[simp]
theorem ok_bind {ε α β : Type} (value : α) (next : α → Except ε β) :
    (Except.ok value >>= next) = next value := rfl

namespace SubstitutionTable

/-- One iteration of the pass, made of cuts at byte positions. -/
def iterate (table : SubstitutionTable) (left template : List Char) (position : Nat) :
    Except Slip (Option Iteration) := do
  let ahead ← checked (Text.from? position template)
  match Text.offset? left ahead with
  | none => return none
  | some offset =>
    let start := position + offset
    let skipped ← checked (Text.between? position start template)
    let found ← checked (Text.from? start template)
    match table.match? found, found with
    | some entry, _ =>
      return some ⟨skipped ++ entry.replacement, 1, start + Text.byteSize entry.token⟩
    | none, [] => throw .noCharacter
    | none, c :: _ =>
      let copied ← checked (Text.between? 0 c.utf8Size found)
      return some ⟨skipped ++ copied, 0, start + c.utf8Size⟩

/-- The pass, made of such iterations. -/
def scan (table : SubstitutionTable) (left template : List Char) :
    (fuel position : Nat) → Except Slip Rendered
  | 0, _ => throw .tooLong
  | fuel + 1, position => do
    match ← table.iterate left template position with
    | none => return ⟨← checked (Text.from? position template), 0⟩
    | some iteration =>
      let after ← table.scan left template fuel iteration.next
      return ⟨iteration.emitted ++ after.text, iteration.replaced + after.replaced⟩

end SubstitutionTable

namespace Cursor

variable {table : SubstitutionTable} {left template skipped found : List Char}
  {cursor : Cursor} {advance : Advance} {n fuel : Nat}

/-- The cursor stands at the end of a character of the template, or at its beginning. -/
def Within (template : List Char) (cursor : Cursor) : Prop :=
  ∃ before, template = before ++ cursor.rest ∧ cursor.position = Text.byteSize before

theorem within_start (template : List Char) : Within template ⟨0, template⟩ :=
  ⟨[], rfl, rfl⟩

theorem Within.from? (h : cursor.Within template) :
    Text.from? cursor.position template = some cursor.rest := by
  obtain ⟨before, rfl, hp⟩ := h
  simp [hp]

theorem Within.between? {passed rest : List Char} (h : cursor.Within template)
    (hr : cursor.rest = passed ++ rest) :
    Text.between? cursor.position (cursor.position + Text.byteSize passed) template =
      some passed := by
  obtain ⟨before, rfl, hp⟩ := h
  simp [hp, hr]

theorem Within.size (h : cursor.Within template) :
    cursor.position + Text.byteSize cursor.rest = Text.byteSize template := by
  obtain ⟨before, rfl, hp⟩ := h
  simp [hp]

/-- Text that is passed by moves the cursor on by its bytes. -/
theorem Within.move {passed rest : List Char} (h : cursor.Within template)
    (hr : cursor.rest = passed ++ rest) :
    Within template ⟨cursor.position + Text.byteSize passed, rest⟩ := by
  obtain ⟨before, rfl, hp⟩ := h
  exact ⟨before ++ passed, by simp [hr], by simp [hp]⟩

theorem Within.forward (hl : left ≠ []) (ho : Opening left table.match?)
    (hw : cursor.Within template) (h : cursor.advance? table left = some advance) :
    advance.next.Within template ∧ cursor.position < advance.next.position := by
  obtain ⟨skipped, found, hc, hstep⟩ := advance?_cases hl h
  have hstart := hw.move (Text.cutAt?_some hc).1
  rcases hstep with ⟨entry, hm, rfl⟩ | ⟨c, rest, rfl, hm, rfl⟩
  · obtain ⟨more, hfound⟩ := ho.token_prefix hm
    have hne : Text.byteSize entry.token ≠ 0 := by
      rw [Ne, Text.byteSize_eq_zero_iff]
      exact ho.token_ne_nil hl hm
    rw [← hfound, List.drop_left]
    refine ⟨hstart.move hfound.symm, ?_⟩
    simp only
    omega
  · have hpos := c.utf8Size_pos
    have hone : Text.byteSize [c] = c.utf8Size := rfl
    have hnext := hstart.move (show c :: rest = [c] ++ rest from rfl)
    rw [hone] at hnext
    refine ⟨hnext, ?_⟩
    simp only
    omega

/-- At a cursor of the pass every cut is one, there is a character where one is copied, and the
iteration does what the pass does. -/
theorem Within.iterate (hl : left ≠ []) (hw : cursor.Within template) :
    table.iterate left template cursor.position =
      .ok ((cursor.advance? table left).map Advance.iteration) := by
  have hahead := hw.from?
  simp only [SubstitutionTable.iterate, hahead, checked_some, ok_bind, Text.offset?]
  cases hc : Text.cutAt? left cursor.rest with
  | none =>
    rw [advance?_of_cutAt?_none hc]
    rfl
  | some cut =>
    obtain ⟨skipped, found⟩ := cut
    obtain ⟨hs, hprefix⟩ := Text.cutAt?_some hc
    have hskipped := hw.between? hs
    have hfound := (hw.move hs).from?
    simp only [Option.map_some, hskipped, hfound, checked_some, ok_bind]
    cases found with
    | nil => exact (hl (List.prefix_nil.mp hprefix)).elim
    | cons c rest =>
      cases hm : table.match? (c :: rest) with
      | some entry =>
        rw [advance?_replace hc hm]
        rfl
      | none =>
        have hcopied : Text.between? 0 c.utf8Size (c :: rest) = some [c] := by
          simpa [Text.byteSize] using Text.between?_append [] [c] rest
        rw [advance?_copy hc hm]
        simp [hcopied, Advance.iteration]

/-- With fuel for every byte that is left and one look more, the pass on byte positions ends as the
pass does. -/
theorem Within.scan (hl : left ≠ []) (ho : Opening left table.match?) (hw : cursor.Within template)
    (hf : Text.byteSize cursor.rest ≤ fuel) :
    table.scan left template (fuel + 1) cursor.position = .ok (run table left fuel cursor) := by
  induction fuel generalizing cursor with
  | zero =>
    have hrest : cursor.rest = [] := Text.byteSize_eq_zero_iff.mp (Nat.le_zero.mp hf)
    have hcut : Text.cutAt? left cursor.rest = none := by
      rw [hrest, Text.cutAt?, if_neg (by simpa using hl)]
    rw [SubstitutionTable.scan, hw.iterate hl, advance?_of_cutAt?_none hcut, run]
    simp [hw.from?]
  | succ fuel ih =>
    rw [SubstitutionTable.scan, hw.iterate hl]
    cases ha : cursor.advance? table left with
    | none =>
      rw [run_end ha]
      simp [hw.from?]
    | some advance =>
      obtain ⟨hnext, hlt⟩ := hw.forward hl ho ha
      have hsize := hw.size
      have hsize' := hnext.size
      have hafter := ih hnext (by omega)
      rw [run_advance ha]
      simp [Advance.iteration, hafter]

/-- The cursors that the pass comes to, with the number of iterations before. -/
inductive Reached (table : SubstitutionTable) (left template : List Char) : Nat → Cursor → Prop
  | start : Reached table left template 0 ⟨0, template⟩
  | next {n : Nat} {cursor : Cursor} {advance : Advance} : Reached table left template n cursor →
      cursor.advance? table left = some advance → Reached table left template (n + 1) advance.next

theorem Reached.within (hl : left ≠ []) (ho : Opening left table.match?)
    (h : Reached table left template n cursor) :
    cursor.Within template ∧ n ≤ cursor.position := by
  induction h with
  | start => exact ⟨within_start template, Nat.zero_le 0⟩
  | next _ ha ih =>
    obtain ⟨hnext, hlt⟩ := ih.1.forward hl ho ha
    exact ⟨hnext, by omega⟩

end Cursor

namespace Delimiters

open Cursor

/-- Whatever the marks, neither of which is empty, the template and the variables: at every cursor
that the pass comes to, its position in bytes is where a character ends or the template begins, and
what follows there is the rest of the template. Every cut of the iteration from there is one, the
character to be copied is there, and the iteration moves forward, so there are no more iterations
than the template has bytes. Made of such cuts the pass comes to its end, with what it renders. -/
theorem pass_stays_within_template (d : Delimiters) (c : Collection) (template : String) :
    let table := d.table c
    let left := d.left.toList
    (∀ n cursor, Reached table left template.toList n cursor →
      Text.from? cursor.position template.toList = some cursor.rest ∧
        table.iterate left template.toList cursor.position =
          .ok ((cursor.advance? table left).map Advance.iteration) ∧
        (∀ advance, cursor.advance? table left = some advance →
          cursor.position < advance.next.position ∧
            advance.next.position ≤ template.utf8ByteSize) ∧
        n ≤ template.utf8ByteSize) ∧
      table.scan left template.toList (template.utf8ByteSize + 1) 0 =
        .ok (d.substitute template c) := by
  intro table left
  have hl := d.left_ne_nil
  have ho := d.opening_table c
  have hbytes := Text.byteSize_toList template
  constructor
  · intro n cursor h
    obtain ⟨hw, hn⟩ := h.within hl ho
    have hsize := hw.size
    refine ⟨hw.from?, hw.iterate hl, ?_, by omega⟩
    intro advance ha
    obtain ⟨hnext, hlt⟩ := hw.forward hl ho ha
    have hsize' := hnext.size
    exact ⟨hlt, by omega⟩
  · rw [← hbytes]
    exact (within_start template.toList).scan hl ho le_rfl

/-- Characters of two and of three bytes around a placeholder, and a mark that begins none. -/
theorem pass_stays_within_template_between_wide_characters :
    let template := "é\x7b\x7b.n\x7d\x7d—\x7b\x7b"
    let c := Collection.empty.set "n" (.string "Zoë")
    let table := standard.table c
    let left := standard.left.toList
    let cursor : Cursor := ⟨8, "—\x7b\x7b".toList⟩
    let advance : Advance := ⟨"—\x7b".toList, 0, ⟨12, ['\x7b']⟩⟩
    Reached table left template.toList 1 cursor ∧
      cursor.advance? table left = some advance ∧
      Text.from? cursor.position template.toList = some cursor.rest ∧
      table.iterate left template.toList cursor.position = .ok (some advance.iteration) ∧
      cursor.position < advance.next.position ∧
      advance.next.position ≤ template.utf8ByteSize ∧
      table.scan left template.toList (template.utf8ByteSize + 1) 0 =
        .ok (standard.substitute template c) := by
  intro template c table left cursor advance
  have hfirst : Cursor.advance? table left ⟨0, template.toList⟩ =
      some ⟨"éZoë".toList, 1, cursor⟩ := by decide +kernel
  have hreached : Reached table left template.toList 1 cursor := .next .start hfirst
  have hnext : cursor.advance? table left = some advance := by decide +kernel
  obtain ⟨hall, hscan⟩ := pass_stays_within_template standard c template
  obtain ⟨hfrom, hiterate, hforward, _⟩ := hall 1 cursor hreached
  obtain ⟨hlt, hle⟩ := hforward advance hnext
  refine ⟨hreached, hnext, hfrom, ?_, hlt, hle, hscan⟩
  exact hiterate.trans (by rw [hnext]; rfl)

/-- With an empty mark the iteration at the end of the text finds no character to copy. -/
example : SubstitutionTable.scan .empty [] ['é'] 3 0 = .error .noCharacter := by decide

end Delimiters
end DocTemplate
