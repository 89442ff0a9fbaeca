import DocTemplate.Proofs.Entries
import DocTemplate.Proofs.NumberText

/-! The compact text of a JSON value is read back as the value, so it tells values apart. -/
namespace DocTemplate

namespace StringPart

/-- How a character stands in a text between quotes: only control characters without an escape of
their own become codes. -/
def ofChar (c : Char) : StringPart :=
  if c.toNat < 0x20 ∧ c ∉ ['\x08', '\x0c', '\n', '\r', '\t'] then .code c.toNat else .plain c

theorem natural?_hexDigits {n : Nat} (h : n < 0x20) :
    Decimal.natural? 16 ['0', '0', Json.hexDigit (n / 16), Json.hexDigit (n % 16)] = some n := by
  have hall : ∀ n < 0x20, Decimal.natural? 16
      ['0', '0', Json.hexDigit (n / 16), Json.hexDigit (n % 16)] = some n := by decide
  exact hall n h

theorem readAll?_letter {letter c : Char} (rest : List Char) (hu : letter ≠ 'u')
    (h : escaped? letter = some c) : readAll? ('\\' :: letter :: rest) =
      (readAll? rest).map fun (parts, rest) => (.plain c :: parts, rest) := by
  rw [readAll?]
  · rw [h]
    cases readAll? rest <;> rfl
  · intro _ _ _ _ _ he
    exact (hu he).elim

theorem readAll?_code {n : Nat} (a b c d : Char) (rest : List Char)
    (h : Decimal.natural? 16 [a, b, c, d] = some n) :
    readAll? ('\\' :: 'u' :: a :: b :: c :: d :: rest) =
      (readAll? rest).map fun (parts, rest) => (.code n :: parts, rest) := by
  rw [readAll?, h]
  cases readAll? rest <;> rfl

theorem readAll?_plain {c : Char} (rest : List Char) (hquote : c ≠ '\x22') (hslash : c ≠ '\\')
    (h : 0x20 ≤ c.toNat) : readAll? (c :: rest) =
      (readAll? rest).map fun (parts, rest) => (.plain c :: parts, rest) := by
  have hguard : (decide (0x20 ≤ c.toNat) && c != '\\') = true := by simp [h, hslash]
  rw [readAll?]
  · rw [hguard]
    cases readAll? rest <;> rfl
  · exact hquote
  · exact fun _ _ _ _ _ he => (hslash he).elim
  · exact fun _ _ he => (hslash he).elim

theorem readAll?_escape (c : Char) (rest : List Char) :
    readAll? (Json.escape c ++ rest) =
      (readAll? rest).map fun (parts, rest) => (ofChar c :: parts, rest) := by
  unfold Json.escape
  split
  · exact readAll?_letter rest (by decide) rfl
  · exact readAll?_letter rest (by decide) rfl
  · exact readAll?_letter rest (by decide) rfl
  · exact readAll?_letter rest (by decide) rfl
  · exact readAll?_letter rest (by decide) rfl
  · exact readAll?_letter rest (by decide) rfl
  · exact readAll?_letter rest (by decide) rfl
  · rename_i hquote hslash hb hf hn hr ht
    split
    · rename_i hcontrol
      have hown : c ∉ ['\x08', '\x0c', '\n', '\r', '\t'] := by
        simp only [List.mem_cons, List.not_mem_nil, or_false, not_or]
        exact ⟨hb, hf, hn, hr, ht⟩
      have hpart : ofChar c = .code c.toNat := if_pos ⟨hcontrol, hown⟩
      rw [hpart]
      exact readAll?_code _ _ _ _ rest (natural?_hexDigits hcontrol)
    · rename_i hplain
      have hpart : ofChar c = .plain c := if_neg fun h => hplain h.1
      rw [hpart]
      exact readAll?_plain rest hquote hslash (by omega)

@[simp]
theorem readAll?_quoted (text rest : List Char) :
    readAll? (text.flatMap Json.escape ++ '\x22' :: rest) = some (text.map ofChar, rest) := by
  induction text with
  | nil => rfl
  | cons c text ih =>
    rw [List.flatMap_cons, List.append_assoc, readAll?_escape, ih]
    rfl

theorem text?_ofChar (c : Char) (parts : List StringPart) :
    text? (ofChar c :: parts) = (text? parts).map (c :: ·) := by
  rw [ofChar]
  split
  · rename_i hcode
    have hhigh : isHigh c.toNat = false := by
      simp only [isHigh, Bool.and_eq_false_iff, decide_eq_false_iff_not]
      omega
    have hlow : isLow c.toNat = false := by
      simp only [isLow, Bool.and_eq_false_iff, decide_eq_false_iff_not]
      omega
    have hc : Char.ofNat c.toNat = c := Char.ofNat_toNat c
    cases parts with
    | nil => simp [text?, hhigh, hlow, hc]
    | cons part parts =>
      cases part with
      | plain other => simp [text?, hhigh, hlow, hc]
      | code n => simp [text?, hhigh, hlow, hc]
  · rfl

@[simp]
theorem string?_map_ofChar (text : String) : string? (text.toList.map ofChar) = some text := by
  have ht : ∀ text : List Char, text? (text.map ofChar) = some text := by
    intro text
    induction text with
    | nil => rfl
    | cons c text ih => rw [List.map_cons, text?_ofChar, ih, Option.map_some]
  rw [string?, ht, Option.map_some, String.ofList_toList]

end StringPart

namespace Json

mutual

/-- The levels of nesting. -/
def depth : Json → Nat
  | .array items => depthItems items + 1
  | .object fields => depthFields fields + 1
  | _ => 0
termination_by structural value => value

def depthItems : List Json → Nat
  | [] => 0
  | item :: items => max (depth item) (depthItems items)
termination_by structural items => items

def depthFields {low : Option String} : Entries Json low → Nat
  | .nil => 0
  | .cons _ _ value rest => max (depth value) (depthFields rest)
termination_by structural fields => fields

end

/-- The texts of a list with commas between them. -/
def row (texts : List String) : List Char := (Text.joined "," texts).toList

theorem row_cons {text : String} {more : List String} (h : more ≠ []) :
    row (text :: more) = text.toList ++ ',' :: row more := by
  obtain ⟨next, others, rfl⟩ := List.exists_cons_of_ne_nil h
  simp [row, Text.joined]

theorem toList_compact_array (items : List Json) :
    (Json.array items).compact.toList = '[' :: (row (compactItems items) ++ [']']) := by
  simp [compact, row]

theorem toList_compact_object (fields : Entries Json none) :
    (Json.object fields).compact.toList = '\x7b' :: (row (compactFields fields) ++ ['\x7d']) := by
  simp [compact, row]

@[simp]
theorem toList_quoted (text : String) :
    (quoted text).toList = '\x22' :: (text.toList.flatMap escape ++ ['\x22']) := by
  simp [quoted]

end Json

namespace Written

@[simp]
theorem skipBlanks_cons {c : Char} (text : List Char) (h : c ∉ [' ', '\t', '\n', '\r']) :
    skipBlanks (c :: text) = c :: text := by
  simp only [List.mem_cons, List.not_mem_nil, or_false, not_or] at h
  simp [skipBlanks, h]

open Json

theorem exists_cons_number (number : Number) :
    ∃ c text, number.text.toList = c :: text ∧ (c = '-' ∨ c.isDigit = true) := by
  have hp := number.written_proper
  obtain ⟨first, more, hw⟩ := List.exists_cons_of_ne_nil hp.ne_nil
  rw [Number.text_eq_written, WrittenNumber.text, hw]
  cases number.written.negative with
  | true => exact ⟨'-', _, rfl, Or.inl rfl⟩
  | false => exact ⟨first, _, rfl, Or.inr (hp.whole first (hw ▸ List.mem_cons_self ..))⟩

/-- A number begins with none of the marks of the other values. -/
theorem not_mem_of_number {c : Char} (h : c = '-' ∨ c.isDigit = true) :
    c ∉ [' ', '\t', '\n', '\r', '\x7b', '[', ']', '\x22', 'n', 't', 'f'] := by
  rcases h with rfl | h
  · decide
  · intro hm
    have hall : [' ', '\t', '\n', '\r', '\x7b', '[', ']', '\x22', 'n', 't', 'f'].all
        (fun c => !c.isDigit) = true := by decide
    have hc := List.all_eq_true.mp hall c hm
    rw [h] at hc
    cases hc

/-- A value begins neither with a blank nor with a closing mark. -/
theorem exists_cons_compact (value : Json) :
    ∃ c text, value.compact.toList = c :: text ∧ c ∉ [' ', '\t', '\n', '\r', ']'] := by
  cases value with
  | null => exact ⟨'n', _, rfl, by decide⟩
  | boolean value =>
    cases value with
    | true => exact ⟨'t', _, rfl, by decide⟩
    | false => exact ⟨'f', _, rfl, by decide⟩
  | number value =>
    obtain ⟨c, text, ht, hc⟩ := exists_cons_number value
    have hsub : [' ', '\t', '\n', '\r', ']'] ⊆
        [' ', '\t', '\n', '\r', '\x7b', '[', ']', '\x22', 'n', 't', 'f'] := by decide
    exact ⟨c, text, ht, fun hm => not_mem_of_number hc (hsub hm)⟩
  | string text => exact ⟨'\x22', _, toList_quoted text, by decide⟩
  | array items => exact ⟨'[', _, toList_compact_array items, by decide⟩
  | object fields => exact ⟨'\x7b', _, toList_compact_object fields, by decide⟩

theorem readAt_number (number : Number) {rest : List Char} (fuel : Nat)
    (hr : WrittenNumber.Ends rest) :
    readAt (fuel + 1) (number.text.toList ++ rest) = some (.number number.written, rest) := by
  have hread := WrittenNumber.read?_text number.written_proper hr
  rw [← Number.text_eq_written] at hread
  obtain ⟨c, text, ht, hc⟩ := exists_cons_number number
  have hmarks := not_mem_of_number hc
  simp only [List.mem_cons, List.not_mem_nil, or_false, not_or] at hmarks
  rw [ht, List.cons_append] at hread ⊢
  have hs : skipBlanks (c :: (text ++ rest)) = c :: (text ++ rest) :=
    skipBlanks_cons _ (by simp [hmarks])
  unfold readAt
  rw [hs]
  split
  · simp_all
  · simp_all
  · simp_all
  · simp_all
  · simp_all
  · simp_all
  · rw [hread]
    rfl

theorem readAt_string (text : String) (fuel : Nat) (rest : List Char) :
    readAt (fuel + 1) ((Json.string text).compact.toList ++ rest) =
      some (.string (text.toList.map StringPart.ofChar), rest) := by
  simp [compact, readAt]

theorem exists_cons_row {texts : List String} {first : String} {c : Char} {text : List Char}
    (h : first.toList = c :: text) : ∃ more, row (first :: texts) = c :: more := by
  by_cases hm : texts = []
  · subst hm
    exact ⟨text, h⟩
  · rw [row_cons hm, h]
    exact ⟨_, rfl⟩

/-- A list that is not empty is read item by item. -/
theorem readAt_items {items : List Json} {written : List Written} {fuel : Nat} {rest : List Char}
    (hne : items ≠ [])
    (h : readItems fuel (row (compactItems items) ++ ']' :: rest) = some (written, rest)) :
    readAt (fuel + 1) ((Json.array items).compact.toList ++ rest) =
      some (.array written, rest) := by
  obtain ⟨item, items, rfl⟩ := List.exists_cons_of_ne_nil hne
  obtain ⟨c, text, ht, hc⟩ := exists_cons_compact item
  obtain ⟨more, hm⟩ : ∃ more, row (compactItems (item :: items)) = c :: more := exists_cons_row ht
  have hs : skipBlanks (c :: (more ++ ']' :: rest)) = c :: (more ++ ']' :: rest) :=
    skipBlanks_cons _ fun hb => hc (List.mem_append_left [']'] hb)
  have hclose : c ≠ ']' := by
    rintro rfl
    exact hc (by decide)
  rw [toList_compact_array, List.cons_append, List.append_assoc, readAt,
    skipBlanks_cons _ (by decide)]
  rw [hm, List.cons_append] at h ⊢
  simp only [List.cons_append, List.nil_append, hs]
  split
  · rename_i he
    exact (hclose (List.cons.inj he).1).elim
  · rw [h]
    rfl

theorem toList_field (key : String) (value : Json) : (quoted key ++ ":" ++ value.compact).toList =
    '\x22' :: (key.toList.flatMap escape ++ '\x22' :: ':' :: value.compact.toList) := by
  simp

/-- Fields are read one by one, if there are any. -/
theorem readAt_fields {fields : Entries Json none}
    {written : List (List StringPart × Written)} {fuel : Nat} {rest : List Char}
    (hne : fields.isEmpty = false)
    (h : readFields fuel (row (compactFields fields) ++ '\x7d' :: rest) = some (written, rest)) :
    readAt (fuel + 1) ((Json.object fields).compact.toList ++ rest) =
      some (.object written, rest) := by
  cases fields with
  | nil => cases hne
  | cons key above value others =>
    obtain ⟨more, hm⟩ : ∃ more, row (compactFields (.cons key above value others)) =
        '\x22' :: more := exists_cons_row (toList_field key value)
    rw [toList_compact_object, List.cons_append, List.append_assoc, readAt,
      skipBlanks_cons _ (by decide)]
    rw [hm, List.cons_append] at h ⊢
    simp only [List.cons_append, List.nil_append,
      skipBlanks_cons _ (by decide : '\x22' ∉ [' ', '\t', '\n', '\r'])]
    exact congrArg (Option.map fun found => (Written.object found.1, found.2)) h

theorem readItems_close {text rest : List Char} {written : Written} {fuel : Nat}
    (h : readAt fuel text = some (written, ']' :: rest)) :
    readItems (fuel + 1) text = some ([written], rest) := by
  simp [readItems, h]

theorem readItems_comma {text rest remaining : List Char} {written : Written}
    {more : List Written} {fuel : Nat} (h : readAt fuel text = some (written, ',' :: rest))
    (hm : readItems fuel rest = some (more, remaining)) :
    readItems (fuel + 1) text = some (written :: more, remaining) := by
  simp [readItems, h, hm]

theorem readFields_close {key : String} {text rest : List Char} {written : Written} {fuel : Nat}
    (h : readAt fuel text = some (written, '\x7d' :: rest)) :
    readFields (fuel + 1) ('\x22' :: (key.toList.flatMap escape ++ '\x22' :: ':' :: text)) =
      some ([(key.toList.map StringPart.ofChar, written)], rest) := by
  simp [readFields, h]

theorem readFields_comma {key : String} {text rest remaining : List Char} {written : Written}
    {more : List (List StringPart × Written)} {fuel : Nat}
    (h : readAt fuel text = some (written, ',' :: rest))
    (hm : readFields fuel rest = some (more, remaining)) :
    readFields (fuel + 1) ('\x22' :: (key.toList.flatMap escape ++ '\x22' :: ':' :: text)) =
      some ((key.toList.map StringPart.ofChar, written) :: more, remaining) := by
  simp [readFields, h, hm]

theorem ends_nil : WrittenNumber.Ends [] := nofun

theorem ends_cons {c : Char} (rest : List Char) (h : c ∈ [',', ']', '\x7d']) :
    WrittenNumber.Ends (c :: rest) := by
  intro first hf
  obtain rfl : c = first := Option.some.inj hf
  have hall : [',', ']', '\x7d'].all
      (fun c => !c.isDigit && c != '.' && c != 'e' && c != 'E') = true := by decide
  have hc := List.all_eq_true.mp hall c h
  simpa [and_assoc] using hc

mutual

/-- The text of a value is read off the front of a text, and means the value. -/
theorem readAt_compact : ∀ (value : Json) (fuel : Nat) (rest : List Char),
    value.compact.toList.length ≤ fuel + 1 → WrittenNumber.Ends rest →
      ∃ written, readAt (fuel + 1) (value.compact.toList ++ rest) = some (written, rest) ∧
        ∀ levels, value.depth ≤ levels → valueAt levels written = some value
  | .null => fun _ _ _ _ => ⟨.null, rfl, fun _ _ => by rw [valueAt]⟩
  | .boolean true => fun _ _ _ _ => ⟨.boolean true, rfl, fun _ _ => by rw [valueAt]⟩
  | .boolean false => fun _ _ _ _ => ⟨.boolean false, rfl, fun _ _ => by rw [valueAt]⟩
  | .number value => by
    intro fuel rest _ hr
    refine ⟨_, readAt_number value fuel hr, fun levels _ => ?_⟩
    rw [valueAt, Number.value?_written, Option.map_some]
  | .string text => by
    intro fuel rest _ _
    refine ⟨_, readAt_string text fuel rest, fun levels _ => ?_⟩
    rw [valueAt, StringPart.string?_map_ofChar, Option.map_some]
  | .array items => by
    intro fuel rest hf _
    have hread : ∃ written,
        readAt (fuel + 1) ((Json.array items).compact.toList ++ rest) =
          some (.array written, rest) ∧
        ∀ levels, depthItems items ≤ levels → valueItems levels written = some items := by
      by_cases hne : items = []
      · subst hne
        exact ⟨[], rfl, fun levels _ => by rw [valueItems]⟩
      · have hlen : (row (compactItems items)).length < fuel := by
          rw [toList_compact_array] at hf
          simp only [List.length_cons, List.length_append, List.length_nil] at hf
          omega
        obtain ⟨written, hread, hvalue⟩ := readItems_row items fuel rest hne hlen
        exact ⟨written, readAt_items hne hread, hvalue⟩
    obtain ⟨written, hread, hvalue⟩ := hread
    refine ⟨.array written, hread, fun levels hl => ?_⟩
    cases levels with
    | zero => cases hl
    | succ levels =>
      rw [depth] at hl
      rw [valueAt, hvalue levels (by omega), Option.map_some]
  | .object fields => by
    intro fuel rest hf _
    have hread : ∃ written,
        readAt (fuel + 1) ((Json.object fields).compact.toList ++ rest) =
          some (.object written, rest) ∧
        ∀ levels done, depthFields fields ≤ levels →
          valueFields levels written done = some (done.insertMany fields.toList) := by
      cases hne : fields.isEmpty with
      | true =>
        cases fields with
        | nil => exact ⟨[], rfl, fun levels done _ => by rw [valueFields]; rfl⟩
        | cons => cases hne
      | false =>
        have hlen : (row (compactFields fields)).length < fuel := by
          rw [toList_compact_object] at hf
          simp only [List.length_cons, List.length_append, List.length_nil] at hf
          omega
        obtain ⟨written, hread, hvalue⟩ := readFields_row fields fuel rest hne hlen
        exact ⟨written, readAt_fields hne hread, hvalue⟩
    obtain ⟨written, hread, hvalue⟩ := hread
    refine ⟨.object written, hread, fun levels hl => ?_⟩
    cases levels with
    | zero => cases hl
    | succ levels =>
      rw [depth] at hl
      rw [valueAt, hvalue levels .nil (by omega), Option.map_some]
      exact congrArg (some ∘ Json.object) (Entries.ofList_toList fields)
termination_by structural value => value

theorem readItems_row : ∀ (items : List Json) (fuel : Nat) (rest : List Char),
    items ≠ [] → (row (compactItems items)).length < fuel →
      ∃ written, readItems fuel (row (compactItems items) ++ ']' :: rest) = some (written, rest) ∧
        ∀ levels, depthItems items ≤ levels → valueItems levels written = some items
  | [] => fun _ _ hne => (hne rfl).elim
  | item :: items => by
    intro fuel rest _ hf
    obtain ⟨c, text, ht, _⟩ := exists_cons_compact item
    have hpos : 0 < item.compact.toList.length := by
      rw [ht]
      exact Nat.succ_pos _
    by_cases hne : items = []
    · subst hne
      have hrow : row (compactItems [item]) = item.compact.toList := rfl
      rw [hrow] at hf ⊢
      obtain ⟨fuel, rfl⟩ : ∃ n, fuel = n + 1 + 1 := ⟨fuel - 2, by omega⟩
      obtain ⟨written, hread, hvalue⟩ := readAt_compact item fuel (']' :: rest) (by omega)
        (ends_cons rest (by decide))
      refine ⟨[written], readItems_close hread, fun levels hl => ?_⟩
      rw [depthItems] at hl
      rw [valueItems, hvalue levels (by omega), valueItems]
      rfl
    · have hmore : compactItems items ≠ [] := by
        cases items with
        | nil => exact (hne rfl).elim
        | cons => exact List.cons_ne_nil _ _
      have hrow : row (compactItems (item :: items)) =
          item.compact.toList ++ ',' :: row (compactItems items) := row_cons hmore
      rw [hrow, List.length_append, List.length_cons] at hf
      rw [hrow, List.append_assoc, List.cons_append]
      obtain ⟨fuel, rfl⟩ : ∃ n, fuel = n + 1 + 1 := ⟨fuel - 2, by omega⟩
      obtain ⟨written, hread, hvalue⟩ := readAt_compact item fuel
        (',' :: (row (compactItems items) ++ ']' :: rest)) (by omega) (ends_cons _ (by decide))
      obtain ⟨more, hreads, hvalues⟩ := readItems_row items (fuel + 1) rest hne (by omega)
      refine ⟨written :: more, readItems_comma hread hreads, fun levels hl => ?_⟩
      rw [depthItems] at hl
      rw [valueItems, hvalue levels (by omega), hvalues levels (by omega)]
      rfl
termination_by structural items => items

theorem readFields_row {low : Option String} :
    ∀ (fields : Entries Json low) (fuel : Nat) (rest : List Char),
      fields.isEmpty = false → (row (compactFields fields)).length < fuel →
        ∃ written, readFields fuel (row (compactFields fields) ++ '\x7d' :: rest) =
          some (written, rest) ∧ ∀ levels done, depthFields fields ≤ levels →
            valueFields levels written done = some (done.insertMany fields.toList)
  | .nil => fun _ _ hne => by cases hne
  | .cons key above value others => by
    intro fuel rest _ hf
    have hfield := toList_field key value
    have hname := StringPart.string?_map_ofChar key
    cases hne : others.isEmpty with
    | true =>
      cases others with
      | cons => cases hne
      | nil =>
        have hrow : row (compactFields (.cons key above value .nil)) =
            (quoted key ++ ":" ++ value.compact).toList := rfl
        rw [hrow, hfield] at hf ⊢
        simp only [List.length_cons, List.length_append] at hf
        obtain ⟨fuel, rfl⟩ : ∃ n, fuel = n + 1 + 1 := ⟨fuel - 2, by omega⟩
        obtain ⟨written, hread, hvalue⟩ := readAt_compact value fuel ('\x7d' :: rest) (by omega)
          (ends_cons rest (by decide))
        refine ⟨[(key.toList.map StringPart.ofChar, written)], ?_, fun levels done hl => ?_⟩
        · rw [List.cons_append, List.append_assoc]
          exact readFields_close hread
        · rw [depthFields] at hl
          rw [valueFields, valueField, hname, hvalue levels (by omega)]
          exact valueFields.eq_1 levels _
    | false =>
      have hmore : compactFields others ≠ [] := by
        cases others with
        | nil => cases hne
        | cons => exact List.cons_ne_nil _ _
      have hrow : row (compactFields (.cons key above value others)) =
          (quoted key ++ ":" ++ value.compact).toList ++ ',' :: row (compactFields others) :=
        row_cons hmore
      rw [hrow, hfield] at hf ⊢
      simp only [List.length_cons, List.length_append] at hf
      obtain ⟨fuel, rfl⟩ : ∃ n, fuel = n + 1 + 1 := ⟨fuel - 2, by omega⟩
      obtain ⟨written, hread, hvalue⟩ := readAt_compact value fuel
        (',' :: (row (compactFields others) ++ '\x7d' :: rest)) (by omega) (ends_cons _ (by decide))
      obtain ⟨more, hreads, hvalues⟩ := readFields_row others (fuel + 1) rest hne (by omega)
      refine ⟨(key.toList.map StringPart.ofChar, written) :: more, ?_, fun levels done hl => ?_⟩
      · simp only [List.cons_append, List.append_assoc]
        exact readFields_comma hread hreads
      · rw [depthFields] at hl
        rw [valueFields, valueField, hname, hvalue levels (by omega)]
        exact hvalues levels (done.insert key value) (by omega)
termination_by structural fields => fields

end

end Written

namespace Json

/-- A value nested at most 127 levels deep is read back from its compact text. -/
theorem read?_compact {value : Json} (h : value.depth ≤ 127) :
    read? value.compact = some value := by
  obtain ⟨written, hread, hvalue⟩ := Written.readAt_compact value value.compact.length []
    (by rw [String.length_toList]; omega) Written.ends_nil
  rw [List.append_nil] at hread
  have hw : Written.read? value.compact = some written := by
    rw [Written.read?, hread]
    rfl
  rw [read?, hw]
  exact hvalue 127 h

/-- Different values have different texts, at any depth. -/
theorem compact_injective {a b : Json} (h : a.compact = b.compact) : a = b := by
  obtain ⟨written, hread, hvalue⟩ := Written.readAt_compact a a.compact.length []
    (by rw [String.length_toList]; omega) Written.ends_nil
  obtain ⟨other, hread', hvalue'⟩ := Written.readAt_compact b a.compact.length []
    (by rw [String.length_toList, h]; omega) Written.ends_nil
  rw [h] at hread hread'
  obtain rfl : written = other := congrArg Prod.fst (Option.some.inj (hread.symm.trans hread'))
  have ha := hvalue (max a.depth b.depth) (le_max_left _ _)
  have hb := hvalue' (max a.depth b.depth) (le_max_right _ _)
  exact Option.some.inj (ha.symm.trans hb)

end Json
end DocTemplate
