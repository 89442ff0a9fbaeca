import Mathlib.Data.String.Basic
import DocTemplate.Entries

/-! Laws of ordered entries: the order of the names, what a look-up finds after a write, and what
the list of the entries holds. -/
namespace DocTemplate

namespace Text

/-- The bytes of a text in UTF-8. -/
def bytes (s : String) : List UInt8 := s.toUTF8.data.toList

theorem bytes_ofList (text : List Char) :
    bytes (String.ofList text) = text.flatMap String.utf8EncodeChar := by
  rw [bytes, String.toUTF8_eq_toByteArray, String.toByteArray_ofList, List.utf8Encode,
    List.data_toByteArray]

theorem bytes_eq (s : String) : bytes s = s.toList.flatMap String.utf8EncodeChar := by
  rw [← bytes_ofList, String.ofList_toList]

/-- A greater character has a greater byte where the two are first encoded differently. A longer
encoding begins with a greater byte. -/
theorem encode_append_lt {a b : Char} (h : a < b) (more other : List UInt8) :
    String.utf8EncodeChar a ++ more < String.utf8EncodeChar b ++ other := by
  have hlt : a.val.toNat < b.val.toNat := h
  have hb : b.val.toNat < 1114112 := by
    rcases b.valid with hb | hb
    · exact Nat.lt_trans hb (by decide)
    · exact hb.2
  simp only [String.utf8EncodeChar]
  generalize a.val.toNat = m at hlt
  generalize b.val.toNat = n at hlt hb
  split_ifs <;>
    simp (disch := omega) only [List.cons_append, List.nil_append, List.cons_lt_cons_iff,
      UInt8.lt_iff_toNat_lt, ← UInt8.toNat_inj, UInt8.toNat_ofNat', Nat.mod_eq_of_lt] <;>
    omega

theorem encode_lt {a b : List Char} (h : a < b) :
    a.flatMap String.utf8EncodeChar < b.flatMap String.utf8EncodeChar := by
  induction h with
  | @nil c more =>
    rw [List.flatMap_cons]
    obtain ⟨first, bytes, hc⟩ :=
      List.exists_cons_of_ne_nil (String.utf8EncodeChar_ne_nil (c := c))
    rw [hc]
    exact List.nil_lt_cons first _
  | cons _ ih => exact List.append_left_lt ih
  | rel h => exact encode_append_lt h _ _

/-- The order of texts, character by character, is that of their bytes. -/
theorem bytes_lt_iff {a b : String} : bytes a < bytes b ↔ a < b := by
  have hup : ∀ {a b : String}, a < b → bytes a < bytes b := by
    intro a b h
    rw [bytes_eq, bytes_eq]
    exact encode_lt (String.lt_iff_toList_lt.mp h)
  refine ⟨fun h => ?_, hup⟩
  rcases lt_trichotomy a b with hlt | rfl | hgt
  · exact hlt
  · exact (List.lt_irrefl _ h).elim
  · exact (List.lt_asymm h (hup hgt)).elim

end Text

namespace Entries

variable {α β : Type} {low : Option String} {name other key : String} {given value : α}

theorem above_trichotomy (a b : String) : Above (some b) a ∨ a = b ∨ Above (some a) b :=
  (lt_trichotomy b a).imp id (Or.imp Eq.symm id)

@[simp]
theorem get?_nil : (nil : Entries α low).get? name = none := rfl

/-- The keys of entries stand above their bound, so a look-up elsewhere finds nothing. -/
theorem get?_eq_none_of_not_above (entries : Entries α low) (h : ¬ Above low name) :
    entries.get? name = none := by
  induction entries with
  | nil => rfl
  | cons key above value rest ih =>
    have hle : name ≤ key := by
      by_contra hlt
      exact h (above.trans (not_le.mp hlt))
    rcases hle.lt_or_eq with hlt | he
    · rw [get?, if_pos hlt]
    · subst he
      exact (h above).elim

@[simp]
theorem get?_of_above_self (rest : Entries α (some key)) : rest.get? key = none :=
  get?_eq_none_of_not_above rest (lt_irrefl key)

/-- The order of the entries shortens a look-up and does not change what it finds. -/
@[grind =]
theorem get?_cons (above : Above low key) (rest : Entries α (some key)) :
    (cons key above value rest).get? name = if name = key then some value else rest.get? name := by
  rw [get?]
  rcases lt_trichotomy name key with hlt | he | hlt
  · rw [if_pos hlt, if_neg hlt.ne, get?_eq_none_of_not_above rest hlt.not_gt]
  · subst he
    rw [if_neg (lt_irrefl _), if_neg (lt_irrefl _), if_pos rfl]
  · rw [if_neg hlt.not_gt, if_pos hlt, if_neg hlt.ne']

theorem insertAbove_cons_of_below (above : Above low name) (keyAbove : Above low key)
    (rest : Entries α (some key)) (h : Above (some name) key) :
    (cons key keyAbove value rest).insertAbove name given above =
      cons name above given (cons key h value rest) := by
  have hlt : name < key := h
  rw [insertAbove]
  exact dif_pos hlt

theorem insertAbove_cons_of_above (above : Above low name) (keyAbove : Above low key)
    (rest : Entries α (some key)) (h : Above (some key) name) :
    (cons key keyAbove value rest).insertAbove name given above =
      cons key keyAbove value (rest.insertAbove name given h) := by
  have hlt : key < name := h
  rw [insertAbove, dif_neg hlt.not_gt]
  exact dif_pos hlt

theorem insertAbove_cons_self (above keyAbove : Above low key) (rest : Entries α (some key)) :
    (cons key keyAbove value rest).insertAbove key given above = cons key keyAbove given rest := by
  rw [insertAbove, dif_neg (lt_irrefl _), dif_neg (lt_irrefl _)]

theorem get?_insertAbove (entries : Entries α low) (above : Above low name) :
    (entries.insertAbove name given above).get? other =
      if other = name then some given else entries.get? other := by
  induction entries with
  | nil =>
    rw [insertAbove, get?_cons]
    rfl
  | cons key keyAbove value rest ih =>
    rcases above_trichotomy name key with hlt | he | hlt
    · rw [insertAbove_cons_of_above above keyAbove rest hlt, get?_cons, get?_cons, ih]
      by_cases he : other = key
      · rw [if_pos he, if_pos he, if_neg (he ▸ hlt.ne)]
      · rw [if_neg he, if_neg he]
    · subst he
      rw [insertAbove_cons_self, get?_cons, get?_cons]
      split <;> rfl
    · rw [insertAbove_cons_of_below above keyAbove rest hlt, get?_cons, get?_cons, get?_cons]

@[grind =]
theorem get?_insert (entries : Entries α none) :
    (entries.insert name given).get? other =
      if other = name then some given else entries.get? other :=
  get?_insertAbove entries _

@[simp]
theorem get?_insert_self (entries : Entries α none) :
    (entries.insert name given).get? name = some given := by
  rw [get?_insert, if_pos rfl]

@[simp]
theorem get?_insert_of_ne (entries : Entries α none) (h : other ≠ name) :
    (entries.insert name given).get? other = entries.get? other := by
  rw [get?_insert, if_neg h]

@[simp]
theorem get?_map (f : α → β) (entries : Entries α low) :
    (entries.map f).get? name = (entries.get? name).map f := by
  induction entries with
  | nil => rfl
  | cons key above value rest ih =>
    rw [map, get?_cons, get?_cons, ih]
    split <;> rfl

theorem get?_of_isEmpty {entries : Entries α low} (h : entries.isEmpty = true) :
    entries.get? name = none := by
  cases entries with
  | nil => rfl
  | cons => cases h

/-- Writing what is there already changes nothing. -/
theorem insertAbove_of_get? {entries : Entries α low} (above : Above low name)
    (h : entries.get? name = some given) : entries.insertAbove name given above = entries := by
  induction entries with
  | nil => cases h
  | cons key keyAbove value rest ih =>
    rw [get?_cons] at h
    by_cases he : name = key
    · subst he
      rw [if_pos rfl] at h
      cases h
      rw [insertAbove_cons_self]
    · rw [if_neg he] at h
      have hlt : Above (some key) name := by
        by_contra hn
        rw [get?_eq_none_of_not_above rest hn] at h
        cases h
      rw [insertAbove_cons_of_above above keyAbove rest hlt, ih hlt h]

theorem insert_of_get? {entries : Entries α none} (h : entries.get? name = some given) :
    entries.insert name given = entries :=
  insertAbove_of_get? _ h

@[simp]
theorem get?_cons_self (above : Above low key) (rest : Entries α (some key)) :
    (cons key above value rest).get? key = some value := by
  rw [get?_cons, if_pos rfl]

theorem get?_cons_of_get? {above : Above low key} {rest : Entries α (some key)}
    (h : rest.get? name = some given) : (cons key above value rest).get? name = some given := by
  have hne : name ≠ key := by
    rintro rfl
    simp at h
  rw [get?_cons, if_neg hne, h]

theorem le_of_get?_cons {above : Above low key} {rest : Entries α (some key)}
    (h : (cons key above value rest).get? name = some given) : key ≤ name := by
  by_contra hn
  have hlt : name < key := not_le.mp hn
  rw [get?_cons, if_neg hlt.ne, get?_eq_none_of_not_above rest hlt.not_gt] at h
  cases h

/-- Entries are given by what is found in them. -/
@[ext]
theorem ext {a b : Entries α low} (h : ∀ name, a.get? name = b.get? name) : a = b := by
  induction a with
  | nil =>
    cases b with
    | nil => rfl
    | cons key above value rest =>
      have hk := (h key).trans (get?_cons_self above rest)
      cases hk
  | cons key above value rest ih =>
    cases b with
    | nil =>
      have hk := (h key).symm.trans (get?_cons_self above rest)
      cases hk
    | cons key' above' value' rest' =>
      have hle : key ≤ key' := le_of_get?_cons ((h key').trans (get?_cons_self above' rest'))
      have hge : key' ≤ key := le_of_get?_cons ((h key).symm.trans (get?_cons_self above rest))
      obtain rfl : key = key' := le_antisymm hle hge
      have hv : some value = some value' :=
        (get?_cons_self above rest).symm.trans ((h key).trans (get?_cons_self above' rest'))
      cases hv
      have hr : rest = rest' := by
        apply ih
        intro name
        have hn := h name
        rw [get?_cons, get?_cons] at hn
        by_cases he : name = key
        · subst he
          simp
        · rwa [if_neg he, if_neg he] at hn
      rw [hr]

/-- Of two writes under one key the second stays. -/
@[simp]
theorem insert_insert (entries : Entries α none) :
    (entries.insert name value).insert name given = entries.insert name given := by
  ext key : 1
  grind

theorem insert_comm (entries : Entries α none) (h : name ≠ other) :
    (entries.insert name value).insert other given =
      (entries.insert other given).insert name value := by
  ext key : 1
  grind

@[simp]
theorem toList_nil : (nil : Entries α low).toList = [] := rfl

@[simp]
theorem toList_cons (above : Above low key) (rest : Entries α (some key)) :
    (cons key above value rest).toList = (key, value) :: rest.toList := rfl

@[simp]
theorem mem_toList_iff {entries : Entries α low} :
    (name, value) ∈ entries.toList ↔ entries.get? name = some value := by
  induction entries with
  | nil => simp
  | cons key above given rest ih =>
    rw [toList_cons, List.mem_cons, ih, get?_cons]
    by_cases he : name = key
    · subst he
      simp [eq_comm]
    · simp [he]

theorem toList_ascending (entries : Entries α low) :
    entries.toList.Pairwise fun a b => a.1 < b.1 := by
  induction entries with
  | nil => exact List.Pairwise.nil
  | cons key above value rest ih =>
    refine List.Pairwise.cons ?_ ih
    rintro ⟨name, found⟩ hm
    by_contra hn
    rw [mem_toList_iff, get?_eq_none_of_not_above rest hn] at hm
    cases hm

@[simp]
theorem toList_map (f : α → β) (entries : Entries α low) :
    (entries.map f).toList = entries.toList.map fun entry => (entry.1, f entry.2) := by
  induction entries with
  | nil => rfl
  | cons key above value rest ih => rw [map, toList, ih]; rfl

/-- Entries written one after the other stand over those that were there. -/
theorem get?_insertMany_toList (entries : Entries α low) (done : Entries α none) :
    (done.insertMany entries.toList).get? name = (entries.get? name).or (done.get? name) := by
  induction entries generalizing done with
  | nil => rfl
  | cons key above value rest ih =>
    have hstep : done.insertMany (cons key above value rest).toList =
        (done.insert key value).insertMany rest.toList := rfl
    rw [hstep, ih, get?_cons]
    by_cases he : name = key
    · subst he
      simp
    · simp [he]

@[simp]
theorem ofList_toList (entries : Entries α none) : ofList entries.toList = entries := by
  ext name : 1
  simp [ofList, get?_insertMany_toList]

end Entries
end DocTemplate
