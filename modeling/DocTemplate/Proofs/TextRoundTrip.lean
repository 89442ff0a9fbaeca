import DocTemplate.Proofs.JsonText
import DocTemplate.Proofs.NestedReads
import DocTemplate.Proofs.RawRoundTrip

/-! Variables and collections written as JSON text and read again. The text is the compact text of
the JSON values they stand for. A reader that inverts such texts gives something equal to what was
written. -/
namespace DocTemplate

variable {low : Option String} {read : String → Option Json}

namespace Variable

variable {v : Variable}

/-- How many levels deep the JSON text of a variable nests. -/
def depth (v : Variable) : Nat := v.toJson.depth

theorem isFinite_reread (h : v.isFinite = true) : v.reread.isFinite = true := by
  cases v with
  | number given =>
    cases given with
    | finite x => rfl
    | _ => cases h
  | _ => rfl

/-- A number is written as the number that its JSON value holds. -/
theorem serialize_number (x : Decimal.Finite) :
    (number (.finite x)).serialize = .ok (numberOf x).text := by
  cases he : x.exactInt? with
  | none =>
    rw [numberOf_of_exactInt?_eq_none he]
    simp only [serialize, he]
    rfl
  | some n =>
    have hn := exactInt?_range he
    rw [numberOf_of_exactInt? he (by omega) (by omega)]
    simp only [serialize, he]
    rfl

theorem serialize_eq_compact (h : v.isFinite = true) : v.serialize = .ok v.toJson.compact := by
  cases v with
  | number given =>
    cases given with
    | finite x => exact serialize_number x
    | _ => cases h
  | _ => rfl

/-- What is read again is the variable without the sign of a zero. -/
theorem deserialize?_compact (h : read v.toJson.compact = some v.toJson) :
    deserialize? read v.toJson.compact = some v.reread := by
  rw [deserialize?, h, Option.map_some, ofJson_toJson]

theorem serialize_reread (h : v.isFinite = true) : v.reread.serialize = v.serialize := by
  rw [serialize_eq_compact (isFinite_reread h), toJson_reread, serialize_eq_compact h]

end Variable

namespace Collection

variable {c : Collection}

/-- How many levels deep the JSON text of a collection nests. -/
def depth (c : Collection) : Nat := (Json.object c.toFields).depth

/-- Whether every variable has a JSON value of its own. -/
def isFinite (c : Collection) : Bool := c.toList.all fun entry => entry.2.isFinite

theorem serializeEntries_eq_compactFields (entries : Entries Variable low)
    (h : ∀ entry ∈ entries.toList, entry.2.isFinite = true) :
    serializeEntries entries = .ok (Json.compactFields (entries.map Variable.toJson)) := by
  induction entries with
  | nil => rfl
  | cons name above value rest ih =>
    obtain ⟨hvalue, hrest⟩ := List.forall_mem_cons.mp h
    rw [serializeEntries, Variable.serialize_eq_compact hvalue, ih hrest]
    rfl

theorem serialize_eq_compact (h : c.isFinite = true) :
    c.serialize = .ok (Json.object c.toFields).compact := by
  rw [serialize, serializeEntries_eq_compactFields c.entries (List.all_eq_true.mp h)]
  rfl

theorem deserialize?_compact
    (h : read (Json.object c.toFields).compact = some (.object c.toFields)) :
    deserialize? read (Json.object c.toFields).compact = some (ofFields c.toFields) := by
  rw [deserialize?, h]

theorem isFinite_ofFields_toFields (h : c.isFinite = true) :
    (ofFields c.toFields).isFinite = true := by
  rw [isFinite, toList_ofFields_toFields, List.all_map, List.all_eq_true]
  intro entry hm
  exact Variable.isFinite_reread (List.all_eq_true.mp h entry hm)

theorem toFields_ofFields_toFields (c : Collection) :
    (ofFields c.toFields).toFields = c.toFields := by
  ext name : 1
  simp [Function.comp_def]

theorem serialize_ofFields_toFields (h : c.isFinite = true) :
    (ofFields c.toFields).serialize = c.serialize := by
  rw [serialize_eq_compact (isFinite_ofFields_toFields h), toFields_ofFields_toFields,
    serialize_eq_compact h]

/-- A reader of JSON inverts the compact text of every value nested at most 127 levels deep. Then a
variable, or a collection, that has JSON text of at most 127 levels comes back from its text as an
equal one, and what came back has the same text. -/
theorem deserialize?_serialize (read : String → Option Json)
    (hread : ∀ value : Json, value.depth ≤ 127 → read value.compact = some value) :
    (∀ v : Variable, v.isFinite = true → v.depth ≤ 127 → ∃ text w,
        v.serialize = .ok text ∧ Variable.deserialize? read text = some w ∧
          w.same v = true ∧ w.serialize = .ok text) ∧
      ∀ c : Collection, (∀ entry ∈ c.toList, entry.2.isFinite = true) → c.depth ≤ 127 →
        ∃ text d, c.serialize = .ok text ∧ Collection.deserialize? read text = some d ∧
          d.same c = true ∧ d.serialize = .ok text := by
  constructor
  · intro v hv hd
    have ht := Variable.serialize_eq_compact hv
    exact ⟨_, v.reread, ht, Variable.deserialize?_compact (hread _ hd),
      (Variable.reread_same v).trans hv, (Variable.serialize_reread hv).trans ht⟩
  · intro c hc hd
    have hall : c.isFinite = true := List.all_eq_true.mpr hc
    have ht := serialize_eq_compact hall
    exact ⟨_, ofFields c.toFields, ht, deserialize?_compact (hread _ hd),
      (ofFields_toFields_same c).trans hall, (serialize_ofFields_toFields hall).trans ht⟩

/-- The reader at hand is such a one. Minus zero and thirty are written as integers and 2^53 is
written as a float; what comes back is equal to each of them. -/
theorem deserialize?_serialize_numbers :
    let zero := Variable.number (.finite (.zero true))
    let c := ((empty.set "zero" zero).set "edge" (.number (.finite ⟨false, 1076, 0⟩))).set "age"
      (.number (.finite ⟨false, 1027, 3940649673949184⟩))
    (∀ value : Json, value.depth ≤ 127 → Json.read? value.compact = some value) ∧
      (zero.isFinite = true ∧ zero.depth ≤ 127 ∧ ∃ text w, zero.serialize = .ok text ∧
        Variable.deserialize? Json.read? text = some w ∧ w.same zero = true ∧
          w.serialize = .ok text) ∧
      (∀ entry ∈ c.toList, entry.2.isFinite = true) ∧ c.depth ≤ 127 ∧
        ∃ text d, c.serialize = .ok text ∧ Collection.deserialize? Json.read? text = some d ∧
          d.same c = true ∧ d.serialize = .ok text := by
  intro zero c
  have hread : ∀ value : Json, value.depth ≤ 127 → Json.read? value.compact = some value :=
    fun _ => Json.read?_compact
  have hz : zero.depth ≤ 127 := by decide +kernel
  have hc : ∀ entry ∈ c.toList, entry.2.isFinite = true :=
    List.all_eq_true.mp (by decide +kernel : c.isFinite = true)
  have hd : c.depth ≤ 127 := by decide +kernel
  obtain ⟨hvariables, hcollections⟩ := deserialize?_serialize Json.read? hread
  exact ⟨hread, ⟨rfl, hz, hvariables zero rfl hz⟩, hc, hd, hcollections c hc hd⟩

end Collection
end DocTemplate
