import DocTemplate.Text.Search
/-!
Tables of tokens and the texts that replace them. A longer token is tried before a shorter one, so
the match is the longest, whatever the order in which the table was filled.
-/
namespace DocTemplate

structure Substitution where
  token : List Char
  replacement : List Char
deriving DecidableEq

namespace Substitution

variable {a b c : Substitution}

/-- Longer tokens come first, and tokens of one length in the order of their text. -/
def precedes (a b : Substitution) : Bool :=
  match compare (Text.byteSize a.token) (Text.byteSize b.token) with
  | .gt => true
  | .lt => false
  | .eq => decide (a.token < b.token)

theorem precedes_iff : a.precedes b = true ↔
    Text.byteSize b.token < Text.byteSize a.token ∨
      Text.byteSize a.token = Text.byteSize b.token ∧ a.token < b.token := by
  unfold precedes
  split
  · next h => simp [Nat.compare_eq_gt.mp h]
  · next h =>
    have hlt := Nat.compare_eq_lt.mp h
    simp [Nat.lt_asymm hlt, Nat.ne_of_lt hlt]
  · next h => simp [Nat.compare_eq_eq.mp h]

/-- The order of a table: no substitution precedes one that stands before it. -/
def NotAfter (a b : Substitution) : Prop := b.precedes a = false

theorem notAfter_iff : NotAfter a b ↔
    Text.byteSize b.token < Text.byteSize a.token ∨
      Text.byteSize a.token = Text.byteSize b.token ∧ ¬ b.token < a.token := by
  rw [NotAfter, Bool.eq_false_iff, Ne, precedes_iff, not_or,
    Decidable.not_and_iff_not_or_not, Nat.not_lt]
  constructor
  · rintro ⟨hle, hne | ht⟩
    · exact Or.inl (by omega)
    · rcases Nat.lt_or_eq_of_le hle with hlt | he
      · exact Or.inl hlt
      · exact Or.inr ⟨he.symm, ht⟩
  · rintro (hlt | ⟨he, ht⟩)
    · exact ⟨by omega, Or.inl (by omega)⟩
    · exact ⟨by omega, Or.inr ht⟩

theorem notAfter_of_precedes (h : a.precedes b = true) : NotAfter a b := by
  rw [precedes_iff] at h
  rw [notAfter_iff]
  rcases h with hlt | ⟨he, ht⟩
  · exact Or.inl hlt
  · exact Or.inr ⟨he, List.lt_asymm ht⟩

theorem NotAfter.trans (hab : NotAfter a b) (hbc : NotAfter b c) : NotAfter a c := by
  rw [notAfter_iff] at hab hbc ⊢
  rcases hab with hab | ⟨hab, ht⟩
  · rcases hbc with hbc | ⟨hbc, _⟩ <;> exact Or.inl (by omega)
  · rcases hbc with hbc | ⟨hbc, ht'⟩
    · exact Or.inl (by omega)
    · have hle := List.le_trans (List.not_lt.mp ht) (List.not_lt.mp ht')
      exact Or.inr ⟨hab.trans hbc, List.not_lt.mpr hle⟩

/-- Puts a substitution in front of the first one that does not precede it. -/
def place (given : Substitution) : List Substitution → List Substitution
  | [] => [given]
  | entry :: entries =>
    if entry.precedes given then entry :: place given entries else given :: entry :: entries

theorem place_perm (given : Substitution) (entries : List Substitution) :
    (place given entries).Perm (given :: entries) := by
  induction entries with
  | nil => exact .refl _
  | cons entry entries ih =>
    rw [place]
    split
    · exact (ih.cons entry).trans (.swap given entry entries)
    · exact .refl _

theorem pairwise_place {given : Substitution} {entries : List Substitution}
    (h : entries.Pairwise NotAfter) : (place given entries).Pairwise NotAfter := by
  induction entries with
  | nil => exact List.pairwise_singleton NotAfter given
  | cons entry entries ih =>
    obtain ⟨hentry, hentries⟩ := List.pairwise_cons.mp h
    rw [place]
    split
    · next hp =>
      refine List.pairwise_cons.mpr ⟨?_, ih hentries⟩
      intro other hm
      rcases List.mem_cons.mp ((place_perm given entries).mem_iff.mp hm) with rfl | hm
      · exact notAfter_of_precedes hp
      · exact hentry other hm
    · next hp =>
      have hgiven : NotAfter given entry := Bool.eq_false_iff.mpr hp
      refine List.pairwise_cons.mpr ⟨?_, h⟩
      intro other hm
      rcases List.mem_cons.mp hm with rfl | hm
      · exact hgiven
      · exact hgiven.trans (hentry other hm)

end Substitution

/-- Substitutions in the order in which they are tried. -/
@[ext]
structure SubstitutionTable where
  entries : List Substitution
  sorted : entries.Pairwise Substitution.NotAfter

namespace SubstitutionTable

def empty : SubstitutionTable := ⟨[], .nil⟩

def add (given : Substitution) (table : SubstitutionTable) : SubstitutionTable :=
  ⟨Substitution.place given table.entries, Substitution.pairwise_place table.sorted⟩

/-- Of substitutions for one token the first one given is tried first. -/
def ofList (given : List Substitution) : SubstitutionTable := given.foldr add empty

/-- The first substitution whose token the text begins with. -/
def match? (table : SubstitutionTable) (text : List Char) : Option Substitution :=
  table.entries.find? fun entry => entry.token.isPrefixOf text

end SubstitutionTable
end DocTemplate
