import Mathlib.Data.List.Nodup
import DocTemplate.Proofs.PlainWalk

/-! Tables filled in any order. If no token is given twice, every order makes the same table, and of
the tokens that fit one is the longest. -/
namespace DocTemplate

namespace Substitution

variable {given : List Substitution} {entry other : Substitution} {text : List Char}

/-- The substitution is one of those given. The text begins with its token, and every other token
that it begins with is shorter, in characters as in bytes. -/
structure Longest (given : List Substitution) (text : List Char) (entry : Substitution) :
    Prop where
  mem : entry ∈ given
  fits : entry.token <+: text
  shorter {other : Substitution} : other ∈ given → other ≠ entry → other.token <+: text →
    other.token.length < entry.token.length ∧
      Text.byteSize other.token < Text.byteSize entry.token

theorem Longest.unique (h : Longest given text entry) (h' : Longest given text other) :
    entry = other := by
  by_contra hne
  have hlt := (h'.shorter h.mem hne h.fits).1
  have hlt' := (h.shorter h'.mem (Ne.symm hne) h'.fits).1
  omega

end Substitution

namespace Delimiters

/-- The placeholders of different keys are different tokens. -/
theorem nodup_tokens (d : Delimiters) {named : List (String × Variable)}
    (h : (named.map Prod.fst).Nodup) :
    ((named.map d.substitution).map Substitution.token).Nodup := by
  have htokens : (named.map d.substitution).map Substitution.token =
      (named.map Prod.fst).map fun key => (d.placeholder key).toList := by
    simp [substitution]
  rw [htokens]
  apply h.map
  intro a b hab
  exact placeholder_injective (String.toList_injective hab)

end Delimiters

namespace SubstitutionTable

open Substitution

variable {given shuffled : List Substitution} {entry : Substitution} {text : List Char}

section
variable (hd : (given.map Substitution.token).Nodup)
include hd

/-- Another token that fits is an initial part of the match, and not all of it. -/
theorem longest_of_match? (h : (ofList given).match? text = some entry) :
    Longest given text entry := by
  obtain ⟨hm, hfits, hlong⟩ := match?_longest h
  refine ⟨hm, hfits, ?_⟩
  intro other ho hne hfit
  obtain ⟨tail, ht⟩ := hlong other ho hfit
  have htail : tail ≠ [] := by
    rintro rfl
    rw [List.append_nil] at ht
    exact hne (List.inj_on_of_nodup_map hd ho hm ht)
  have hpos : 0 < tail.length := List.length_pos_iff.mpr htail
  have hbytes := Text.length_le_byteSize tail
  rw [← ht, List.length_append, Text.byteSize_append]
  omega

theorem match?_eq_some_iff :
    (ofList given).match? text = some entry ↔ Longest given text entry := by
  constructor
  · exact longest_of_match? hd
  · intro h
    cases hm : (ofList given).match? text with
    | none => exact (match?_eq_none_iff.mp hm entry h.mem h.fits).elim
    | some found => rw [(longest_of_match? hd hm).unique h]

/-- There is one sorted list of the substitutions: two of them that may stand in either order have
the same token. -/
theorem ofList_eq_of_perm (hp : shuffled.Perm given) : ofList shuffled = ofList given := by
  have hperm : (ofList shuffled).entries.Perm (ofList given).entries :=
    (entries_perm shuffled).trans (hp.trans (entries_perm given).symm)
  have hentries : (ofList shuffled).entries = (ofList given).entries := by
    apply List.Perm.eq_of_pairwise _ (ofList shuffled).sorted (ofList given).sorted hperm
    intro a b ha hb hab hba
    have ha' : a ∈ given := mem_entries_iff.mp (hperm.mem_iff.mp ha)
    have hb' : b ∈ given := mem_entries_iff.mp hb
    exact List.inj_on_of_nodup_map hd ha' hb' (token_eq_of_notAfter hab hba)
  exact SubstitutionTable.ext hentries

end

/-- Substitutions with different tokens are given in any order. In a text that begins with none of
the tokens nothing is found, and else the one with the longest token that it begins with. If all
tokens begin with one opening mark, which is not empty, a template is walked through with the
longest token at every character, so neither its text nor the number of replacements depends on the
order. Placeholders are such tokens: those of different keys are different. -/
theorem longest_match_in_any_order (hd : (given.map Substitution.token).Nodup)
    (hp : shuffled.Perm given) :
    (∀ text,
        ((ofList shuffled).match? text = none ↔ ∀ entry ∈ given, ¬ entry.token <+: text) ∧
          (∀ entry, (ofList shuffled).match? text = some entry ↔ Longest given text entry) ∧
          (ofList shuffled).match? text = (ofList given).match? text) ∧
      (∀ left, left ≠ [] → (∀ entry ∈ given, left <+: entry.token) → ∀ template,
        (ofList shuffled).substitute left template = walk (ofList given).match? template ∧
          ((ofList shuffled).substitute left template).text =
            ((ofList given).substitute left template).text ∧
          ((ofList shuffled).substitute left template).replaced =
            ((ofList given).substitute left template).replaced) ∧
      ∀ d : Delimiters, Function.Injective d.placeholder ∧
        ∀ named : List (String × Variable), (named.map Prod.fst).Nodup →
          ((named.map d.substitution).map Substitution.token).Nodup := by
  rw [ofList_eq_of_perm hd hp]
  refine ⟨?_, ?_, ?_⟩
  · intro text
    exact ⟨match?_eq_none_iff, fun entry => match?_eq_some_iff hd, rfl⟩
  · intro left hl hleft template
    have hwalk := substitute_eq_walk hl hleft template
    exact ⟨hwalk, rfl, rfl⟩
  · intro d
    exact ⟨fun a b => Delimiters.placeholder_injective, fun named => d.nodup_tokens⟩

/-- Two tokens of as many bytes, but not as many characters. One of them begins with a third token,
and the fourth begins with the other. -/
theorem longest_match_in_any_order_of_wide_tokens :
    let given : List Substitution := [⟨"<.é>".toList, ['1']⟩, ⟨"<.a>>".toList, ['2']⟩,
      ⟨"<.a>".toList, ['3']⟩, ⟨"<.é>é".toList, ['4']⟩]
    let shuffled : List Substitution := [⟨"<.a>".toList, ['3']⟩, ⟨"<.é>é".toList, ['4']⟩,
      ⟨"<.é>".toList, ['1']⟩, ⟨"<.a>>".toList, ['2']⟩]
    let left := ['<']
    let template := "<<.a>> <.é>é<.a>é<.b>".toList
    let d := Delimiters.standard
    let named : List (String × Variable) := [("é", .null), ("e", .null)]
    (given.map Substitution.token).Nodup ∧ shuffled.Perm given ∧ left ≠ [] ∧
      (∀ entry ∈ given, left <+: entry.token) ∧ (named.map Prod.fst).Nodup ∧
      Longest given "<.é>é<.a>".toList ⟨"<.é>é".toList, ['4']⟩ ∧
      (ofList shuffled).match? "<.é>é<.a>".toList = some ⟨"<.é>é".toList, ['4']⟩ ∧
      (∀ entry ∈ given, ¬ entry.token <+: "<.b>".toList) ∧
      (ofList shuffled).match? "<.b>".toList = none ∧
      walk (ofList given).match? template = ⟨"<2 43é<.b>".toList, 3⟩ ∧
      ((ofList shuffled).substitute left template).text =
        ((ofList given).substitute left template).text ∧
      ((ofList shuffled).substitute left template).replaced =
        ((ofList given).substitute left template).replaced ∧
      ((named.map d.substitution).map Substitution.token).Nodup := by
  intro given shuffled left template d named
  have hd : (given.map Substitution.token).Nodup := by decide +kernel
  have hp : shuffled.Perm given := by decide +kernel
  have hl : left ≠ [] := by decide
  have hleft : ∀ entry ∈ given, left <+: entry.token := by decide +kernel
  have hv : (named.map Prod.fst).Nodup := by decide +kernel
  have hfound : (ofList shuffled).match? "<.é>é<.a>".toList = some ⟨"<.é>é".toList, ['4']⟩ := by
    decide +kernel
  have hnone : (ofList shuffled).match? "<.b>".toList = none := by decide +kernel
  have hout : (ofList shuffled).substitute left template = ⟨"<2 43é<.b>".toList, 3⟩ := by
    decide +kernel
  obtain ⟨hmatch, hsubstitute, hplaceholders⟩ := longest_match_in_any_order hd hp
  obtain ⟨hwalk, htext, hreplaced⟩ := hsubstitute left hl hleft template
  exact ⟨hd, hp, hl, hleft, hv, ((hmatch _).2.1 _).mp hfound, hfound, (hmatch _).1.mp hnone,
    hnone, hwalk.symm.trans hout, htext, hreplaced, (hplaceholders d).2 named hv⟩

/-- Of two substitutions for one token the one given first is found. -/
example : (ofList [⟨['<'], ['1']⟩, ⟨['<'], ['2']⟩]).match? ['<'] = some ⟨['<'], ['1']⟩ ∧
    (ofList [⟨['<'], ['2']⟩, ⟨['<'], ['1']⟩]).match? ['<'] = some ⟨['<'], ['2']⟩ := by decide

end SubstitutionTable
end DocTemplate
