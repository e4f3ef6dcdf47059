import Apcupsd.Foundations.CStrings

/-!
# Where a word does not occur

A text is put together from pieces.  A word that occurs in none of them occurs in the text only
across a seam, and it cannot do so where the seam has a character that the word has not.

Main results:

- Theorems {lit}`not_isInfix_append` and {lit}`not_isInfix_append_of_last`: two pieces.
- Theorem {lit}`not_isInfix_flatten`: any number of pieces.
-/

namespace Apcupsd
namespace CStrings

variable {α : Type*} {word front rest : List α}

/-- The second piece begins with a character that the word has not. -/
theorem not_isInfix_append (hbreak : ∀ c ∈ rest.head?, c ∉ word) (hfront : ¬ word <:+: front)
    (hrest : ¬ word <:+: rest) : ¬ word <:+: front ++ rest := by
  cases rest with
  | nil => rwa [List.append_nil]
  | cons c rest =>
      have hc : c ∉ word := hbreak c rfl
      induction front with
      | nil => exact hrest
      | cons d front ih =>
          rintro hoccurs
          rcases List.infix_cons_iff.mp hoccurs with hstarts | hinner
          · have hwithin : word <+: d :: front := isPrefix_of_isPrefix_append_cons hc hstarts
            exact hfront hwithin.isInfix
          · exact ih (fun hinside => hfront (List.infix_cons hinside)) hinner

/-- The first piece ends with a character that the word has not. -/
theorem not_isInfix_append_of_last (hbreak : ∀ c ∈ front.getLast?, c ∉ word)
    (hfront : ¬ word <:+: front) (hrest : ¬ word <:+: rest) : ¬ word <:+: front ++ rest := by
  rcases List.eq_nil_or_concat front with rfl | ⟨before, c, rfl⟩
  · exact hrest
  · rw [List.concat_eq_append] at hbreak hfront ⊢
    have hc : c ∉ word := hbreak c (by simp)
    rw [List.append_assoc, List.singleton_append]
    apply not_isInfix_append
    · rintro d hd
      obtain rfl := Option.some.inj hd
      exact hc
    · exact fun hinside => hfront (hinside.trans (List.prefix_append before [c]).isInfix)
    · intro hoccurs
      rcases List.infix_cons_iff.mp hoccurs with hstarts | hinner
      · have hnil : word <+: [] := isPrefix_of_isPrefix_append_cons hc hstarts
        exact hfront (hnil.trans List.nil_prefix).isInfix
      · exact hrest hinner

/-- The text lacks a character of the word. -/
theorem not_isInfix_of_not_mem {c : α} {text : List α} (hc : c ∈ word) (htext : c ∉ text) :
    ¬ word <:+: text :=
  fun hoccurs => htext (hoccurs.subset hc)

/-- Every piece ends with a character that the word has not. -/
theorem not_isInfix_flatten {pieces : List (List α)} (hne : word ≠ [])
    (hpieces : ∀ piece ∈ pieces, ¬ word <:+: piece ∧ ∀ c ∈ piece.getLast?, c ∉ word) :
    ¬ word <:+: pieces.flatten := by
  induction pieces with
  | nil => exact fun hoccurs => hne (List.infix_nil.mp hoccurs)
  | cons piece pieces ih =>
      rw [List.forall_mem_cons] at hpieces
      rw [List.flatten_cons]
      exact not_isInfix_append_of_last hpieces.1.2 hpieces.1.1 (ih hpieces.2)

end CStrings
end Apcupsd
