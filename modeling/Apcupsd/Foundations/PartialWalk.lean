import Mathlib.Data.Set.Finite.Basic
import Mathlib.Data.Fintype.EquivFin
import Mathlib.Order.Defs.PartialOrder
import Mathlib.Tactic.SplitIfs

/-!
# Walks along a partial function

A partial function is followed from a point until it has no value.  One such function goes
through a sorted table, from any key to the next entry.

Main results:

- Theorem {lit}`follow_ends_iff`: where a partial function has a value at finitely many points
  only, a walk ends exactly if it does not return to a point.
- Theorem {lit}`filter_next`: in a sorted table, what lies behind the next entry is what lies
  behind the key, without that entry.
- Theorem {lit}`takeWhile_of_pairwise`: an initial part of a table is found by a walk that stops
  at its end.
-/

namespace Apcupsd
namespace PartialWalk

/-! ## Walks -/

section Walks

variable {α : Type} (f : α → Option α)

/-- Where a walk is after some steps, if it has not ended before. -/
def follow : ℕ → α → Option α
  | 0, a => some a
  | n + 1, a => (f a).bind (follow n)

/-- The walk from a point comes to one point twice. -/
def Returns (a : α) : Prop :=
  ∃ i j b, i < j ∧ follow f i a = some b ∧ follow f j a = some b

variable {f}

theorem follow_add (i j : ℕ) (a : α) : follow f (i + j) a = (follow f i a).bind (follow f j) := by
  induction i generalizing a with
  | zero => simp [follow]
  | succ i ih =>
      rw [Nat.add_right_comm, follow, follow]
      cases f a with
      | none => rfl
      | some b => exact ih b

theorem follow_none_mono {i j : ℕ} {a : α} (hle : i ≤ j) (hend : follow f i a = none) :
    follow f j a = none := by
  rw [← Nat.add_sub_of_le hle, follow_add, hend, Option.bind_none]

/-- A walk that has returned goes round forever. -/
theorem follow_of_returns {i j : ℕ} {a b : α} (hlt : i < j) (hfirst : follow f i a = some b)
    (hagain : follow f j a = some b) (n : ℕ) : follow f n a ≠ none := by
  induction n using Nat.strong_induction_on with
  | _ n ih =>
      intro hend
      by_cases hbefore : n ≤ j
      · have hnone := follow_none_mono hbefore hend
        rw [hagain] at hnone
        cases hnone
      · -- the part behind the second visit repeats the part behind the first
        have hearlier : follow f (i + (n - j)) a = none := by
          rw [follow_add, hfirst, ← hagain, ← follow_add, Nat.add_sub_of_le (by omega), hend]
        exact ih (i + (n - j)) (by omega) hearlier

/-- Where a partial function has a value at finitely many points only, a walk ends exactly if it
does not return to a point. -/
theorem follow_ends_iff (hdomain : {b | f b ≠ none}.Finite) (a : α) :
    (∃ n, follow f n a = none) ↔ ¬ Returns f a := by
  constructor
  · rintro ⟨n, hend⟩ ⟨i, j, b, hlt, hfirst, hagain⟩
    exact follow_of_returns hlt hfirst hagain n hend
  · intro hreturns
    by_contra hgoes
    have hpoint (n : ℕ) : ∃ b, follow f n a = some b := by
      cases hn : follow f n a with
      | none => exact absurd ⟨n, hn⟩ hgoes
      | some b => exact ⟨b, rfl⟩
    choose visited hvisited using hpoint
    have hinside (n : ℕ) : f (visited n) ≠ none := by
      intro hnone
      have hnext := hvisited (n + 1)
      rw [follow_add, hvisited n, Option.bind_some, follow, hnone] at hnext
      cases hnext
    have hinjective : Function.Injective visited := by
      intro i j heq
      rcases Nat.lt_trichotomy i j with hlt | hsame | hlt
      · exact absurd ⟨i, j, visited i, hlt, hvisited i, heq ▸ hvisited j⟩ hreturns
      · exact hsame
      · exact absurd ⟨j, i, visited j, hlt, hvisited j, heq ▸ hvisited i⟩ hreturns
    exact Set.infinite_of_injective_forall_mem hinjective hinside hdomain

end Walks

/-! ## Sorted tables -/

section Tables

variable {α κ : Type} [Preorder κ] [DecidableLT κ] {key : α → κ} {table : List α}

/-- What lies behind the next entry is what lies behind the key, without that entry. -/
theorem filter_next (hsorted : table.Pairwise fun a b => key a < key b) {k : κ} {entry : α}
    {rest : List α} (hnext : (table.filter fun a => k < key a) = entry :: rest) :
    (table.filter fun a => key entry < key a) = rest := by
  have hbehind : k < key entry := by
    have hmem : entry ∈ table.filter fun a => k < key a := by
      rw [hnext]
      exact List.mem_cons_self
    simpa using (List.mem_filter.mp hmem).2
  have hpart : (table.filter fun a => key entry < key a) =
      (table.filter fun a => k < key a).filter fun a => key entry < key a := by
    rw [List.filter_filter]
    refine List.filter_congr fun a _ => ?_
    by_cases hlater : key entry < key a
    · simp [hlater, hbehind.trans hlater]
    · simp [hlater]
  have hrest := hsorted.filter fun a => decide (k < key a)
  rw [hnext, List.pairwise_cons] at hrest
  rw [hpart, hnext, List.filter_cons_of_neg (by simp)]
  exact List.filter_eq_self.mpr fun a ha => by simpa using hrest.1 a ha

end Tables

/-- An initial part of a table is found by a walk that stops at its end. -/
theorem takeWhile_of_pairwise {α : Type} {p : α → Bool} {table : List α}
    (hinitial : table.Pairwise fun a b => p b → p a) : table.takeWhile p = table.filter p := by
  induction table with
  | nil => rfl
  | cons a table ih =>
      rw [List.pairwise_cons] at hinitial
      by_cases hp : p a
      · rw [List.takeWhile_cons_of_pos hp, List.filter_cons_of_pos hp, ih hinitial.2]
      · have hnone : table.filter p = [] :=
          List.filter_eq_nil_iff.mpr fun b hb hpb => hp (hinitial.1 b hb hpb)
        rw [List.takeWhile_cons_of_neg hp, List.filter_cons_of_neg hp, hnone]

end PartialWalk
end Apcupsd
