import Mathlib.Algebra.BigOperators.Intervals
import Mathlib.Algebra.Order.Group.Defs

/-!
# Rationing by a stamp and a counter

A program that limits how often it reports something keeps the time of the last report and a
count of the reports since it was last reset.  The two rules below say what such fields know
about the whole run.

Main results:

- Theorem {lit}`Stamped.spaced`: a stamp keeps any two reports apart, not only neighbours.
- Theorem {lit}`Counted.eq_sum`: a counter counts what came since the last reset.
-/

namespace Apcupsd

section Stamps

variable {T : Type*} [AddCommGroup T] [LinearOrder T]
  {clock stamp : ℕ → T} {reports : ℕ → Prop} {gap : T}

/-- A report is made only when more than {lit}`gap` has passed since the stamp, which is the
time of the last report. -/
structure Stamped (clock stamp : ℕ → T) (reports : ℕ → Prop) (gap : T) : Prop where
  late : ∀ n, reports n → gap < clock n - stamp n
  taken : ∀ n, reports n → stamp (n + 1) = clock n
  kept : ∀ n, ¬ reports n → stamp (n + 1) = stamp n

namespace Stamped

/-- No earlier report is later than the stamp. -/
theorem clock_le (hstamped : Stamped clock stamp reports gap) (hclock : Monotone clock)
    {m n : ℕ} (hmn : m < n) (hreports : reports m) : clock m ≤ stamp n := by
  induction n, hmn using Nat.le_induction with
  | base => exact (hstamped.taken m hreports).ge
  | succ n hmn ih =>
      by_cases hlater : reports n
      · rw [hstamped.taken n hlater]
        exact hclock (Nat.le_of_succ_le hmn)
      · rw [hstamped.kept n hlater]
        exact ih

/-- Any two reports are more than {lit}`gap` apart. -/
theorem spaced [IsOrderedAddMonoid T] (hstamped : Stamped clock stamp reports gap)
    (hclock : Monotone clock) {m n : ℕ} (hmn : m < n) (hfirst : reports m) (hsecond : reports n) :
    gap < clock n - clock m :=
  calc
    gap < clock n - stamp n := hstamped.late n hsecond
    _ ≤ clock n - clock m := sub_le_sub_left (hstamped.clock_le hclock hmn hfirst) _

end Stamped

end Stamps

section Counters

variable {M : Type*} [AddCommMonoid M] {counter reports : ℕ → M} {resets : ℕ → Prop}

/-- A counter that some steps reset and the others add to. -/
structure Counted (counter reports : ℕ → M) (resets : ℕ → Prop) : Prop where
  reset : ∀ n, resets n → counter (n + 1) = 0
  count : ∀ n, ¬ resets n → counter (n + 1) = counter n + reports n

/-- A step at which something happens has a last one before it, if any. -/
theorem exists_last {happens : ℕ → Prop} {m n : ℕ} (hmn : m < n) (hfirst : happens m) :
    ∃ a, a < n ∧ happens a ∧ ∀ k, a < k → k < n → ¬ happens k := by
  induction n, hmn using Nat.le_induction with
  | base =>
      refine ⟨m, Nat.lt_succ_self m, hfirst, ?_⟩
      intro k hmk hkm
      exact absurd hmk (Nat.not_lt.mpr (Nat.le_of_lt_succ hkm))
  | succ n hmn ih =>
      by_cases hnow : happens n
      · refine ⟨n, Nat.lt_succ_self n, hnow, ?_⟩
        intro k hnk hkn
        exact absurd hnk (Nat.not_lt.mpr (Nat.le_of_lt_succ hkn))
      · rcases ih with ⟨a, han, hhappens, hlast⟩
        refine ⟨a, Nat.lt_succ_of_lt han, hhappens, ?_⟩
        intro k hak hkn
        rcases Nat.lt_succ_iff_lt_or_eq.mp hkn with hlt | rfl
        · exact hlast k hak hlt
        · exact hnow

/-- The counter is the number of reports since the last reset. -/
theorem Counted.eq_sum (hcounted : Counted counter reports resets) {a n : ℕ} (han : a < n)
    (hreset : resets a) (hlast : ∀ k, a < k → k < n → ¬ resets k) :
    counter n = ∑ k ∈ Finset.Ico (a + 1) n, reports k := by
  induction n, han using Nat.le_induction with
  | base =>
      rw [Nat.succ_eq_add_one, Finset.Ico_self, Finset.sum_empty]
      exact hcounted.reset a hreset
  | succ n han ih =>
      have hbefore := ih fun k hak hkn => hlast k hak (Nat.lt_succ_of_lt hkn)
      rw [hcounted.count n (hlast n han (Nat.lt_succ_self n)), hbefore,
        Finset.sum_Ico_succ_top han]

end Counters

end Apcupsd
