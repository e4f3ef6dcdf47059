import Mathlib.Algebra.BigOperators.Group.Finset.Basic
import Mathlib.Algebra.Order.Group.Int
import Mathlib.Order.Monotone.Basic

/-!
# Completed periods of a condition

A condition that comes and goes along a sequence of steps has periods: maximal
stretches of steps at which it holds.  A period is completed by the first step at
which the condition no longer holds, and lasts from its first step to that step.

Main results:

- Theorems {lit}`periodTotal_succ_of_period` and {lit}`periodTotal_succ_of_none`: the
  total duration of the completed periods grows by the period that a step
  completes.
- Theorem {lit}`periodTotal_succ_le_elapsed`: it never exceeds the time elapsed.
-/

namespace Apcupsd

/-- The condition begins to hold at step {lit}`i`, holds until step {lit}`j`, and no
longer holds there. -/
def Period (holds : ℕ → Bool) (i j : ℕ) : Prop :=
  i < j ∧ (i = 0 ∨ holds (i - 1) = false) ∧ (∀ k, i ≤ k → k < j → holds k = true) ∧
    holds j = false

instance (holds : ℕ → Bool) (i j : ℕ) : Decidable (Period holds i j) :=
  inferInstanceAs (Decidable (_ ∧ _ ∧ (∀ k, i ≤ k → k < j → holds k = true) ∧ _))

/-- The total duration of the periods completed before step {lit}`n`. -/
def periodTotal (clock : ℕ → ℤ) (holds : ℕ → Bool) (n : ℕ) : ℤ :=
  ∑ p ∈ (Finset.range n ×ˢ Finset.range n).filter fun p => Period holds p.1 p.2,
    (clock p.2 - clock p.1)

section Periods

variable {clock : ℕ → ℤ} {holds : ℕ → Bool}

/-- A step completes at most one period. -/
theorem Period.unique {i i' j : ℕ} (hleft : Period holds i j) (hright : Period holds i' j) :
    i = i' := by
  have hle : ∀ {i i' : ℕ}, Period holds i j → Period holds i' j → i ≤ i' := by
    intro i i' hfirst hsecond
    by_contra hlt
    rcases hfirst.2.1 with hzero | hoff
    · omega
    · have hon := hsecond.2.2.1 (i - 1) (by omega) (by have := hfirst.1; omega)
      rw [hoff] at hon
      cases hon
  exact le_antisymm (hle hleft hright) (hle hright hleft)

/-- A step at which the condition has just ended completes a period. -/
theorem exists_period {n : ℕ} (hon : holds n = true) (hoff : holds (n + 1) = false) :
    ∃ i, Period holds i (n + 1) := by
  have hstart : ∃ i, i ≤ n ∧ (i = 0 ∨ holds (i - 1) = false) ∧
      ∀ k, i ≤ k → k ≤ n → holds k = true := by
    clear hoff
    induction n with
    | zero =>
        refine ⟨0, le_rfl, Or.inl rfl, ?_⟩
        intro k _ hk
        obtain rfl : k = 0 := Nat.le_zero.mp hk
        exact hon
    | succ n ih =>
        cases hbefore : holds n with
        | false =>
            refine ⟨n + 1, le_rfl, Or.inr hbefore, ?_⟩
            intro k hik hkn
            obtain rfl : k = n + 1 := le_antisymm hkn hik
            exact hon
        | true =>
            rcases ih hbefore with ⟨i, hin, hbegin, hall⟩
            refine ⟨i, Nat.le_succ_of_le hin, hbegin, ?_⟩
            intro k hik hkn
            rcases hkn.lt_or_eq with hlt | rfl
            · exact hall k hik (Nat.le_of_lt_succ hlt)
            · exact hon
  rcases hstart with ⟨i, hin, hbegin, hall⟩
  exact ⟨i, Nat.lt_succ_of_le hin, hbegin,
    fun k hik hkn => hall k hik (Nat.le_of_lt_succ hkn), hoff⟩

theorem periodTotal_zero : periodTotal clock holds 0 = 0 := rfl

/-- The step that completes a period adds its duration. -/
theorem periodTotal_succ_of_period {i n : ℕ} (hperiod : Period holds i n) :
    periodTotal clock holds (n + 1) = periodTotal clock holds n + (clock n - clock i) := by
  have hnew : (Finset.range (n + 1) ×ˢ Finset.range (n + 1)).filter
        (fun p => Period holds p.1 p.2) =
      insert (i, n) ((Finset.range n ×ˢ Finset.range n).filter
        fun p => Period holds p.1 p.2) := by
    ext ⟨a, b⟩
    simp only [Finset.mem_filter, Finset.mem_product, Finset.mem_range, Finset.mem_insert,
      Prod.mk.injEq]
    constructor
    · rintro ⟨⟨_, hb⟩, hab⟩
      rcases Nat.lt_succ_iff_lt_or_eq.mp hb with hlt | rfl
      · exact Or.inr ⟨⟨hab.1.trans hlt, hlt⟩, hab⟩
      · exact Or.inl ⟨hab.unique hperiod, rfl⟩
    · rintro (⟨rfl, rfl⟩ | ⟨⟨ha, hb⟩, hab⟩)
      · exact ⟨⟨Nat.lt_succ_of_lt hperiod.1, Nat.lt_succ_self b⟩, hperiod⟩
      · exact ⟨⟨Nat.lt_succ_of_lt ha, Nat.lt_succ_of_lt hb⟩, hab⟩
  have hfresh : (i, n) ∉ (Finset.range n ×ˢ Finset.range n).filter
      fun p => Period holds p.1 p.2 := by
    simp
  unfold periodTotal
  rw [hnew, Finset.sum_insert hfresh, add_comm]

/-- A step that completes no period adds nothing. -/
theorem periodTotal_succ_of_none {n : ℕ} (hnone : ∀ i, ¬ Period holds i n) :
    periodTotal clock holds (n + 1) = periodTotal clock holds n := by
  have hsame : (Finset.range (n + 1) ×ˢ Finset.range (n + 1)).filter
        (fun p => Period holds p.1 p.2) =
      (Finset.range n ×ˢ Finset.range n).filter fun p => Period holds p.1 p.2 := by
    ext ⟨a, b⟩
    simp only [Finset.mem_filter, Finset.mem_product, Finset.mem_range]
    constructor
    · rintro ⟨⟨_, hb⟩, hab⟩
      rcases Nat.lt_succ_iff_lt_or_eq.mp hb with hlt | rfl
      · exact ⟨⟨hab.1.trans hlt, hlt⟩, hab⟩
      · exact absurd hab (hnone a)
    · rintro ⟨⟨ha, hb⟩, hab⟩
      exact ⟨⟨Nat.lt_succ_of_lt ha, Nat.lt_succ_of_lt hb⟩, hab⟩
  unfold periodTotal
  rw [hsame]

/-- While the condition holds no period is completed. -/
theorem periodTotal_of_holds {i n : ℕ} (hin : i ≤ n)
    (hholds : ∀ k, i ≤ k → k < n → holds k = true) :
    periodTotal clock holds n = periodTotal clock holds i := by
  induction n, hin using Nat.le_induction with
  | base => rfl
  | succ n hin ih =>
      have hnone : ∀ j, ¬ Period holds j n := by
        intro j hperiod
        have hon := hholds n hin (Nat.lt_succ_self n)
        rw [hperiod.2.2.2] at hon
        cases hon
      rw [periodTotal_succ_of_none hnone]
      exact ih fun k hik hkn => hholds k hik (Nat.lt_succ_of_lt hkn)

/-- Completed periods do not overlap: together they last at most as long as the
time elapsed. -/
theorem periodTotal_succ_le_elapsed (hclock : ∀ m n, m ≤ n → clock m ≤ clock n) (n : ℕ) :
    periodTotal clock holds (n + 1) ≤ clock n - clock 0 := by
  induction n using Nat.strong_induction_on with
  | _ n ih =>
      have hearlier : ∀ m, m ≤ n → periodTotal clock holds m ≤ clock m - clock 0 := by
        intro m hm
        rcases m with _ | m
        · rw [periodTotal_zero, sub_self]
        · have hgrow := hclock m (m + 1) (Nat.le_succ m)
          have hbound := ih m hm
          omega
      by_cases hperiod : ∃ i, Period holds i n
      · rcases hperiod with ⟨i, hperiod⟩
        have hbound := hearlier i hperiod.1.le
        rw [periodTotal_succ_of_period hperiod,
          periodTotal_of_holds hperiod.1.le hperiod.2.2.1]
        omega
      · rw [periodTotal_succ_of_none (not_exists.mp hperiod)]
        exact hearlier n le_rfl

end Periods

end Apcupsd
