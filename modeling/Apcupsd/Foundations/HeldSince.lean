import Mathlib.Algebra.Order.Group.Defs
import Mathlib.Algebra.Order.Sub.Defs
import Mathlib.Algebra.Order.Group.Unbundled.Basic

/-!
# Timestamps that vouch for an interval

Programs that debounce a condition or measure a delay keep a timestamp and
later compare it with the clock.  The comparison is meaningful only when the
timestamp was taken at a step since which the condition has held without
interruption.  This module states that relation for an arbitrary sequence of
steps, with clock readings in any linearly ordered group, and gives the rules by
which a program's step lemmas establish and use it.

Main results:

- Theorems {lit}`HeldSince.start` and {lit}`HeldSince.extend`: taking a stamp and
  keeping one.
- Theorem {lit}`heldSince_of_steps`: the run rule.  A stamp whose every step
  either takes it or keeps it, with the condition true, vouches for the
  condition in every state of the run.
- Theorem {lit}`HeldSince.elapsed`: an elapsed stamp yields a step at least that
  long ago from which the condition has held until now.
-/

namespace Apcupsd

variable {T : Type*}

/-- {lit}`stamp` is the clock reading of a step before {lit}`n` that satisfies
{lit}`taken`, and {lit}`holds` is true of every step from that one up to
{lit}`n`. -/
def HeldSince (clock : ℕ → T) (taken holds : ℕ → Prop) (n : ℕ) (stamp : T) : Prop :=
  ∃ i, i < n ∧ clock i = stamp ∧ taken i ∧ ∀ j, i ≤ j → j < n → holds j

namespace HeldSince

variable {clock : ℕ → T} {taken holds : ℕ → Prop} {n : ℕ} {stamp : T}

/-- A stamp taken at a step that satisfies the condition vouches for it. -/
theorem start (htaken : taken n) (hnow : holds n) :
    HeldSince clock taken holds (n + 1) (clock n) := by
  refine ⟨n, Nat.lt_succ_self n, rfl, htaken, ?_⟩
  intro j hnj hjn
  obtain rfl : j = n := by omega
  exact hnow

/-- A kept stamp still vouches after one more step that satisfies the condition. -/
theorem extend (hheld : HeldSince clock taken holds n stamp) (hnow : holds n) :
    HeldSince clock taken holds (n + 1) stamp := by
  rcases hheld with ⟨i, hin, hclock, htaken, hall⟩
  refine ⟨i, Nat.lt_succ_of_lt hin, hclock, htaken, ?_⟩
  intro j hij hjn
  rcases Nat.lt_succ_iff_lt_or_eq.mp hjn with hlt | rfl
  · exact hall j hij hlt
  · exact hnow

/-- Once {lit}`delay` has elapsed since a stamp, some step at least
{lit}`delay` ago starts an unbroken stretch that reaches the present step. -/
theorem elapsed [AddCommGroup T] [LinearOrder T] [IsOrderedAddMonoid T]
    {now delay : T} (hheld : HeldSince clock taken holds n stamp)
    (helapsed : delay ≤ now - stamp) :
    ∃ i, i < n ∧ clock i ≤ now - delay ∧ taken i ∧
      ∀ j, i ≤ j → j < n → holds j := by
  rcases hheld with ⟨i, hin, hclock, htaken, hall⟩
  refine ⟨i, hin, ?_, htaken, hall⟩
  rw [hclock]
  exact le_sub_comm.mp helapsed

end HeldSince

/-- The run rule: when every step that leaves the timer armed satisfies the
condition, and either takes the stamp or keeps an armed one, the stamp of an
armed timer vouches for the condition. -/
theorem heldSince_of_steps (clock : ℕ → T) (taken holds armed : ℕ → Prop)
    (stamp : ℕ → T) (hinitial : ¬ armed 0)
    (hstep : ∀ n, armed (n + 1) → holds n ∧
      (taken n ∧ stamp (n + 1) = clock n ∨ armed n ∧ stamp (n + 1) = stamp n)) :
    ∀ n, armed n → HeldSince clock taken holds n (stamp n) := by
  intro n
  induction n with
  | zero => exact fun harmed => absurd harmed hinitial
  | succ n ih =>
      intro harmed
      rcases hstep n harmed with ⟨hnow, ⟨htaken, hstamp⟩ | ⟨hbefore, hkept⟩⟩
      · rw [hstamp]
        exact HeldSince.start htaken hnow
      · rw [hkept]
        exact (ih hbefore).extend hnow

end Apcupsd
