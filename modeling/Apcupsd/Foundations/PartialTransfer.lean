import Mathlib.Data.List.Basic
import Mathlib.Tactic.Cases

/-!
# Transfers in parts

A loop that moves data with calls each of which moves a part of it or fails, such as a loop
around {lit}`read` or {lit}`write`.

Main results:

- Theorem {lit}`transfer_of_not_failsIn`: if no call fails in time, everything is moved.
- Theorem {lit}`transfer_of_failsIn`: if one does, a part is missing.
-/

namespace PartialTransfer

/-- How a call comes out; one that succeeds moves at least one element, and at most one more
than {lit}`most`. -/
inductive Attempt where
  | fails
  | moves (most : ℕ)
deriving DecidableEq, Repr

variable {α : Type*}

/-- The loop: what has been moved, and whether a call has failed.  {lit}`attempts` is how the
calls come out, from the one with the number {lit}`turn` on. -/
def transfer (attempts : ℕ → Attempt) : ℕ → ℕ → List α → List α × Bool
  | 0, _, _ => ([], false)
  | _ + 1, _, [] => ([], false)
  | fuel + 1, turn, x :: data =>
      match attempts turn with
      | .fails => ([], true)
      | .moves most =>
          let (moved, failed) := transfer attempts fuel (turn + 1) (data.drop most)
          (x :: data.take most ++ moved, failed)

/-- A call fails while some of so many elements have not been moved. -/
inductive FailsIn (attempts : ℕ → Attempt) : ℕ → ℕ → Prop
  | now {turn left : ℕ} (hfails : attempts turn = .fails) (hleft : 0 < left) :
      FailsIn attempts turn left
  | later {turn left most : ℕ} (hmoves : attempts turn = .moves most)
      (hfails : FailsIn attempts (turn + 1) (left - (most + 1))) : FailsIn attempts turn left

variable {attempts : ℕ → Attempt}

theorem failsIn_iff_of_moves {turn left most : ℕ} (hmoves : attempts turn = .moves most) :
    FailsIn attempts turn left ↔ FailsIn attempts (turn + 1) (left - (most + 1)) := by
  constructor
  · intro hfails
    cases hfails with
    | now hnow _ => rw [hmoves] at hnow; cases hnow
    | later hlater hfails =>
        rw [hmoves] at hlater
        obtain rfl := Attempt.moves.inj hlater
        exact hfails
  · exact FailsIn.later hmoves

/-- When everything has been moved, no call can fail. -/
theorem not_failsIn_zero (turn : ℕ) : ¬ FailsIn attempts turn 0 := by
  have hnone (turn left : ℕ) (hfails : FailsIn attempts turn left) : left ≠ 0 := by
    induction hfails with
    | now _ hleft => exact Nat.ne_of_gt hleft
    | later _ _ ih => exact fun hzero => ih (by omega)
  exact fun hfails => hnone turn 0 hfails rfl

/-- If no call fails in time, everything is moved. -/
theorem transfer_of_not_failsIn {fuel turn : ℕ} {data : List α} (hfuel : data.length ≤ fuel)
    (hfails : ¬ FailsIn attempts turn data.length) :
    transfer attempts fuel turn data = (data, false) := by
  induction fuel generalizing turn data with
  | zero =>
      rw [List.length_eq_zero_iff.mp (Nat.le_zero.mp hfuel)]
      rfl
  | succ fuel ih =>
      cases data with
      | nil => rfl
      | cons x data =>
          rw [transfer]
          cases hattempt : attempts turn with
          | fails => exact absurd (FailsIn.now hattempt (Nat.succ_pos _)) hfails
          | moves most =>
              have hrest : ¬ FailsIn attempts (turn + 1) (data.drop most).length := by
                rw [failsIn_iff_of_moves hattempt, List.length_cons,
                  Nat.add_sub_add_right] at hfails
                rwa [List.length_drop]
              rw [List.length_cons] at hfuel
              dsimp only
              rw [ih (by rw [List.length_drop]; omega) hrest]
              dsimp only
              rw [List.cons_append, List.take_append_drop]

/-- If a call fails in time, a part is missing. -/
theorem transfer_of_failsIn {fuel turn : ℕ} {data : List α} (hfuel : data.length ≤ fuel)
    (hfails : FailsIn attempts turn data.length) :
    ∃ part rest, data = part ++ rest ∧ rest ≠ [] ∧
      transfer attempts fuel turn data = (part, true) := by
  induction fuel generalizing turn data with
  | zero =>
      rw [Nat.le_zero.mp hfuel] at hfails
      exact absurd hfails (not_failsIn_zero turn)
  | succ fuel ih =>
      cases data with
      | nil => exact absurd hfails (not_failsIn_zero turn)
      | cons x data =>
          rw [transfer]
          cases hattempt : attempts turn with
          | fails => exact ⟨[], x :: data, rfl, List.cons_ne_nil _ _, rfl⟩
          | moves most =>
              rw [failsIn_iff_of_moves hattempt, List.length_cons, Nat.add_sub_add_right,
                ← List.length_drop] at hfails
              rw [List.length_cons] at hfuel
              obtain ⟨part, rest, hsplit, hrest, hmoved⟩ :=
                ih (by rw [List.length_drop]; omega) hfails
              refine ⟨x :: data.take most ++ part, rest, ?_, hrest, ?_⟩
              · rw [List.append_assoc, ← hsplit, List.cons_append, List.take_append_drop]
              · dsimp only
                rw [hmoved]

end PartialTransfer
