import Mathlib.Data.List.Basic
import Mathlib.Data.List.Induction
import Mathlib.Data.Nat.Notation
import Mathlib.Logic.Function.Iterate

/-!
# Repeated writes

A cell is written by operations that set it, operations that add to what is there, and
others that leave it alone.  The sets all write the same value, and so do the adds.

Main results:

- Theorem {lit}`foldl_write`: what is left is the last set with the adds behind it.
- Theorem {lit}`iterate_appendWithin`: adds that append to a text of bounded length.
- Theorem {lit}`appendWithin_eq_once_iff`: when several of them leave the same as one.
-/

namespace Apcupsd
namespace RepeatedWrites

/-! ## The last set -/

section Cell

variable {κ α : Type*} (isSet isAdd : κ → Bool) (value : α) (add : α → α)

/-- The effect of an operation on the cell. -/
def write (cell : α) (op : κ) : α :=
  if isSet op then value else if isAdd op then add cell else cell

/-- The number of adds behind the last set. -/
def addsSince (ops : List κ) : ℕ :=
  (ops.reverse.takeWhile fun op => !isSet op).countP isAdd

/-- What is left is the last set, or what was there if there is none, with the adds behind
it. -/
theorem foldl_write (ops : List κ) (cell : α) :
    ops.foldl (write isSet isAdd value add) cell =
      add^[addsSince isSet isAdd ops] (if ops.any isSet then value else cell) := by
  induction ops using List.reverseRecOn with
  | nil => rfl
  | append_singleton ops op ih =>
      rw [List.foldl_append, ih, List.foldl_cons, List.foldl_nil]
      unfold write addsSince
      rw [List.reverse_concat, List.takeWhile_cons]
      by_cases hset : isSet op = true
      · simp [hset]
      · by_cases hadd : isAdd op = true
        · simp [hset, hadd, Function.iterate_succ_apply']
        · simp [hset, hadd]

end Cell

/-! ## Bounded texts -/

section Text

variable {α : Type*} {size : ℕ} {tail text : List α}

/-- A tail is appended to a text as far as there is room. -/
def appendWithin (size : ℕ) (tail text : List α) : List α :=
  (text ++ tail).take size

/-- What did not fit leaves no room for what is appended later. -/
theorem take_append_take (text tail : List α) :
    (text.take size ++ tail).take size = (text ++ tail).take size := by
  have hroom : size - min size text.length = size - text.length := by omega
  rw [List.take_append, List.take_append, List.take_take, Nat.min_self, List.length_take, hroom]

/-- Appending several times appends so many tails at once. -/
theorem iterate_appendWithin (n : ℕ) :
    (appendWithin size tail)^[n + 1] text =
      (text ++ (List.replicate (n + 1) tail).flatten).take size := by
  induction n with
  | zero => simp [appendWithin]
  | succ n ih =>
      have htails : (List.replicate (n + 2) tail).flatten =
          (List.replicate (n + 1) tail).flatten ++ tail := by
        rw [List.replicate_succ' , List.flatten_append]
        simp
      rw [Function.iterate_succ_apply', ih, appendWithin, take_append_take, htails,
        List.append_assoc]

theorem length_appendWithin (n : ℕ) :
    ((appendWithin size tail)^[n + 1] text).length =
      min size (text.length + (n + 1) * tail.length) := by
  rw [iterate_appendWithin, List.length_take, List.length_append, List.length_flatten]
  simp

/-- Several tails leave the same as one exactly if one fills the room. -/
theorem appendWithin_eq_once_iff (htail : tail ≠ []) (n : ℕ) :
    (appendWithin size tail)^[n + 2] text = appendWithin size tail text ↔
      size ≤ text.length + tail.length := by
  have hpos : 0 < tail.length := List.length_pos_iff.mpr htail
  constructor
  · intro heq
    have hlength := congrArg List.length heq
    rw [length_appendWithin, appendWithin, List.length_take, List.length_append] at hlength
    have hmore : (n + 1 + 1) * tail.length = n * tail.length + tail.length + tail.length := by
      rw [Nat.succ_mul, Nat.succ_mul]
    omega
  · intro hfull
    have htails : (List.replicate (n + 2) tail).flatten =
        tail ++ (List.replicate (n + 1) tail).flatten := by
      rw [List.replicate_succ, List.flatten_cons]
    rw [iterate_appendWithin, htails, ← List.append_assoc, appendWithin]
    exact List.take_append_of_le_length (by rwa [List.length_append])

/-- A tail leaves a text as it was exactly if the text has the size of the room. -/
theorem appendWithin_eq_self_iff (htail : tail ≠ []) (n : ℕ) :
    (appendWithin size tail)^[n + 1] text = text ↔ text.length = size := by
  have hpos : 0 < (n + 1) * tail.length :=
    Nat.mul_pos (Nat.succ_pos n) (List.length_pos_iff.mpr htail)
  constructor
  · intro heq
    have hlength := congrArg List.length heq
    rw [length_appendWithin] at hlength
    omega
  · intro hfull
    rw [iterate_appendWithin, List.take_append_of_le_length (Nat.le_of_eq hfull.symm), ← hfull, List.take_length]

end Text

end RepeatedWrites
end Apcupsd
