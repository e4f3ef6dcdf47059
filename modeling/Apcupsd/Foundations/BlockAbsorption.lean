import Mathlib.Data.List.Basic
import Mathlib.Data.List.TakeDrop

/-!
# Absorbing a message block by block

A state takes in a message in blocks of a fixed length; what does not fill a block is left over.

Main results:

- Theorem {lit}`absorb_append`: a message may be taken in piece by piece, with what is left over
  put in front of the next piece.
- Theorem {lit}`length_absorb_snd`: how much is left over.
-/

namespace BlockAbsorption

variable {σ β : Type*} (process : σ → List β → σ) (n : ℕ)

/-- Take in a number of blocks. -/
def absorbBlocks : ℕ → σ → List β → σ × List β
  | 0, st, msg => (st, msg)
  | k + 1, st, msg => absorbBlocks k (process st (msg.take n)) (msg.drop n)

/-- Take in all the blocks of a message. -/
def absorb (st : σ) (msg : List β) : σ × List β :=
  absorbBlocks process n (msg.length / n) st msg

variable {process n} {st : σ} {msg block rest : List β}

theorem absorb_of_lt (hlt : msg.length < n) : absorb process n st msg = (st, msg) := by
  rw [absorb, Nat.div_eq_of_lt hlt, absorbBlocks]

/-- The first block. -/
theorem absorb_of_le (hn : 0 < n) (hle : n ≤ msg.length) :
    absorb process n st msg = absorb process n (process st (msg.take n)) (msg.drop n) := by
  have hdiv : msg.length / n = (msg.length - n) / n + 1 := by
    rw [← Nat.add_div_right _ hn, Nat.sub_add_cancel hle]
  rw [absorb, hdiv, absorbBlocks, absorb, List.length_drop]

theorem absorb_block (hn : 0 < n) (hblock : block.length = n) :
    absorb process n st (block ++ rest) = absorb process n (process st block) rest := by
  have hle : n ≤ (block ++ rest).length := by
    rw [List.length_append]
    omega
  rw [absorb_of_le hn hle, ← hblock, List.take_left, List.drop_left]

theorem length_absorb_snd (hn : 0 < n) (st : σ) (msg : List β) :
    (absorb process n st msg).2.length = msg.length % n := by
  induction hlength : msg.length using Nat.strongRecOn generalizing st msg with
  | ind m ih =>
      subst hlength
      by_cases hlt : msg.length < n
      · rw [absorb_of_lt hlt, Nat.mod_eq_of_lt hlt]
      · have hle : n ≤ msg.length := Nat.not_lt.mp hlt
        rw [absorb_of_le hn hle, ih _ _ _ _ rfl, List.length_drop,
          Nat.mod_eq_sub_mod hle]
        rw [List.length_drop]
        omega

/-- A message in two pieces. -/
theorem absorb_append (hn : 0 < n) (st : σ) (msg rest : List β) :
    absorb process n st (msg ++ rest) =
      absorb process n (absorb process n st msg).1 ((absorb process n st msg).2 ++ rest) := by
  induction hlength : msg.length using Nat.strongRecOn generalizing st msg with
  | ind m ih =>
      subst hlength
      by_cases hlt : msg.length < n
      · rw [absorb_of_lt hlt]
      · have hle : n ≤ msg.length := Nat.not_lt.mp hlt
        have hshorter : (msg.drop n).length < msg.length := by
          rw [List.length_drop]
          omega
        have hall : n ≤ (msg ++ rest).length := by
          rw [List.length_append]
          omega
        rw [absorb_of_le hn hle, absorb_of_le hn hall, List.take_append_of_le_length hle,
          List.drop_append_of_le_length hle]
        exact ih _ hshorter _ _ rfl

end BlockAbsorption
