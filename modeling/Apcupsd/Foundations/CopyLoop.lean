import Mathlib.Data.List.GetD
import Mathlib.Data.List.Range
import Mathlib.Data.Nat.Find
import Apcupsd.Foundations.CStrings

/-!
# Copying out of a string in memory

A loop copies characters from the memory into a buffer until it finds some character or has
no room left.  Every position that it reads is recorded, and so is the number of characters
that it has written.

Main results:

- Theorem {lit}`copyLoop_of_goesOn`: what a loop that goes on has done.
- Theorem {lit}`copyLoop_of_stops`: what a loop that stops has done.
- Theorem {lit}`copyLoop_inside_iff`: a loop stays inside its two buffers exactly if it has a
  reason to stop there.
-/

namespace Apcupsd
namespace CopyLoop

open CStrings

/-! ## Strings in memory -/

/-- A string that stands in the memory from position zero on, with its terminator; nothing is
known about what lies behind. -/
structure CString where
  text : List Char
  memory : ℕ → Char
  nul_notMem : nul ∉ text
  holds : ∀ i (hi : i < text.length), memory i = text[i]
  terminated : memory text.length = nul

/-- A text with terminators behind it. -/
def CString.ofText (text : List Char) (hnul : nul ∉ text) : CString where
  text := text
  memory i := text.getD i nul
  nul_notMem := hnul
  holds _ hi := List.getD_eq_getElem text nul hi
  terminated := List.getD_eq_default text nul le_rfl

/-- Up to the terminator, what the memory holds is told by the text. -/
theorem CString.memory_eq_iff (string : CString) {start k : ℕ} {c : Char} (hc : c ≠ nul)
    (hle : start + k ≤ string.text.length) :
    string.memory (start + k) = c ↔ (string.text.drop start)[k]? = some c := by
  rw [List.getElem?_drop]
  rcases Nat.lt_or_eq_of_le hle with hlt | heq
  · rw [string.holds _ hlt, List.getElem?_eq_getElem hlt, Option.some.injEq]
  · rw [heq, string.terminated, List.getElem?_eq_none le_rfl]
    exact iff_of_false hc.symm (Option.some_ne_none c).symm

/-! ## The loop -/

/-- The positions that have been read, and the number of characters that have been written. -/
structure Accesses where
  reads : List ℕ
  written : ℕ
deriving DecidableEq

section Loop

variable (memory : ℕ → Char) (stop : Char) (room : ℕ → Bool)

/-- {lit}`while (*from != stop && room) to[i++] = *from++; to[i] = 0;` a loop that goes on is cut
off when the fuel is used up. -/
def copyLoop : ℕ → ℕ → ℕ → Accesses
  | 0, _, i => ⟨[], i⟩
  | fuel + 1, position, i =>
      if memory position ≠ stop ∧ room i then
        let rest := copyLoop fuel (position + 1) (i + 1)
        ⟨position :: rest.reads, rest.written⟩
      else ⟨[position], i + 1⟩

/-- The loop has no reason to stop after so many characters. -/
def GoesOn (start k : ℕ) : Prop :=
  memory (start + k) ≠ stop ∧ room k = true

instance (start k : ℕ) : Decidable (GoesOn memory stop room start k) :=
  inferInstanceAs (Decidable (_ ∧ _))

variable {memory stop room} {start k fuel : ℕ}

/-- A loop that has not stopped yet. -/
theorem copyLoop_of_goesOn (i : ℕ)
    (hgoes : ∀ j < fuel, GoesOn memory stop room start (i + j)) :
    copyLoop memory stop room fuel (start + i) i = ⟨List.range' (start + i) fuel, i + fuel⟩ := by
  induction fuel generalizing i with
  | zero => rfl
  | succ fuel ih =>
      have hfirst : memory (start + i) ≠ stop ∧ room i = true := hgoes 0 (Nat.succ_pos fuel)
      have hrest := ih (i + 1) fun j hj => by
        rw [Nat.add_right_comm i 1 j]
        exact hgoes (j + 1) (Nat.succ_lt_succ hj)
      rw [copyLoop, if_pos hfirst]
      rw [Nat.add_assoc start i 1, hrest]
      simp only [List.range'_succ, Nat.add_assoc, Nat.add_comm 1]

/-- A loop that stops after so many characters, at the first reason. -/
theorem copyLoop_of_stops (i : ℕ) (hgoes : ∀ j < k, GoesOn memory stop room start (i + j))
    (hstops : ¬ GoesOn memory stop room start (i + k)) (hfuel : k < fuel) :
    copyLoop memory stop room fuel (start + i) i =
      ⟨List.range' (start + i) (k + 1), i + k + 1⟩ := by
  induction k generalizing fuel i with
  | zero =>
      obtain ⟨fuel, rfl⟩ := Nat.exists_eq_succ_of_ne_zero (Nat.ne_of_gt hfuel)
      have hfirst : ¬ (memory (start + i) ≠ stop ∧ room i = true) := hstops
      rw [copyLoop, if_neg hfirst]
      rfl
  | succ k ih =>
      obtain ⟨fuel, rfl⟩ := Nat.exists_eq_succ_of_ne_zero (Nat.ne_zero_of_lt hfuel)
      have hfirst : memory (start + i) ≠ stop ∧ room i = true := hgoes 0 (Nat.succ_pos k)
      have hrest := ih (i + 1) (fun j hj => by
        rw [Nat.add_right_comm i 1 j]
        exact hgoes (j + 1) (Nat.succ_lt_succ hj)) (by
        rw [Nat.add_right_comm i 1 k]
        exact hstops) (Nat.lt_of_succ_lt_succ hfuel)
      rw [copyLoop, if_pos hfirst]
      rw [Nat.add_assoc start i 1, hrest]
      simp only [List.range'_succ, Nat.add_assoc, Nat.add_comm 1]

theorem copyLoop_start_of_goesOn (hgoes : ∀ j < fuel, GoesOn memory stop room start j) :
    copyLoop memory stop room fuel start 0 = ⟨List.range' start fuel, fuel⟩ := by
  have hrun := @copyLoop_of_goesOn memory stop room start fuel 0
    (by simpa only [Nat.zero_add] using hgoes)
  simpa only [Nat.zero_add, Nat.add_zero] using hrun

theorem copyLoop_start_of_stops (hgoes : ∀ j < k, GoesOn memory stop room start j)
    (hstops : ¬ GoesOn memory stop room start k) (hfuel : k < fuel) :
    copyLoop memory stop room fuel start 0 = ⟨List.range' start (k + 1), k + 1⟩ := by
  have hrun := @copyLoop_of_stops memory stop room start k fuel 0
    (by simpa only [Nat.zero_add] using hgoes) (by simpa only [Nat.zero_add] using hstops) hfuel
  simpa only [Nat.zero_add, Nat.add_zero] using hrun

/-- At no time has the loop read behind a position or written more than so many characters. -/
def Inside (memory : ℕ → Char) (stop : Char) (room : ℕ → Bool) (start last n : ℕ) : Prop :=
  ∀ fuel, (∀ p ∈ (copyLoop memory stop room fuel start 0).reads, p ≤ last) ∧
    (copyLoop memory stop room fuel start 0).written ≤ n

/-- A loop stays inside its two buffers exactly if it has a reason to stop there. -/
theorem copyLoop_inside_iff {last n : ℕ} :
    Inside memory stop room start last n ↔
      ∃ k, ¬ GoesOn memory stop room start k ∧ start + k ≤ last ∧ k + 1 ≤ n := by
  constructor
  · intro hinside
    by_cases hexists : ∃ k, ¬ GoesOn memory stop room start k
    · have hrun := copyLoop_start_of_stops (fun j hj => not_not.mp (Nat.find_min hexists hj))
        (Nat.find_spec hexists) (Nat.lt_succ_self (Nat.find hexists))
      rcases hinside (Nat.find hexists).succ with ⟨hreads, hwritten⟩
      rw [hrun] at hreads hwritten
      refine ⟨Nat.find hexists, Nat.find_spec hexists, ?_, hwritten⟩
      apply hreads
      rw [List.mem_range'_1]
      omega
    · have hgoes : ∀ j < n + 1, GoesOn memory stop room start j := fun j _ =>
        not_not.mp (not_exists.mp hexists j)
      have hwritten := (hinside (n + 1)).2
      rw [copyLoop_start_of_goesOn hgoes] at hwritten
      exact absurd hwritten (Nat.not_succ_le_self n)
  · rintro ⟨k, hstops, hlast, hn⟩ fuel
    have hexists : ∃ k, ¬ GoesOn memory stop room start k := ⟨k, hstops⟩
    have hle : Nat.find hexists ≤ k := Nat.find_le hstops
    have hgoes : ∀ j < Nat.find hexists, GoesOn memory stop room start j := fun j hj =>
      not_not.mp (Nat.find_min hexists hj)
    rcases Nat.lt_or_ge (Nat.find hexists) fuel with hfuel | hfuel
    · rw [copyLoop_start_of_stops hgoes (Nat.find_spec hexists) hfuel]
      refine ⟨fun p hp => ?_, (Nat.succ_le_succ hle).trans hn⟩
      rw [List.mem_range'_1] at hp
      omega
    · rw [copyLoop_start_of_goesOn fun j hj => hgoes j (by omega)]
      refine ⟨fun p hp => ?_, (hfuel.trans hle).trans (Nat.le_of_succ_le hn)⟩
      rw [List.mem_range'_1] at hp
      omega

end Loop

end CopyLoop
end Apcupsd
