import Mathlib.Algebra.Order.Group.Nat
import Mathlib.Data.Fin.VecNotation
import Mathlib.Data.ZMod.Defs

/-!
# A ring that remembers the latest entries

A ring of {lit}`n` slots is written at a cursor that moves round.  After any number of
writes it holds the latest {lit}`n` entries of the history.

Main results:

- Theorem {lit}`Ring.remembers_push`: one write keeps the relation between a ring and
  the history of its entries.
- Theorem {lit}`Ring.contains_iff`: a ring contains what is among the latest entries of
  its history.
- Theorem {lit}`Ring.slots_foldl_push`: which slot holds an entry.
-/

namespace Apcupsd

variable {n : ℕ} [NeZero n] {α : Type*}

/-- A ring of {lit}`n` slots with its write cursor. -/
structure Ring (n : ℕ) [NeZero n] (α : Type*) where
  slots : Fin n → Option α
  next : Fin n

namespace Ring

/-- The ring with nothing in it. -/
def empty : Ring n α where
  slots := fun _ => none
  next := 0

/-- Writes an entry over the oldest one. -/
def push (r : Ring n α) (x : α) : Ring n α where
  slots := Function.update r.slots r.next (some x)
  next := r.next + 1

/-- Some slot holds the entry. -/
def contains [DecidableEq α] (r : Ring n α) (x : α) : Bool :=
  decide (∃ i, r.slots i = some x)

/-- {lit}`history` lists the entries written so far, latest first: the slot {lit}`i`
places behind the last write holds its {lit}`i`-th element. -/
def Remembers (r : Ring n α) (history : List α) : Prop :=
  ∀ i : Fin n, r.slots (r.next - 1 - i) = history[(i : ℕ)]?

theorem remembers_empty : (empty : Ring n α).Remembers [] := by
  intro i
  simp [empty]

theorem remembers_push {r : Ring n α} {history : List α} (hr : r.Remembers history) (x : α) :
    (r.push x).Remembers (x :: history) := by
  intro i
  have hslot : (r.push x).next - 1 - i = r.next - i := by
    simp [push]
  rw [hslot]
  by_cases hi : i = 0
  · subst hi
    simp [push]
  · have hne : r.next - i ≠ r.next := by
      simpa [sub_eq_self] using hi
    have hprev : ((i - 1 : Fin n) : ℕ) + 1 = (i : ℕ) := by
      have hpos : (i : ℕ) ≠ 0 := fun hzero => hi (Fin.ext (by simpa using hzero))
      rw [Fin.val_sub_one_of_ne_zero hi]
      omega
    have hold := hr (i - 1)
    have hsame : r.next - 1 - (i - 1) = r.next - i := sub_sub_sub_cancel_right _ _ _
    rw [hsame] at hold
    rw [← hprev, List.getElem?_cons_succ, ← hold]
    simp [push, Function.update_of_ne hne]

/-- A ring contains an entry if and only if it is among the latest {lit}`n`. -/
theorem contains_iff [DecidableEq α] {r : Ring n α} {history : List α}
    (hr : r.Remembers history) (x : α) :
    r.contains x = true ↔ x ∈ history.take n := by
  simp only [contains, decide_eq_true_eq, List.mem_iff_getElem?]
  constructor
  · rintro ⟨i, hi⟩
    have hslot := hr (r.next - 1 - i)
    rw [sub_sub_cancel, hi] at hslot
    refine ⟨(r.next - 1 - i : Fin n), ?_⟩
    rw [List.getElem?_take_of_lt (Fin.isLt _)]
    exact hslot.symm
  · rintro ⟨k, hk⟩
    have hlt : k < n := by
      by_contra hge
      simp [hge] at hk
    rw [List.getElem?_take_of_lt hlt] at hk
    exact ⟨r.next - 1 - ⟨k, hlt⟩, (hr ⟨k, hlt⟩).trans hk⟩

/-- After any number of writes the cursor stands at their number, modulo the size. -/
theorem next_foldl_push (entries : List α) :
    (entries.foldl push (empty : Ring n α)).next = Fin.ofNat n entries.length := by
  induction entries using List.reverseRecOn with
  | nil => exact Fin.ext (Nat.zero_mod n).symm
  | append_singleton entries x ih =>
      rw [List.foldl_append, List.foldl_cons, List.foldl_nil, push, ih, List.length_append]
      apply Fin.ext
      rw [Fin.val_add, Fin.val_one', Fin.val_ofNat, Fin.val_ofNat, List.length_singleton,
        ← Nat.add_mod]

/-- An entry stands in the slot of its number until as many others follow as there are slots. -/
theorem slots_foldl_push {entries : List α} {k : ℕ} (hk : k < entries.length)
    (hlate : entries.length ≤ k + n) :
    (entries.foldl push (empty : Ring n α)).slots (Fin.ofNat n k) = some entries[k] := by
  induction entries using List.reverseRecOn with
  | nil => exact absurd hk (Nat.not_lt_zero k)
  | append_singleton entries x ih =>
      have hnext := @next_foldl_push n _ α entries
      rw [List.length_append, List.length_singleton] at hk hlate
      have hslots : ((entries ++ [x]).foldl push (empty : Ring n α)).slots =
          Function.update (entries.foldl push empty).slots (Fin.ofNat n entries.length)
            (some x) := by
        rw [List.foldl_append, List.foldl_cons, List.foldl_nil, push, hnext]
      rw [hslots]
      rcases Nat.lt_or_eq_of_le (Nat.le_of_lt_succ hk) with hlt | rfl
      · have hne : Fin.ofNat n k ≠ Fin.ofNat n entries.length := by
          intro heq
          have hmod : k ≡ entries.length [MOD n] := congrArg Fin.val heq
          have hdvd := (Nat.modEq_iff_dvd' hlt.le).mp hmod
          have hle := Nat.le_of_dvd (Nat.sub_pos_of_lt hlt) hdvd
          omega
        rw [Function.update_of_ne hne, ih hlt (by omega), List.getElem_append_left hlt]
      · rw [Function.update_self, List.getElem_concat_length rfl]

end Ring

end Apcupsd
