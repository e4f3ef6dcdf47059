import Mathlib.Data.List.Basic
import Mathlib.Data.Nat.Find
import Mathlib.Tactic.SplitIfs

/-!
# Walks along a cyclic list

A list that begins again behind its last entry, and a search along it that gives up when it seems
to be back where it began.

Main results:

- Theorem {lit}`mem_entries_iff`: from any position every entry is reached within one period.
- Theorem {lit}`search_found_iff`, {lit}`search_lost`: how a bounded search ends.
- Theorem {lit}`EqualAdjacent.search_iff`: if equal entries are adjacent, a search finds what is
  within its bound, unless the list begins with three equal entries.
-/

namespace CyclicWalk

/-! ## Cyclic lists -/

/-- A list that begins again behind its last entry. -/
structure CyclicList (α : Type*) where
  entries : List α
  nonempty : entries ≠ []

namespace CyclicList

variable {α : Type*} (list : CyclicList α)

def period : ℕ :=
  list.entries.length

theorem period_pos : 0 < list.period :=
  List.length_pos_iff.mpr list.nonempty

/-- The entry at a position. -/
def entry (i : ℕ) : α :=
  list.entries.get ⟨i % list.period, Nat.mod_lt i list.period_pos⟩

theorem entry_mem (i : ℕ) : list.entry i ∈ list.entries :=
  List.get_mem _ _

theorem entry_congr {i j : ℕ} (hmod : i % list.period = j % list.period) :
    list.entry i = list.entry j := by
  rw [entry, entry]
  congr 2

theorem entry_add_period (i : ℕ) : list.entry (i + list.period) = list.entry i :=
  list.entry_congr (Nat.add_mod_right i _)

theorem entry_mod (i : ℕ) : list.entry (i % list.period) = list.entry i :=
  list.entry_congr (Nat.mod_mod i _)

theorem entry_mod_add (i k : ℕ) : list.entry (i % list.period + k) = list.entry (i + k) :=
  list.entry_congr (Nat.mod_add_mod i _ k)

/-- From any position every entry is reached within one period. -/
theorem mem_entries_iff (start : ℕ) {x : α} :
    x ∈ list.entries ↔ ∃ k < list.period, list.entry (start + k) = x := by
  constructor
  · intro hmem
    obtain ⟨⟨i, hi⟩, rfl⟩ := List.mem_iff_get.mp hmem
    have hpos := list.period_pos
    have hlt := Nat.mod_lt start hpos
    refine ⟨(i + (list.period - start % list.period)) % list.period, Nat.mod_lt _ hpos, ?_⟩
    have hround : start + (i + (list.period - start % list.period)) =
        i + list.period * (start / list.period + 1) := by
      have hstart := Nat.div_add_mod start list.period
      rw [Nat.mul_add, Nat.mul_one]
      omega
    have hmod : (start + (i + (list.period - start % list.period)) % list.period) %
        list.period = i := by
      rw [Nat.add_mod_mod, hround, Nat.add_mul_mod_self_left]
      exact Nat.mod_eq_of_lt hi
    rw [entry]
    congr 2
  · rintro ⟨k, -, rfl⟩
    exact list.entry_mem _

/-- Equal entries are adjacent: on one of the two ways from an entry round to an equal one there
is no other. -/
def EqualAdjacent : Prop :=
  ∀ i < list.period, ∀ d ≤ list.period, list.entry (i + d) = list.entry i →
    (∀ k ≤ d, list.entry (i + k) = list.entry i) ∨
      ∀ k ≤ list.period, d ≤ k → list.entry (i + k) = list.entry i

instance [DecidableEq α] : Decidable list.EqualAdjacent :=
  inferInstanceAs (Decidable (∀ i < list.period, ∀ d ≤ list.period, _ → _ ∨ _))

variable {list}

theorem EqualAdjacent.from (hadjacent : list.EqualAdjacent) (i : ℕ) {d : ℕ}
    (hd : d ≤ list.period) (hequal : list.entry (i + d) = list.entry i) :
    (∀ k ≤ d, list.entry (i + k) = list.entry i) ∨
      ∀ k ≤ list.period, d ≤ k → list.entry (i + k) = list.entry i := by
  have hway := hadjacent (i % list.period) (Nat.mod_lt i list.period_pos) d hd
  simp only [entry_mod_add, entry_mod] at hway
  exact hway hequal

end CyclicList

/-! ## Searches -/

section Search

variable {α : Type*} [DecidableEq α]

/-- The first entry seems to have come again.  The next entry may be equal to it. -/
def Back (v : ℕ → α) (k : ℕ) : Prop :=
  v k = v 0 ∧ 1 < k

instance (v : ℕ → α) (k : ℕ) : Decidable (Back v k) :=
  inferInstanceAs (Decidable (_ ∧ _))

/-- A search behind position {lit}`i`, until the first entry has come again; at most {lit}`left`
entries are looked at. -/
def search (v : ℕ → α) (target : α) : ℕ → ℕ → Bool × ℕ
  | 0, i => (false, i)
  | left + 1, i =>
      if v (i + 1) = target then (true, i + 1)
      else if Back v (i + 1) then (false, i + 1)
      else search v target left (i + 1)

variable {v : ℕ → α} {target : α}

theorem search_eq_target {left i : ℕ} (hfound : (search v target left i).1 = true) :
    v (search v target left i).2 = target := by
  induction left generalizing i with
  | zero => cases hfound
  | succ left ih =>
      unfold search at hfound ⊢
      split_ifs at hfound ⊢ with htarget hback
      · exact htarget
      · exact ih hfound

/-- A search succeeds if the entry comes within its bound, and before the first one has come
again. -/
theorem search_found_iff {left i : ℕ} :
    (search v target left i).1 = true ↔
      ∃ k, i < k ∧ k ≤ i + left ∧ v k = target ∧ ∀ j, i < j → j < k → ¬ Back v j := by
  induction left generalizing i with
  | zero =>
      constructor
      · exact nofun
      · rintro ⟨k, hlt, hle, -⟩
        omega
  | succ left ih =>
      unfold search
      split_ifs with htarget hback
      · exact iff_of_true rfl ⟨i + 1, by omega, by omega, htarget, by omega⟩
      · refine iff_of_false nofun ?_
        rintro ⟨k, hlt, -, hk, hnone⟩
        have hlater : i + 1 < k := Nat.lt_of_le_of_ne hlt fun heq => htarget (heq ▸ hk)
        exact hnone (i + 1) (by omega) hlater hback
      · rw [ih]
        constructor
        · rintro ⟨k, hlt, hle, hk, hnone⟩
          refine ⟨k, by omega, by omega, hk, fun j hj hjk => ?_⟩
          rcases Nat.eq_or_lt_of_le hj with rfl | hj
          · exact hback
          · exact hnone j hj hjk
        · rintro ⟨k, hlt, hle, hk, hnone⟩
          have hlater : i + 1 < k := Nat.lt_of_le_of_ne hlt fun heq => htarget (heq ▸ hk)
          exact ⟨k, hlater, by omega, hk, fun j hj => hnone j (by omega)⟩

/-- A search that fails stops where the first entry has come again, or at its bound. -/
theorem search_lost {left i : ℕ} (hlost : (search v target left i).1 = false) :
    (Back v (search v target left i).2 ∧ (search v target left i).2 ≤ i + left) ∨
      (search v target left i).2 = i + left ∧ ∀ k, i < k → k ≤ i + left → ¬ Back v k := by
  induction left generalizing i with
  | zero => exact Or.inr ⟨rfl, fun k hlt hle => by omega⟩
  | succ left ih =>
      unfold search at hlost ⊢
      split_ifs at hlost ⊢ with htarget hback
      · exact Or.inl ⟨hback, by dsimp only; omega⟩
      · rcases ih hlost with ⟨hstopped, hle⟩ | ⟨hend, hnone⟩
        · exact Or.inl ⟨hstopped, by omega⟩
        · refine Or.inr ⟨by omega, fun k hlt hle => ?_⟩
          rcases Nat.eq_or_lt_of_le hlt with rfl | hlt
          · exact hback
          · exact hnone k hlt (by omega)

/-- A search that fails ends at an entry like the first one, if there is one within its bound. -/
theorem search_restored_iff {bound : ℕ} (hbound : 1 < bound)
    (hlost : (search v target bound 0).1 = false) :
    v (search v target bound 0).2 = v 0 ↔ ∃ k ≤ bound, Back v k := by
  rcases search_lost hlost with ⟨hback, hle⟩ | ⟨hend, hnone⟩
  · exact iff_of_true hback.1 ⟨_, by omega, hback⟩
  · rw [hend, Nat.zero_add]
    constructor
    · exact fun hrestored => ⟨bound, Nat.le_refl bound, hrestored, hbound⟩
    · rintro ⟨k, hle, hback⟩
      exact absurd hback (hnone k (Nat.lt_of_succ_lt hback.2) (by omega))

end Search

/-! ## Searches along a cyclic list -/

namespace CyclicList

variable {α : Type*} {list : CyclicList α}

/-- The entries from a position on. -/
def onward (list : CyclicList α) (start : ℕ) (k : ℕ) : α :=
  list.entry (start + k)

/-- The first entry has come again within one period. -/
theorem exists_back (start : ℕ) {bound : ℕ} (hperiod : list.period ≤ bound) (hbound : 1 < bound) :
    ∃ k ≤ bound, Back (list.onward start) k := by
  rcases Nat.lt_or_ge 1 list.period with hmany | hone
  · exact ⟨list.period, hperiod, list.entry_add_period start, hmany⟩
  · have hsingle : list.period = 1 := Nat.le_antisymm hone list.period_pos
    refine ⟨2, hbound, list.entry_congr ?_, by decide⟩
    rw [hsingle, Nat.mod_one, Nat.mod_one]

/-- When the first entry has come again, every other entry has come, unless the list begins with
three equal entries. -/
theorem EqualAdjacent.passed (hadjacent : list.EqualAdjacent) {start j : ℕ}
    (hback : Back (list.onward start) j)
    (htriple : ¬ (list.onward start 1 = list.onward start 0 ∧
      list.onward start 2 = list.onward start 0))
    {x : α} (hmem : x ∈ list.entries) (hother : x ≠ list.onward start 0) :
    ∃ k, 0 < k ∧ k < j ∧ list.onward start k = x := by
  obtain ⟨k, hk, rfl⟩ := (list.mem_entries_iff start).mp hmem
  have hpos : 0 < k := Nat.pos_of_ne_zero fun hzero => hother (by rw [hzero]; rfl)
  rcases Nat.lt_or_ge k j with hlt | hge
  · exact ⟨k, hpos, hlt, rfl⟩
  · exfalso
    rcases hadjacent.from start (show j ≤ list.period by omega) hback.1 with hall | hall
    · have hlate := hback.2
      exact htriple ⟨hall 1 (by omega), hall 2 (by omega)⟩
    · exact hother (hall k (by omega) hge)

/-- If equal entries are adjacent, another entry is found exactly if it comes within the bound
and the list does not begin with three equal entries. -/
theorem EqualAdjacent.search_iff [DecidableEq α] (hadjacent : list.EqualAdjacent) (start : ℕ)
    {bound : ℕ} {x : α} (hother : x ≠ list.onward start 0) :
    (search (list.onward start) x bound 0).1 = true ↔
      (∃ k ≤ bound, list.onward start k = x) ∧
        ¬ (list.onward start 1 = list.onward start 0 ∧
          list.onward start 2 = list.onward start 0) := by
  rw [search_found_iff]
  constructor
  · rintro ⟨k, hpos, hle, rfl, hnone⟩
    refine ⟨⟨k, by omega, rfl⟩, fun htriple => ?_⟩
    have hlate : 2 < k := by
      rcases Nat.lt_or_ge 2 k with hlt | hle
      · exact hlt
      · obtain rfl | rfl : k = 1 ∨ k = 2 := by omega
        · exact absurd htriple.1 hother
        · exact absurd htriple.2 hother
    exact hnone 2 (by decide) hlate ⟨htriple.2, by decide⟩
  · rintro ⟨hreached, htriple⟩
    obtain ⟨hle, hk⟩ := Nat.find_spec hreached
    have hpos : 0 < Nat.find hreached := by
      refine Nat.pos_of_ne_zero fun hzero => hother ?_
      rw [hzero] at hk
      exact hk.symm
    refine ⟨Nat.find hreached, hpos, by omega, hk, fun j _ hlt hback => ?_⟩
    -- it would have come before
    obtain ⟨k, -, hearlier, hx⟩ := hadjacent.passed hback htriple (hk ▸ list.entry_mem _) hother
    exact Nat.find_min hreached (Nat.lt_trans hearlier hlt) ⟨by omega, hx⟩

end CyclicList

end CyclicWalk
