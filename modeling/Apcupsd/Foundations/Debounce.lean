import Mathlib.Data.Finset.Card
import Mathlib.Data.Finset.Range
import Apcupsd.Foundations.PairedEvents

/-!
# Debounced announcements

A watcher that makes attempts from time to time announces a loss when it has failed so many
times with no success in between, and the end of the loss at the first success.

Main results:

- Definition {lit}`failuresSince`: the failures that no success has followed.
- Theorem {lit}`failuresSince_succ`: what one more attempt does to their number.
- Theorem {lit}`announcements_paired`: the announcements come in pairs, a loss first.
- Theorem {lit}`hastyAnnouncements_paired_iff`: if the end of a loss is announced at every
  success, they do only when enough failures come before each success.
-/

namespace Apcupsd

variable {outcome : ℕ → Option Bool} {threshold n : ℕ}

/-- The failures before a moment that no success has followed; there need not be an attempt
at every moment. -/
def failuresSince (outcome : ℕ → Option Bool) (n : ℕ) : ℕ :=
  ((Finset.range n).filter fun i =>
    outcome i = some false ∧ ∀ j < n, i < j → outcome j ≠ some true).card

/-- What is announced at a moment. -/
def announcement (threshold : ℕ) (outcome : ℕ → Option Bool) (n : ℕ) : List (Boundary Unit) :=
  match outcome n with
  | some false => if failuresSince outcome n + 1 = threshold then [.opens ()] else []
  | some true => if threshold ≤ failuresSince outcome n then [.closes ()] else []
  | none => []

/-- What has been announced before a moment. -/
def announcements (threshold : ℕ) (outcome : ℕ → Option Bool) (n : ℕ) : List (Boundary Unit) :=
  (List.range n).flatMap (announcement threshold outcome)

@[simp]
theorem failuresSince_zero : failuresSince outcome 0 = 0 :=
  rfl

theorem failuresSince_of_success (hsuccess : outcome n = some true) :
    failuresSince outcome (n + 1) = 0 := by
  unfold failuresSince
  rw [Finset.card_eq_zero, Finset.filter_eq_empty_iff]
  rintro i hi ⟨hfailed, hnone⟩
  rcases Nat.lt_or_eq_of_le (Nat.le_of_lt_succ (Finset.mem_range.mp hi)) with hlt | rfl
  · exact hnone n (Nat.lt_succ_self n) hlt hsuccess
  · rw [hsuccess] at hfailed
    cases hfailed

/-- What is not a success does not undo a failure. -/
theorem failuresSince_of_not_success (hother : outcome n ≠ some true) :
    failuresSince outcome (n + 1) =
      failuresSince outcome n + if outcome n = some false then 1 else 0 := by
  have hkept : ∀ i, (∀ j < n + 1, i < j → outcome j ≠ some true) ↔
      ∀ j < n, i < j → outcome j ≠ some true := by
    intro i
    constructor
    · exact fun hall j hj => hall j (by omega)
    · intro hall j hj hlt
      rcases Nat.lt_or_eq_of_le (Nat.le_of_lt_succ hj) with hbefore | rfl
      · exact hall j hbefore hlt
      · exact hother
  unfold failuresSince
  simp only [hkept, Finset.range_add_one, Finset.filter_insert]
  by_cases hfailed : outcome n = some false
  · have hlast : ∀ j < n, n < j → outcome j ≠ some true := fun j hj hlt => by omega
    rw [if_pos ⟨hfailed, hlast⟩, if_pos hfailed, Finset.card_insert_of_notMem (by simp)]
  · rw [if_neg fun hboth => hfailed hboth.1, if_neg hfailed, Nat.add_zero]

/-- What one more moment does to the number of failures. -/
theorem failuresSince_succ :
    failuresSince outcome (n + 1) =
      match outcome n with
      | some false => failuresSince outcome n + 1
      | some true => 0
      | none => failuresSince outcome n := by
  cases houtcome : outcome n with
  | none => simp [failuresSince_of_not_success, houtcome]
  | some ok =>
      cases ok with
      | false => simp [failuresSince_of_not_success, houtcome]
      | true => exact failuresSince_of_success houtcome

/-- A loss is open as long as there have been enough failures. -/
theorem announcements_leavesOpen (hpos : 0 < threshold) (n : ℕ) :
    LeavesOpen (announcements threshold outcome n)
      (if threshold ≤ failuresSince outcome n then some () else none) := by
  induction n with
  | zero =>
      rw [failuresSince_zero, if_neg (by omega)]
      exact LeavesOpen.nil
  | succ n ih =>
      have hlog : announcements threshold outcome (n + 1) =
          announcements threshold outcome n ++ announcement threshold outcome n := by
        simp [announcements, List.range_succ]
      rw [hlog, failuresSince_succ]
      unfold announcement
      generalize failuresSince outcome n = failures at ih ⊢
      cases outcome n with
      | none => simpa using ih
      | some ok =>
          cases ok with
          | false =>
              dsimp only
              by_cases hlost : threshold ≤ failures
              · have hlong : failures + 1 ≠ threshold := by omega
                have hstill : threshold ≤ failures + 1 := by omega
                rw [if_pos hlost] at ih
                rw [if_neg hlong, if_pos hstill, List.append_nil]
                exact ih
              · rw [if_neg hlost] at ih
                by_cases hreached : failures + 1 = threshold
                · rw [if_pos hreached, if_pos hreached.ge]
                  exact ih.opens
                · have hyet : ¬ threshold ≤ failures + 1 := by omega
                  rw [if_neg hreached, if_neg hyet, List.append_nil]
                  exact ih
          | true =>
              dsimp only
              rw [if_neg (show ¬ threshold ≤ 0 by omega)]
              by_cases hlost : threshold ≤ failures
              · rw [if_pos hlost] at ih ⊢
                exact ih.closes
              · rw [if_neg hlost] at ih ⊢
                rwa [List.append_nil]

/-- The announcements come in pairs. -/
theorem announcements_paired (hpos : 0 < threshold) (n : ℕ) :
    Paired (announcements threshold outcome n) :=
  (announcements_leavesOpen hpos n).paired

/-! ## Every success announced -/

/-- What a watcher announces that gives notice of a loss at its next attempt after enough
failures, and of the end of a loss at every success. -/
def hastyAnnouncement (threshold : ℕ) (outcome : ℕ → Option Bool) (n : ℕ) :
    List (Boundary Unit) :=
  match outcome n with
  | some ok =>
      (if failuresSince outcome n = threshold then [.opens ()] else []) ++
        if ok then [.closes ()] else []
  | none => []

def hastyAnnouncements (threshold : ℕ) (outcome : ℕ → Option Bool) (n : ℕ) :
    List (Boundary Unit) :=
  (List.range n).flatMap (hastyAnnouncement threshold outcome)

theorem hastyAnnouncements_succ :
    hastyAnnouncements threshold outcome (n + 1) =
      hastyAnnouncements threshold outcome n ++ hastyAnnouncement threshold outcome n := by
  simp [hastyAnnouncements, List.range_succ]

/-- With enough failures before each success, a loss is open once there have been more than
enough. -/
theorem hastyAnnouncements_leavesOpen
    (hlate : ∀ m < n, outcome m = some true → threshold ≤ failuresSince outcome m) :
    LeavesOpen (hastyAnnouncements threshold outcome n)
      (if threshold < failuresSince outcome n then some () else none) := by
  induction n with
  | zero =>
      rw [failuresSince_zero, if_neg (Nat.not_lt_zero _)]
      exact LeavesOpen.nil
  | succ n ih =>
      have hbefore := ih fun m hm => hlate m (hm.trans (Nat.lt_succ_self n))
      have hnow := hlate n (Nat.lt_succ_self n)
      rw [hastyAnnouncements_succ, failuresSince_succ]
      unfold hastyAnnouncement
      generalize failuresSince outcome n = failures at hbefore hnow ⊢
      cases houtcome : outcome n with
      | none => simpa using hbefore
      | some ok =>
          have hwarned : LeavesOpen (hastyAnnouncements threshold outcome n ++
              if failures = threshold then [.opens ()] else [])
                (if threshold ≤ failures then some () else none) := by
            by_cases hdue : failures = threshold
            · rw [if_neg (by omega)] at hbefore
              rw [if_pos hdue, if_pos hdue.ge]
              exact hbefore.opens
            · have hsame : threshold ≤ failures ↔ threshold < failures := by omega
              rw [if_neg hdue, List.append_nil]
              simpa only [hsame] using hbefore
          cases ok with
          | false =>
              have hsame : threshold < failures + 1 ↔ threshold ≤ failures := by omega
              simpa [hsame] using hwarned
          | true =>
              rw [if_pos (hnow houtcome)] at hwarned
              simpa using hwarned.closes

/-- The announcements come in pairs if and only if enough failures come before each
success. -/
theorem hastyAnnouncements_paired_iff :
    (∀ n, Paired (hastyAnnouncements threshold outcome n)) ↔
      ∀ n, outcome n = some true → threshold ≤ failuresSince outcome n := by
  constructor
  · intro hpaired n
    induction n using Nat.strong_induction_on with
    | _ n ih =>
        intro hsuccess
        by_contra hearly
        have hopen := hastyAnnouncements_leavesOpen fun m hm => ih m hm
        rw [if_neg (by omega)] at hopen
        rcases hopen with ⟨kinds, hevents⟩
        have hnext := (hpaired (n + 1)).finalOpen_isSome
        have hfew : failuresSince outcome n ≠ threshold := by omega
        have hlast : hastyAnnouncements threshold outcome (n + 1) =
            intervals kinds ++ [.closes ()] := by
          rw [hastyAnnouncements_succ, hevents, hastyAnnouncement, hsuccess]
          simp [hfew]
        rw [hlast, finalOpen_intervals] at hnext
        cases hnext
  · exact fun hlate n => (hastyAnnouncements_leavesOpen fun m _ => hlate m).paired

end Apcupsd
