import Mathlib.Data.List.Basic

/-!
# Events that come in pairs

An interval of some kind begins with one event and ends with another, and the next
interval begins after it.  A log of such events is judged by what it leaves open.

Main results:

- Theorem {lit}`LeavesOpen.opens` and {lit}`LeavesOpen.closes`: an event that fits what is
  open keeps a log paired.
- Theorem {lit}`paired_iff`: a log is paired if and only if it leaves something definite
  open.
-/

namespace Apcupsd

variable {κ : Type*}

/-- The begin and the end of an interval of some kind. -/
inductive Boundary (κ : Type*) where
  | opens (kind : κ)
  | closes (kind : κ)
deriving DecidableEq, Repr

/-- The events of completed intervals. -/
def intervals (kinds : List κ) : List (Boundary κ) :=
  kinds.flatMap fun kind => [.opens kind, .closes kind]

/-- Every interval ends before the next one begins, by an event of its own kind. -/
def Paired (events : List (Boundary κ)) : Prop :=
  ∃ kinds, events <+: intervals kinds

/-- The log consists of completed intervals and of the begin of an open one, if any. -/
def LeavesOpen (events : List (Boundary κ)) (current : Option κ) : Prop :=
  ∃ kinds, events = intervals kinds ++ (current.map .opens).toList

/-- What one more event leaves open, unless it does not fit. -/
def nextOpen [DecidableEq κ] (current : Option κ) (event : Boundary κ) : Option (Option κ) :=
  match current, event with
  | none, .opens kind => some (some kind)
  | some kind, .closes other => if kind = other then some none else none
  | _, _ => none

/-- What a log leaves open, unless one of its events does not fit. -/
def finalOpen [DecidableEq κ] (events : List (Boundary κ)) : Option (Option κ) :=
  events.foldlM nextOpen none

@[simp]
theorem intervals_nil : intervals ([] : List κ) = [] :=
  rfl

@[simp]
theorem intervals_cons (kind : κ) (kinds : List κ) :
    intervals (kind :: kinds) = .opens kind :: .closes kind :: intervals kinds :=
  rfl

@[simp]
theorem intervals_concat (kinds : List κ) (kind : κ) :
    intervals (kinds ++ [kind]) = intervals kinds ++ [.opens kind, .closes kind] := by
  simp [intervals]

namespace LeavesOpen

variable {events : List (Boundary κ)} {kind : κ}

theorem nil : LeavesOpen ([] : List (Boundary κ)) none :=
  ⟨[], rfl⟩

theorem opens (hleaves : LeavesOpen events none) :
    LeavesOpen (events ++ [.opens kind]) (some kind) := by
  rcases hleaves with ⟨kinds, hevents⟩
  exact ⟨kinds, by simp [hevents]⟩

theorem closes (hleaves : LeavesOpen events (some kind)) :
    LeavesOpen (events ++ [.closes kind]) none := by
  rcases hleaves with ⟨kinds, hevents⟩
  exact ⟨kinds ++ [kind], by simp [hevents]⟩

/-- A log that leaves something definite open is paired. -/
theorem paired {current : Option κ} (hleaves : LeavesOpen events current) : Paired events := by
  rcases hleaves with ⟨kinds, hevents⟩
  cases current with
  | none => exact ⟨kinds, [], by simp [hevents]⟩
  | some kind => exact ⟨kinds ++ [kind], [.closes kind], by simp [hevents]⟩

end LeavesOpen

/-- A log is paired if and only if it leaves something definite open. -/
theorem paired_iff {events : List (Boundary κ)} :
    Paired events ↔ ∃ current, LeavesOpen events current := by
  constructor
  · rintro ⟨kinds, hstarts⟩
    induction kinds generalizing events with
    | nil => exact ⟨none, [], by simpa using hstarts⟩
    | cons kind kinds ih =>
        rw [intervals_cons] at hstarts
        cases events with
        | nil => exact ⟨none, LeavesOpen.nil⟩
        | cons first rest =>
            obtain ⟨rfl, hrest⟩ := List.cons_prefix_cons.mp hstarts
            cases rest with
            | nil => exact ⟨some kind, [], rfl⟩
            | cons second rest =>
                obtain ⟨rfl, hlater⟩ := List.cons_prefix_cons.mp hrest
                rcases ih hlater with ⟨current, others, hevents⟩
                exact ⟨current, kind :: others, by simp [hevents]⟩
  · rintro ⟨current, hleaves⟩
    exact hleaves.paired

section Decide

variable [DecidableEq κ]

theorem finalOpen_intervals (kinds : List κ) (rest : List (Boundary κ)) :
    finalOpen (intervals kinds ++ rest) = finalOpen rest := by
  induction kinds with
  | nil => rfl
  | cons kind kinds ih =>
      rw [← ih]
      simp [finalOpen, nextOpen]

/-- A paired log is one whose events all fit. -/
theorem Paired.finalOpen_isSome {events : List (Boundary κ)} (hpaired : Paired events) :
    (finalOpen events).isSome = true := by
  rcases paired_iff.mp hpaired with ⟨current, kinds, rfl⟩
  rw [finalOpen_intervals]
  cases current <;> rfl

end Decide

end Apcupsd
