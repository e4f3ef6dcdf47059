import Mathlib.Data.List.Basic

/-!
# Traces of a thread with a recursive lock

A thread acquires and releases one recursive lock and performs actions in between.  The
depth of the lock after a trace says how often it is held.

Main results:

- Definition {lit}`depthAfter`: the depth, unless the trace releases a lock that it does
  not hold.
- Theorem {lit}`Outside.append`, {lit}`Inside.enclosed`: pieces whose actions happen
  outside the lock, and sections that hold it and do nothing.
- Theorem {lit}`Outside.actsUnlocked_append`: such pieces keep all actions outside.
-/

namespace Apcupsd

/-- What a thread does to the lock, or besides it. -/
inductive LockStep (α : Type*) where
  | acquire
  | release
  | act (a : α)
deriving DecidableEq, Repr

namespace LockStep

variable {α : Type*}

/-- How often the lock is held after a trace; releasing a lock that is not held is an
error. -/
def depthAfter : List (LockStep α) → ℕ → Option ℕ
  | [], depth => some depth
  | .acquire :: trace, depth => depthAfter trace (depth + 1)
  | .release :: trace, depth + 1 => depthAfter trace depth
  | .release :: _, 0 => none
  | .act _ :: trace, depth => depthAfter trace depth

theorem depthAfter_append (front back : List (LockStep α)) (depth : ℕ) :
    depthAfter (front ++ back) depth = (depthAfter front depth).bind (depthAfter back) := by
  induction front generalizing depth with
  | nil => rfl
  | cons step front ih =>
      cases step with
      | acquire => exact ih (depth + 1)
      | act _ => exact ih depth
      | release =>
          cases depth with
          | zero => rfl
          | succ depth => exact ih depth

/-- The actions of a trace, in order. -/
def actions (trace : List (LockStep α)) : List α :=
  trace.filterMap fun step =>
    match step with
    | .act a => some a
    | _ => none

@[simp]
theorem actions_append (front back : List (LockStep α)) :
    actions (front ++ back) = actions front ++ actions back :=
  List.filterMap_append

@[simp]
theorem actions_map_act (acts : List α) : actions (acts.map .act) = acts := by
  induction acts with
  | nil => rfl
  | cons a acts ih => exact congrArg (a :: ·) ih

theorem mem_actions {trace : List (LockStep α)} {a : α} :
    a ∈ actions trace ↔ .act a ∈ trace := by
  unfold actions
  rw [List.mem_filterMap]
  constructor
  · rintro ⟨step, hstep, hact⟩
    cases step with
    | act b =>
        cases hact
        exact hstep
    | acquire => cases hact
    | release => cases hact
  · exact fun hmem => ⟨_, hmem, rfl⟩

/-- At every action the lock is free. -/
def ActsUnlocked (trace : List (LockStep α)) : Prop :=
  ∀ front a back, trace = front ++ .act a :: back → depthAfter front 0 = some 0

/-- A trace without actions. -/
theorem ActsUnlocked.of_actions_eq_nil {trace : List (LockStep α)}
    (hnone : actions trace = []) : ActsUnlocked trace := by
  rintro front a back rfl
  have hmem : a ∈ actions (front ++ .act a :: back) := mem_actions.mpr (by simp)
  rw [hnone] at hmem
  cases hmem

/-! ## Pieces outside the lock -/

/-- A piece that starts and ends with the lock free and acts only while it is. -/
structure Outside (trace : List (LockStep α)) : Prop where
  closed : depthAfter trace 0 = some 0
  unlocked : ActsUnlocked trace

namespace Outside

variable {front back : List (LockStep α)}

theorem actsUnlocked_append (hfront : Outside front) (hback : ActsUnlocked back) :
    ActsUnlocked (front ++ back) := by
  intro before a after hsplit
  rcases List.append_eq_append_iff.mp hsplit with
    ⟨middle, hbefore, hmiddle⟩ | ⟨middle, hsame, hafter⟩
  · rw [hbefore, depthAfter_append, hfront.closed]
    exact hback middle a after hmiddle
  · cases middle with
    | nil =>
        rw [List.append_nil] at hsame
        rw [← hsame]
        exact hfront.closed
    | cons step middle =>
        cases (List.cons.inj hafter).1
        exact hfront.unlocked before a middle hsame

theorem nil : Outside ([] : List (LockStep α)) :=
  ⟨rfl, .of_actions_eq_nil rfl⟩

theorem append (hfront : Outside front) (hback : Outside back) : Outside (front ++ back) := by
  refine ⟨?_, hfront.actsUnlocked_append hback.unlocked⟩
  rw [depthAfter_append, hfront.closed]
  exact hback.closed

theorem single (a : α) : Outside [.act a] := by
  refine ⟨rfl, ?_⟩
  intro before b after hsplit
  rcases List.singleton_eq_append_iff.mp hsplit with ⟨rfl, _⟩ | ⟨_, hnil⟩
  · rfl
  · cases hnil

/-- Actions alone. -/
theorem acts (acts : List α) : Outside (acts.map .act) := by
  induction acts with
  | nil => exact nil
  | cons a acts ih => exact (single a).append ih

end Outside

/-! ## Sections that hold the lock -/

/-- A piece without actions that leaves the lock as it finds it, whoever holds it. -/
structure Inside (trace : List (LockStep α)) : Prop where
  level : ∀ depth, depthAfter trace depth = some depth
  silent : actions trace = []

namespace Inside

variable {front back trace : List (LockStep α)}

theorem nil : Inside ([] : List (LockStep α)) :=
  ⟨fun _ => rfl, rfl⟩

theorem append (hfront : Inside front) (hback : Inside back) : Inside (front ++ back) := by
  refine ⟨fun depth => ?_, ?_⟩
  · rw [depthAfter_append, hfront.level]
    exact hback.level depth
  · rw [actions_append, hfront.silent, hback.silent]
    rfl

/-- A section: the lock is held while nothing but nested sections happens. -/
theorem enclosed (hinside : Inside trace) : Inside (.acquire :: (trace ++ [.release])) := by
  refine ⟨fun depth => ?_, ?_⟩
  · change depthAfter (trace ++ [.release]) (depth + 1) = some depth
    rw [depthAfter_append, hinside.level]
    rfl
  · change actions (trace ++ [.release]) = []
    rw [actions_append, hinside.silent]
    rfl

theorem flatMap {β : Type*} {items : List β} {piece : β → List (LockStep α)}
    (hpieces : ∀ item ∈ items, Inside (piece item)) : Inside (items.flatMap piece) := by
  induction items with
  | nil => exact nil
  | cons item items ih =>
      refine append (hpieces item List.mem_cons_self) (ih fun later hlater => ?_)
      exact hpieces later (List.mem_cons_of_mem _ hlater)

theorem outside (hinside : Inside trace) : Outside trace :=
  ⟨hinside.level 0, .of_actions_eq_nil hinside.silent⟩

end Inside

end LockStep

end Apcupsd
