import Mathlib.Logic.Relation
import Mathlib.Tactic.SplitIfs

/-!
# Runs of a labelled step function

A concurrent program is given by a partial step function: a label says which
party moves and how its next statement comes out, and the step is undefined when
that move is not possible in the state.  A run is any sequence of labels, so it
covers every interleaving.

Main results:

- Theorem {lit}`Reaches.invariant`: the invariant rule for runs whose steps all
  meet a condition.
- Theorem {lit}`Reaches.weaken`: a stronger condition on the steps has fewer runs.
- Theorem {lit}`reaches_of_execute`: a concrete list of labels yields a run.
- Definition {lit}`Along`: a property of all states that a list of labels passes.
-/

namespace Apcupsd

variable {S L : Type*} {step : S → L → Option S} {good good' : S → L → Prop}

/-- {lit}`t` is reached from {lit}`s` by steps that all meet {lit}`good` in the state
they start from. -/
def Reaches (step : S → L → Option S) (good : S → L → Prop) : S → S → Prop :=
  Relation.ReflTransGen fun s t => ∃ l, good s l ∧ step s l = some t

namespace Reaches

variable {s t u : S}

theorem refl : Reaches step good s s :=
  Relation.ReflTransGen.refl

/-- The invariant rule: what every admissible step preserves holds at the end of
the run. -/
theorem invariant {P : S → Prop}
    (hstep : ∀ {s l t}, good s l → step s l = some t → P s → P t)
    (hrun : Reaches step good s t) (hinit : P s) : P t := by
  induction hrun with
  | refl => exact hinit
  | tail _ hlast ih =>
      rcases hlast with ⟨l, hgood, hl⟩
      exact hstep hgood hl ih

theorem weaken (himp : ∀ s l, good s l → good' s l) (hrun : Reaches step good s t) :
    Reaches step good' s t := by
  induction hrun with
  | refl => exact refl
  | tail _ hlast ih =>
      rcases hlast with ⟨l, hgood, hl⟩
      exact Relation.ReflTransGen.tail ih ⟨l, himp _ l hgood, hl⟩

end Reaches

/-- Runs a list of labels, stopping at a step that is not enabled or does not meet
the condition. -/
def execute (step : S → L → Option S) (good : S → L → Prop)
    [∀ s l, Decidable (good s l)] : S → List L → Option S
  | s, [] => some s
  | s, l :: labels =>
      if good s l then (step s l).bind fun t => execute step good t labels else none

theorem reaches_of_execute [∀ s l, Decidable (good s l)] {s t : S} {labels : List L}
    (hexec : execute step good s labels = some t) : Reaches step good s t := by
  induction labels generalizing s with
  | nil =>
      simp only [execute, Option.some.injEq] at hexec
      exact hexec ▸ Reaches.refl
  | cons l labels ih =>
      simp only [execute] at hexec
      split_ifs at hexec with hgood
      obtain ⟨u, hl, hrest⟩ := Option.bind_eq_some_iff.mp hexec
      exact Relation.ReflTransGen.head ⟨l, hgood, hl⟩ (ih hrest)

/-- Every state that the labels pass has the property. -/
def Along (step : S → L → Option S) (P : S → Prop) : S → List L → Prop
  | s, [] => P s
  | s, l :: labels => P s ∧ ∀ t, step s l = some t → Along step P t labels

theorem Along.head {P : S → Prop} {s : S} {labels : List L} (halong : Along step P s labels) :
    P s := by
  cases labels with
  | nil => exact halong
  | cons l labels => exact halong.1

/-- One step of a property of all states. -/
theorem along_cons_iff {P : S → Prop} {s t : S} {l : L} {labels : List L}
    (hl : step s l = some t) :
    Along step P s (l :: labels) ↔ P s ∧ Along step P t labels := by
  constructor
  · rintro ⟨hs, hrest⟩
    exact ⟨hs, hrest t hl⟩
  · rintro ⟨hs, hrest⟩
    refine ⟨hs, fun u hu => ?_⟩
    rw [hl] at hu
    exact Option.some.inj hu ▸ hrest

end Apcupsd
