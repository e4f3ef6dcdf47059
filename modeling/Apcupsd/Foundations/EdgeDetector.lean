import Mathlib.Data.List.Basic

/-!
# Edge detection by sampling

A program that polls a bit finds a rising edge by comparing the bit, at one point
of its pass, with a copy it has kept from an earlier point.  Here the bit is
compared where the pass selects what to do and copied where the pass finishes,
while anybody may write the bit at any time.

Main results:

- Theorem {lit}`Detector.fired_length`: while the bit stays set, the detector fires
  once if it was outside a pass and its copy was clear, and never otherwise.
- Theorem {lit}`Detector.filter_selects`: passes whose choice follows the detector are
  counted by it.
-/

namespace Apcupsd

/-- What happens to the bit and to the program, in order. -/
inductive Tick (ι : Type*) where
  | write (bit : Bool)
  | select (pass : ι)
  | finish
deriving DecidableEq

/-- The bit, the kept copy, and whether a pass is between its two points. -/
structure Detector where
  bit : Bool
  copy : Bool
  inside : Bool
deriving DecidableEq

namespace Detector

variable {ι : Type*}

/-- One tick. -/
def step (detector : Detector) : Tick ι → Detector
  | .write bit => { detector with bit := bit }
  | .select _ => { detector with inside := true }
  | .finish => { detector with copy := detector.bit, inside := false }

/-- The detector after a sequence of ticks. -/
def after (detector : Detector) (ticks : List (Tick ι)) : Detector :=
  ticks.foldl step detector

/-- A pass that selects now finds a rising edge. -/
def fires (detector : Detector) : Bool :=
  detector.bit && !detector.copy

/-- The passes that find a rising edge. -/
def fired (detector : Detector) : List (Tick ι) → List ι
  | [] => []
  | .select pass :: ticks =>
      (if detector.fires then [pass] else []) ++
        fired (detector.step (.select pass : Tick ι)) ticks
  | tick :: ticks => fired (detector.step tick) ticks

/-- Passes do not overlap: each selects once and then finishes. -/
def Alternates (detector : Detector) : List (Tick ι) → Prop
  | [] => True
  | .write bit :: ticks => Alternates (detector.step (.write bit : Tick ι)) ticks
  | .select pass :: ticks =>
      detector.inside = false ∧ Alternates (detector.step (.select pass : Tick ι)) ticks
  | .finish :: ticks =>
      detector.inside = true ∧ Alternates (detector.step (.finish : Tick ι)) ticks

/-- Every pass chooses by the detector, as far as {lit}`chooses` says. -/
def Follows (chooses : ι → Detector → Prop) (detector : Detector) :
    List (Tick ι) → Prop
  | [] => True
  | .select pass :: ticks =>
      chooses pass detector ∧ Follows chooses (detector.step (.select pass : Tick ι)) ticks
  | tick :: ticks => Follows chooses (detector.step tick) ticks

/-- The passes that select in a sequence of ticks. -/
def selects (ticks : List (Tick ι)) : List ι :=
  ticks.filterMap fun tick =>
    match tick with
    | .select pass => some pass
    | _ => none

/-- Some pass selects and finishes within the ticks. -/
def WholePass (ticks : List (Tick ι)) : Prop :=
  ∃ before pass rest, ticks = before ++ Tick.select pass :: rest ∧ Tick.finish ∈ rest

/-! ## Composition -/

theorem after_append (detector : Detector) (left right : List (Tick ι)) :
    detector.after (left ++ right) = (detector.after left).after right :=
  List.foldl_append

theorem alternates_append (detector : Detector) (left right : List (Tick ι)) :
    detector.Alternates (left ++ right) ↔
      detector.Alternates left ∧ (detector.after left).Alternates right := by
  induction left generalizing detector with
  | nil => simp [Alternates, after]
  | cons tick left ih =>
      cases tick with
      | write bit => exact ih _
      | select pass => exact (and_congr_right fun _ => ih _).trans and_assoc.symm
      | finish => exact (and_congr_right fun _ => ih _).trans and_assoc.symm

theorem follows_append {chooses : ι → Detector → Prop} (detector : Detector)
    (left right : List (Tick ι)) :
    detector.Follows chooses (left ++ right) ↔
      detector.Follows chooses left ∧ (detector.after left).Follows chooses right := by
  induction left generalizing detector with
  | nil => simp [Follows, after]
  | cons tick left ih =>
      cases tick with
      | write bit => exact ih _
      | select pass => exact (and_congr_right fun _ => ih _).trans and_assoc.symm
      | finish => exact ih _

theorem Follows.mono {chooses chooses' : ι → Detector → Prop} {detector : Detector}
    {ticks : List (Tick ι)}
    (hmono : ∀ pass ∈ selects ticks, ∀ detector, chooses pass detector →
      chooses' pass detector)
    (hfollows : detector.Follows chooses ticks) : detector.Follows chooses' ticks := by
  induction ticks generalizing detector with
  | nil => trivial
  | cons tick ticks ih =>
      cases tick with
      | write bit => exact ih hmono hfollows
      | select pass =>
          exact ⟨hmono pass List.mem_cons_self _ hfollows.1,
            ih (fun other hmem => hmono other (List.mem_cons_of_mem _ hmem)) hfollows.2⟩
      | finish => exact ih hmono hfollows

theorem after_writes (detector : Detector) (bits : List Bool) :
    detector.after (bits.map (Tick.write : Bool → Tick ι)) =
      { detector with bit := bits.getLastD detector.bit } := by
  induction bits generalizing detector with
  | nil => rfl
  | cons bit bits ih =>
      refine (ih { detector with bit := bit }).trans ?_
      rw [List.getLastD_cons]

theorem alternates_writes (detector : Detector) (bits : List Bool) :
    detector.Alternates (bits.map (Tick.write : Bool → Tick ι)) := by
  induction bits generalizing detector with
  | nil => trivial
  | cons bit bits ih => exact ih _

theorem follows_writes {chooses : ι → Detector → Prop} (detector : Detector)
    (bits : List Bool) :
    detector.Follows chooses (bits.map (Tick.write : Bool → Tick ι)) := by
  induction bits generalizing detector with
  | nil => trivial
  | cons bit bits ih => exact ih _

/-! ## Firing while the bit stays set -/

/-- While the bit stays set, the detector fires once if it was outside a pass with
its copy clear and some pass selects, and never otherwise. -/
theorem fired_length {detector : Detector} {ticks : List (Tick ι)}
    (hbit : detector.bit = true) (hstay : Tick.write false ∉ ticks)
    (halternates : detector.Alternates ticks) :
    (detector.fired ticks).length =
      if detector.inside = false ∧ detector.copy = false ∧ selects ticks ≠ [] then 1
      else 0 := by
  induction ticks generalizing detector with
  | nil => simp [fired, selects]
  | cons tick ticks ih =>
      have hstay' : Tick.write false ∉ ticks := fun hmem =>
        hstay (List.mem_cons_of_mem _ hmem)
      cases tick with
      | write bit =>
          have hset : bit = true := by
            cases bit with
            | true => rfl
            | false => exact absurd List.mem_cons_self hstay
          subst hset
          refine (ih (by rfl) hstay' halternates).trans ?_
          rfl
      | select pass =>
          rcases halternates with ⟨hinside, hrest⟩
          have hlater := @ih (detector.step (.select pass : Tick ι)) hbit hstay' hrest
          rw [if_neg (by simp [step])] at hlater
          change ((if detector.fires then [pass] else []) ++ _).length = _
          rw [List.length_append, hlater]
          cases hcopy : detector.copy with
          | true => simp [fires, hcopy]
          | false => simp [fires, hbit, hcopy, hinside, selects]
      | finish =>
          rcases halternates with ⟨hinside, hrest⟩
          have hlater := @ih (detector.step (.finish : Tick ι)) hbit hstay' hrest
          rw [if_neg (by simp [step, hbit])] at hlater
          rw [if_neg (by simp [hinside])]
          exact hlater

/-- Passes whose choice follows the detector are counted by it. -/
theorem filter_selects {chosen : ι → Bool} {detector : Detector} {ticks : List (Tick ι)}
    (hfollows : detector.Follows (fun pass detector => chosen pass = detector.fires) ticks) :
    (selects ticks).filter chosen = detector.fired ticks := by
  induction ticks generalizing detector with
  | nil => rfl
  | cons tick ticks ih =>
      cases tick with
      | write bit => exact ih hfollows
      | select pass =>
          rcases hfollows with ⟨hchosen, hrest⟩
          have hlater := ih hrest
          change (pass :: selects ticks).filter chosen = (if detector.fires then [pass] else []) ++ _
          rw [← hlater, List.filter_cons, hchosen]
          split <;> rfl
      | finish => exact ih hfollows

theorem selects_ne_nil_of_wholePass {ticks : List (Tick ι)} (hwhole : WholePass ticks) :
    selects ticks ≠ [] := by
  rcases hwhole with ⟨before, pass, rest, rfl, _⟩
  simp [selects]

end Detector
end Apcupsd
