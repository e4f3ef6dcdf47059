import Mathlib.Data.List.Chain
import Mathlib.Tactic.Cases

/-!
# Files that are written again from their start

A file that stays open, with the position at which the next text is written.  Going back to the
start does not shorten it.

Main results:

- Theorem {lit}`contents_rewrite`: a text takes the place of as much of the front.
- Theorem {lit}`contents_rewrite_iff`: it is all that the file holds exactly if the file was not
  longer.
- Theorem {lit}`latest_iff`: after each of several texts the file holds just this one exactly if
  none of them is shorter than the one before.
-/

namespace RewrittenFile

/-- An open file: what stands in front of the position, and what stands behind it. -/
structure OpenFile (α : Type*) where
  front : List α
  back : List α
deriving DecidableEq, Repr

namespace OpenFile

variable {α : Type*}

/-- A file that has just been truncated. -/
def empty : OpenFile α :=
  ⟨[], []⟩

def contents (file : OpenFile α) : List α :=
  file.front ++ file.back

def rewind (file : OpenFile α) : OpenFile α :=
  ⟨[], file.contents⟩

/-- A text is written over what stands behind the position. -/
def write (file : OpenFile α) (text : List α) : OpenFile α :=
  ⟨file.front ++ text, file.back.drop text.length⟩

@[simp]
theorem contents_empty : (empty : OpenFile α).contents = [] :=
  rfl

@[simp]
theorem contents_rewind (file : OpenFile α) : file.rewind.contents = file.contents :=
  rfl

/-- Two texts are written like one. -/
theorem write_write (file : OpenFile α) (text more : List α) :
    (file.write text).write more = file.write (text ++ more) := by
  simp only [write, List.append_assoc, List.drop_drop, List.length_append]

theorem contents_rewrite (file : OpenFile α) (text : List α) :
    (file.rewind.write text).contents = text ++ file.contents.drop text.length := by
  rw [contents, write, rewind, List.nil_append]

theorem contents_rewrite_iff (file : OpenFile α) (text : List α) :
    (file.rewind.write text).contents = text ↔ file.contents.length ≤ text.length := by
  rw [contents_rewrite, List.append_right_eq_self, List.drop_eq_nil_iff]

end OpenFile

variable {α : Type*}

/-- Texts are written one after the other, each from the start, and after each of them it is all
that the file holds. -/
def Latest : OpenFile α → List (List α) → Prop
  | _, [] => True
  | file, text :: texts =>
      (file.rewind.write text).contents = text ∧ Latest (file.rewind.write text) texts

/-- The texts must not get shorter, nor may the first be shorter than the file. -/
theorem latest_iff {file : OpenFile α} {texts : List (List α)} :
    Latest file texts ↔ (file.contents.length :: texts.map List.length).IsChain (· ≤ ·) := by
  induction texts generalizing file with
  | nil => simp [Latest]
  | cons text texts ih =>
      rw [Latest, file.contents_rewrite_iff, List.map_cons, List.isChain_cons_cons]
      refine and_congr_right fun hle => ?_
      rw [ih, (file.contents_rewrite_iff text).mpr hle]

/-- An empty file is shorter than nothing. -/
theorem latest_empty_iff {texts : List (List α)} :
    Latest OpenFile.empty texts ↔ (texts.map List.length).IsChain (· ≤ ·) := by
  rw [latest_iff, List.isChain_cons]
  exact and_iff_right fun length _ => Nat.zero_le length

end RewrittenFile
