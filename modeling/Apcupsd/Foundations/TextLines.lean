import Apcupsd.Foundations.CStrings

/-!
# The lines of a text

A text is a list over some alphabet, and its lines are what a separator ends.  What has to
hold of every line of a text that was written piece by piece is checked once for a piece.

Main results:

- Theorem {lit}`EveryLine.append`: a piece that keeps its separators for its end adds the
  line that it begins, and no other.
- Theorem {lit}`EveryLine.of_isPrefix`: the lines of an initial part are lines of the text.
-/

namespace Apcupsd
namespace TextLines

variable {α : Type*} {sep : α}

/-- A line of a text, with what stands before it and what stands after its separator. -/
structure LineAt (sep : α) (text front line rest : List α) : Prop where
  eq : text = front ++ line ++ sep :: rest
  starts : front = [] ∨ ∃ earlier, front = earlier ++ [sep]
  oneLine : sep ∉ line

/-- Every line of the text has the property. -/
def EveryLine (sep : α) (P : List α → Prop) (text : List α) : Prop :=
  ∀ front line rest, LineAt sep text front line rest → P line

/-- A piece of writing: its separators are at its end. -/
def OnePiece (sep : α) (piece : List α) : Prop :=
  ∀ front rest, piece = front ++ sep :: rest → rest = []

theorem onePiece_append_sep {line : List α} (hline : sep ∉ line) :
    OnePiece sep (line ++ [sep]) := by
  intro front rest heq
  rcases List.append_eq_append_iff.mp heq with ⟨tail, -, htail⟩ | ⟨tail, rfl, htail⟩
  · exact (List.append_eq_singleton_iff.mp htail.symm).elim (fun h => (List.cons.inj h.2).2)
      fun h => absurd h.2 (List.cons_ne_nil _ _)
  · cases tail with
    | nil => exact (List.cons.inj htail).2
    | cons c tail =>
        obtain rfl := (List.cons.inj htail).1
        exact absurd (List.mem_append_right _ List.mem_cons_self) hline

/-- An initial part of a piece is one. -/
theorem OnePiece.of_isPrefix {piece part : List α} (hpiece : OnePiece sep piece)
    (hstarts : part <+: piece) : OnePiece sep part := by
  rintro front rest rfl
  rcases hstarts with ⟨tail, rfl⟩
  have hrest := hpiece front (rest ++ tail) (by simp)
  exact (List.append_eq_nil_iff.mp hrest).1

theorem everyLine_nil {P : List α → Prop} : EveryLine sep P [] := by
  intro front line rest hline
  have hne : front ++ line ++ sep :: rest ≠ [] := by simp
  exact absurd hline.eq.symm hne

/-- The lines of an initial part are lines of the text. -/
theorem EveryLine.of_isPrefix {P : List α → Prop} {text part : List α}
    (htext : EveryLine sep P text) (hstarts : part <+: text) : EveryLine sep P part := by
  intro front line rest hline
  rcases hstarts with ⟨tail, rfl⟩
  refine htext front line (rest ++ tail) ⟨?_, hline.starts, hline.oneLine⟩
  rw [hline.eq]
  simp

/-- The line at the front of a text begins as the text does. -/
theorem LineAt.isPrefix_of_isPrefix {text line rest head : List α}
    (hline : LineAt sep text [] line rest) (hhead : head <+: text) (hsep : sep ∉ head) :
    head <+: line := by
  rw [hline.eq, List.nil_append] at hhead
  exact CStrings.isPrefix_of_isPrefix_append_cons hsep hhead

/-- What begins a line stands at the front of the text, or after a separator. -/
theorem LineAt.isInfix_of_isPrefix {text front line rest head : List α}
    (hline : LineAt sep text front line rest) (hhead : head <+: line) :
    head <+: text ∨ sep :: head <:+: text := by
  have hstarts : head <+: line ++ sep :: rest := hhead.trans (List.prefix_append _ _)
  rw [hline.eq, List.append_assoc]
  rcases hline.starts with rfl | ⟨earlier, rfl⟩
  · exact Or.inl hstarts
  · right
    rw [List.append_assoc, List.singleton_append]
    exact ((List.prefix_cons_inj sep).mpr hstarts).isInfix.trans (List.suffix_append _ _).isInfix

theorem LineAt.length_eq {text front line rest : List α}
    (hline : LineAt sep text front line rest) :
    text.length = front.length + line.length + 1 + rest.length := by
  rw [hline.eq]
  simp only [List.length_append, List.length_cons]
  omega

/-- A tail of the text from a line on is determined by its length. -/
theorem LineAt.drop_eq {text front line rest tail : List α}
    (hline : LineAt sep text front line rest) (htail : tail <:+ line ++ sep :: rest) :
    text.drop (text.length - tail.length) = tail := by
  have hsuffix : tail <:+ text := by
    rw [hline.eq, List.append_assoc]
    exact htail.trans (List.suffix_append _ _)
  exact (List.suffix_iff_eq_drop.mp hsuffix).symm

/-- A piece adds the line that it begins, and no other. -/
theorem EveryLine.append {P : List α → Prop} {head piece text : List α}
    (hhead : ∀ line, head <+: line → P line) (hsep : sep ∉ head) (hstarts : head <+: piece)
    (hpiece : OnePiece sep piece) (htext : EveryLine sep P text) :
    EveryLine sep P (piece ++ text) := by
  intro front line rest hline
  rcases hline.starts with rfl | ⟨earlier, rfl⟩
  · exact hhead line (hline.isPrefix_of_isPrefix
      (hstarts.trans (List.prefix_append piece text)) hsep)
  · -- The separator before the line is the last of the piece, or stands in the text.
    have heq : piece ++ text = (earlier ++ [sep]) ++ (line ++ sep :: rest) := by
      rw [hline.eq]
      simp
    rcases List.append_eq_append_iff.mp heq with ⟨tail, htail, hafter⟩ | ⟨tail, htail, hafter⟩
    · refine htext tail line rest ⟨by simpa using hafter, ?_, hline.oneLine⟩
      rcases List.eq_nil_or_concat tail with rfl | ⟨before, last, rfl⟩
      · exact Or.inl rfl
      · refine Or.inr ⟨before, ?_⟩
        have hlast := congrArg List.getLast? htail
        simp only [List.concat_eq_append, ← List.append_assoc, List.getLast?_append,
          List.getLast?_singleton, Option.some_or] at hlast
        rw [List.concat_eq_append, Option.some.inj hlast]
    · have hnil : tail = [] :=
        hpiece earlier tail (by simpa using htail)
      rw [hnil, List.nil_append] at hafter
      exact htext [] line rest ⟨hafter.symm, Or.inl rfl, hline.oneLine⟩

end TextLines
end Apcupsd
