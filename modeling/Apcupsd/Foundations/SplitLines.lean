import Mathlib.Data.List.Basic
import Mathlib.Data.List.TakeWhile

/-!
# Splitting and replacing lines

A text is split into lines at the separators, which are the elements with a property.

Main results:

- Theorem {lit}`splitOnP_append`: where two texts meet, the last line of the one and the
  first of the other become one line.
- Theorem {lit}`exists_replaceLine`: a line can be replaced without touching the others.
-/

namespace Apcupsd
namespace SplitLines

variable {α : Type*} {p : α → Bool}

/-- Where two texts meet, the last line of the one and the first of the other become one. -/
theorem splitOnP_append {front back : List α} {lines rest : List (List α)} {last first : List α}
    (hfront : front.splitOnP p = lines ++ [last]) (hback : back.splitOnP p = first :: rest) :
    (front ++ back).splitOnP p = lines ++ (last ++ first) :: rest := by
  induction front generalizing lines last with
  | nil =>
      rw [List.splitOnP_nil, eq_comm, List.append_eq_singleton_iff] at hfront
      rcases hfront with ⟨rfl, hlast⟩ | ⟨-, hnil⟩
      · obtain rfl := List.singleton_inj.mp hlast
        simpa using hback
      · cases hnil
  | cons c front ih =>
      rcases List.eq_nil_or_concat (front.splitOnP p) with hnil | ⟨earlier, final, hsplit⟩
      · exact absurd hnil (List.splitOnP_ne_nil p front)
      · rw [List.concat_eq_append] at hsplit
        have hjoined := ih hsplit
        rw [List.splitOnP_cons_eq_if_modifyHead, hsplit] at hfront
        rw [List.cons_append, List.splitOnP_cons_eq_if_modifyHead]
        cases hc : p c with
        | true =>
            rw [if_pos hc, ← List.cons_append] at hfront
            rcases List.append_inj' hfront rfl with ⟨rfl, hlast⟩
            obtain rfl := List.singleton_inj.mp hlast
            rw [if_pos rfl, hjoined, List.cons_append]
        | false =>
            rw [if_neg (by simp [hc])] at hfront
            rw [if_neg (by simp), hjoined]
            cases earlier with
            | nil =>
                rcases List.append_eq_singleton_iff.mp hfront.symm with
                  ⟨rfl, hlast⟩ | ⟨-, hnil⟩
                · obtain rfl := List.singleton_inj.mp hlast
                  rfl
                · cases hnil
            | cons line earlier =>
                rw [List.cons_append, List.modifyHead_cons, ← List.cons_append] at hfront
                rcases List.append_inj' hfront rfl with ⟨rfl, hlast⟩
                obtain rfl := List.singleton_inj.mp hlast
                rfl

/-- The first line of a text, and the text after its separator. -/
theorem splitOnP_cases (text : List α) :
    (∀ c ∈ text, p c = false) ∧ text.splitOnP p = [text] ∨
      ∃ line sep rest, text = line ++ sep :: rest ∧ p sep = true ∧
        (∀ c ∈ line, p c = false) ∧ text.splitOnP p = line :: rest.splitOnP p := by
  by_cases hall : ∀ c ∈ text, p c = false
  · exact Or.inl ⟨hall, List.splitOnP_eq_singleton hall⟩
  · right
    have hline : ∀ c ∈ text.takeWhile fun c => !p c, p c = false := by
      intro c hc
      simpa using List.mem_takeWhile_imp hc
    cases hrest : text.dropWhile fun c => !p c with
    | nil =>
        refine absurd (fun c hc => ?_) hall
        simpa using List.dropWhile_eq_nil_iff.mp hrest c hc
    | cons sep rest =>
        have hsep : p sep = true := by
          have hhead := List.head?_dropWhile_not (fun c => !p c) text
          rw [hrest] at hhead
          simpa using hhead
        have htext : text = (text.takeWhile fun c => !p c) ++ sep :: rest := by
          rw [← hrest, List.takeWhile_append_dropWhile]
        refine ⟨_, sep, rest, htext, hsep, hline, ?_⟩
        conv_lhs => rw [htext]
        exact List.splitOnP_append_cons_of_forall_mem hline sep hsep rest

/-- No line contains a separator. -/
theorem not_of_mem_splitOnP {text line : List α} (hline : line ∈ text.splitOnP p) :
    ∀ c ∈ line, p c = false := by
  induction text generalizing line with
  | nil =>
      obtain rfl := List.mem_singleton.mp (List.splitOnP_nil (p := p) ▸ hline)
      simp
  | cons c text ih =>
      rw [List.splitOnP_cons_eq_if_modifyHead] at hline
      split_ifs at hline with hc
      · rcases List.mem_cons.mp hline with rfl | hlater
        · simp
        · exact ih hlater
      · cases hlines : text.splitOnP p with
        | nil => exact absurd hlines (List.splitOnP_ne_nil p text)
        | cons first lines =>
            rw [hlines] at ih hline
            rcases List.mem_cons.mp hline with rfl | hlater
            · intro d hd
              rcases List.mem_cons.mp hd with rfl | hfirst
              · simpa using hc
              · exact ih List.mem_cons_self d hfirst
            · exact ih (List.mem_cons_of_mem first hlater)

/-- A line can be replaced without touching the others. -/
theorem exists_replaceLine {text : List α} {before after : List (List α)} {line : List α}
    (hsplit : text.splitOnP p = before ++ line :: after) :
    ∃ front back, text = front ++ line ++ back ∧
      ∀ other : List α, (∀ c ∈ other, p c = false) →
        (front ++ other ++ back).splitOnP p = before ++ other :: after := by
  induction before generalizing text with
  | nil =>
      rcases splitOnP_cases text with ⟨-, hone⟩ | ⟨first, sep, rest, htext, hsep, -, hfirst⟩
      · rw [hone, List.nil_append] at hsplit
        rcases List.cons.inj hsplit with ⟨rfl, rfl⟩
        refine ⟨[], [], by simp, fun other hother => ?_⟩
        simpa using List.splitOnP_eq_singleton hother
      · rw [hfirst, List.nil_append] at hsplit
        rcases List.cons.inj hsplit with ⟨rfl, rfl⟩
        refine ⟨[], sep :: rest, by simpa using htext, fun other hother => ?_⟩
        exact List.splitOnP_append_cons_of_forall_mem hother sep hsep rest
  | cons head before ih =>
      rcases splitOnP_cases text with ⟨-, hone⟩ | ⟨first, sep, rest, htext, hsep, hline, hfirst⟩
      · rw [hone] at hsplit
        exact absurd (List.cons.inj hsplit).2.symm (by simp)
      · rw [hfirst] at hsplit
        rcases List.cons.inj hsplit with ⟨rfl, hrest⟩
        rcases ih hrest with ⟨front, back, rfl, hreplace⟩
        refine ⟨first ++ sep :: front, back, by simpa using htext, fun other hother => ?_⟩
        have hsplitOther := List.splitOnP_append_cons_of_forall_mem hline sep hsep
          (front ++ other ++ back)
        rw [hreplace other hother] at hsplitOther
        simpa using hsplitOther

end SplitLines
end Apcupsd
