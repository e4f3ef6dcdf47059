import Mathlib.Data.List.Basic
import Mathlib.Tactic.Cases

/-!
# Reading a text in pieces

A reader that takes a text in pieces: up to and with the next separator, but never more than
there is room for, as {lit}`fgets` does.

Main results:

- Theorem {lit}`pieces_append`: behind whole lines the reader starts anew.
- Theorem {lit}`pieces_lines`: lines that fit are read one by one.
-/

namespace Pieces

variable {α : Type*} {sep : α} {room : ℕ} {text front back : List α}

/-- A text of whole lines. -/
def Whole (sep : α) (text : List α) : Prop :=
  text = [] ∨ ∃ earlier, text = earlier ++ [sep]

theorem whole_nil : Whole sep ([] : List α) :=
  Or.inl rfl

theorem whole_line (line : List α) : Whole sep (line ++ [sep]) :=
  Or.inr ⟨line, rfl⟩

theorem Whole.append (hfront : Whole sep front) (hback : Whole sep back) :
    Whole sep (front ++ back) := by
  rcases hback with rfl | ⟨earlier, rfl⟩
  · rwa [List.append_nil]
  · exact Or.inr ⟨front ++ earlier, (List.append_assoc ..).symm⟩

variable [DecidableEq α]

/-- The next piece, and the text behind it. -/
def next (sep : α) : ℕ → List α → List α × List α
  | 0, text => ([], text)
  | _ + 1, [] => ([], [])
  | room + 1, c :: text =>
      if c = sep then ([c], text) else (c :: (next sep room text).1, (next sep room text).2)

/-- The pieces that are read in at most {lit}`fuel` turns. -/
def readAll (sep : α) (room : ℕ) : ℕ → List α → List (List α)
  | 0, _ => []
  | fuel + 1, text =>
      if text = [] then []
      else (next sep room text).1 :: readAll sep room fuel (next sep room text).2

/-- All pieces of a text. -/
def pieces (sep : α) (room : ℕ) (text : List α) : List (List α) :=
  readAll sep room text.length text

theorem length_next (sep : α) (hroom : 0 < room) (htext : text ≠ []) :
    (next sep room text).2.length < text.length := by
  have hle (room : ℕ) (text : List α) : (next sep room text).2.length ≤ text.length := by
    induction text generalizing room with
    | nil => cases room <;> exact Nat.le_refl 0
    | cons c text ih =>
        cases room with
        | zero => exact Nat.le_refl _
        | succ room =>
            rw [next]
            split
            · exact Nat.le_succ _
            · exact Nat.le_succ_of_le (ih room)
  obtain ⟨room, rfl⟩ := Nat.exists_eq_succ_of_ne_zero (Nat.ne_of_gt hroom)
  obtain ⟨c, text, rfl⟩ := List.exists_cons_of_ne_nil htext
  rw [next]
  split
  · exact Nat.lt_succ_self _
  · exact Nat.lt_succ_of_le (hle room text)

/-- More turns than the text is long make no difference. -/
theorem readAll_of_le (hroom : 0 < room) {fuel : ℕ} (hfuel : text.length ≤ fuel) :
    readAll sep room fuel text = pieces sep room text := by
  have hsame (m n : ℕ) (text : List α) (hm : text.length ≤ m) (hn : text.length ≤ n) :
      readAll sep room m text = readAll sep room n text := by
    induction m generalizing n text with
    | zero =>
        obtain rfl := List.length_eq_zero_iff.mp (Nat.le_zero.mp hm)
        cases n <;> rfl
    | succ m ih =>
        by_cases htext : text = []
        · subst htext
          cases n <;> rfl
        · have hless := length_next sep hroom htext
          obtain ⟨n, rfl⟩ := Nat.exists_eq_succ_of_ne_zero (show n ≠ 0 by omega)
          rw [readAll, readAll, if_neg htext, if_neg htext, ih n _ (by omega) (by omega)]
  exact hsame fuel text.length text hfuel (Nat.le_refl _)

@[simp]
theorem pieces_nil : pieces sep room [] = [] := rfl

theorem pieces_of_ne_nil (hroom : 0 < room) (htext : text ≠ []) :
    pieces sep room text =
      (next sep room text).1 :: pieces sep room (next sep room text).2 := by
  obtain ⟨c, rest, rfl⟩ := List.exists_cons_of_ne_nil htext
  have hless := length_next sep hroom htext
  rw [pieces, List.length_cons, readAll, if_neg htext,
    readAll_of_le hroom (Nat.le_of_lt_succ hless)]

/-- A piece that ends inside a text is the same whatever follows. -/
theorem next_append (hends : sep ∈ front ∨ room ≤ front.length) (back : List α) :
    next sep room (front ++ back) =
      ((next sep room front).1, (next sep room front).2 ++ back) := by
  induction front generalizing room with
  | nil =>
      obtain rfl : room = 0 := by simpa using hends
      rfl
  | cons c front ih =>
      cases room with
      | zero => rfl
      | succ room =>
          rw [List.cons_append, next, next]
          by_cases hc : c = sep
          · rw [if_pos hc, if_pos hc]
          · have hends' : sep ∈ front ∨ room ≤ front.length := by
              rcases hends with hmem | hle
              · exact Or.inl ((List.mem_cons.mp hmem).resolve_left (Ne.symm hc))
              · exact Or.inr (Nat.le_of_succ_le_succ hle)
            rw [if_neg hc, if_neg hc, ih hends']

/-- What follows a piece of whole lines is whole lines. -/
theorem Whole.next (hwhole : Whole sep text) (room : ℕ) :
    Whole sep (Pieces.next sep room text).2 := by
  induction text generalizing room with
  | nil => cases room <;> exact whole_nil
  | cons c text ih =>
      cases room with
      | zero => exact hwhole
      | succ room =>
          have htail : Whole sep text := by
            rcases hwhole with hnil | ⟨earlier, heq⟩
            · cases hnil
            · cases earlier with
              | nil => exact Or.inl (List.cons.inj heq).2
              | cons d earlier => exact Or.inr ⟨earlier, (List.cons.inj heq).2⟩
          rw [Pieces.next]
          split
          · exact htail
          · exact ih htail room

/-- Behind whole lines the reader starts anew. -/
theorem pieces_append (hroom : 0 < room) (hwhole : Whole sep front) (back : List α) :
    pieces sep room (front ++ back) = pieces sep room front ++ pieces sep room back := by
  induction hlength : front.length using Nat.strongRecOn generalizing front with
  | ind n ih =>
      by_cases hfront : front = []
      · rw [hfront, List.nil_append, pieces_nil, List.nil_append]
      · have hends : sep ∈ front := by
          obtain ⟨earlier, rfl⟩ := hwhole.resolve_left hfront
          exact List.mem_append_right _ List.mem_cons_self
        have hless := length_next sep hroom hfront
        rw [pieces_of_ne_nil hroom (List.append_ne_nil_of_left_ne_nil hfront back),
          next_append (Or.inl hends), pieces_of_ne_nil hroom hfront, List.cons_append,
          ih _ (hlength ▸ hless) (hwhole.next room) rfl]

/-- A line that fits is one piece. -/
theorem next_line {line : List α} (hsep : sep ∉ line) (hfits : line.length < room) :
    next sep room (line ++ [sep]) = (line ++ [sep], []) := by
  induction line generalizing room with
  | nil =>
      obtain ⟨room, rfl⟩ := Nat.exists_eq_succ_of_ne_zero (Nat.ne_of_gt hfits)
      rw [List.nil_append, next, if_pos rfl]
  | cons c line ih =>
      obtain ⟨room, rfl⟩ := Nat.exists_eq_succ_of_ne_zero (Nat.ne_of_gt (Nat.zero_lt_of_lt hfits))
      have hc : c ≠ sep := fun heq => hsep (heq ▸ List.mem_cons_self)
      rw [List.cons_append, next, if_neg hc, ih (fun hmem => hsep (List.mem_cons_of_mem c hmem))
        (Nat.lt_of_succ_lt_succ hfits)]

/-- A last line that fits is one piece without its end. -/
theorem next_final {line : List α} (hsep : sep ∉ line) (hfits : line.length ≤ room) :
    next sep room line = (line, []) := by
  induction line generalizing room with
  | nil => cases room <;> rfl
  | cons c line ih =>
      obtain ⟨room, rfl⟩ := Nat.exists_eq_succ_of_ne_zero (Nat.ne_of_gt (Nat.zero_lt_of_lt hfits))
      have hc : c ≠ sep := fun heq => hsep (heq ▸ List.mem_cons_self)
      rw [next, if_neg hc, ih (fun hmem => hsep (List.mem_cons_of_mem c hmem))
        (Nat.le_of_succ_le_succ hfits)]

theorem pieces_final (hroom : 0 < room) {line : List α} (hsep : sep ∉ line)
    (hfits : line.length ≤ room) :
    pieces sep room line = if line = [] then [] else [line] := by
  by_cases hline : line = []
  · rw [hline, pieces_nil, if_pos rfl]
  · rw [pieces_of_ne_nil hroom hline, next_final hsep hfits, if_neg hline, pieces_nil]

/-- Lines that fit are read one by one. -/
theorem pieces_lines {lines : List (List α)}
    (hlines : ∀ line ∈ lines, sep ∉ line ∧ line.length < room) :
    pieces sep room (lines.flatMap (· ++ [sep])) = lines.map (· ++ [sep]) := by
  induction lines with
  | nil => rfl
  | cons line lines ih =>
      obtain ⟨hsep, hfits⟩ := hlines line List.mem_cons_self
      have hroom : 0 < room := Nat.zero_lt_of_lt hfits
      rw [List.flatMap_cons, pieces_append hroom (whole_line line),
        ih fun other hmem => hlines other (List.mem_cons_of_mem line hmem),
        pieces_of_ne_nil hroom (List.append_ne_nil_of_right_ne_nil line (List.cons_ne_nil _ _)),
        next_line hsep hfits]
      rfl

end Pieces
