import Mathlib.Data.List.TakeWhile

/-!
# Texts in a memory

A memory is the list of its cells.  The text that begins at its front ends before the first
terminator; what stands behind that is kept, but is no part of the text.

Main results:

- Theorem {lit}`text_take_append`: a text that is cut where the memory ends.
- Theorem {lit}`text_strncpy_append`: a bounded copy, with a terminator behind it.
-/

namespace CMemory

/-! ## Writing -/

section Store

variable {α : Type*} {mem cells : List α} {offset : ℕ}

/-- Cells are written over from an offset on. -/
def store (mem : List α) (offset : ℕ) (cells : List α) : List α :=
  mem.take offset ++ cells ++ mem.drop (offset + cells.length)

/-- {lit}`memmove` inside a memory. -/
def memmove (mem : List α) (dest src n : ℕ) : List α :=
  store mem dest ((mem.drop src).take n)

theorem store_zero (mem cells : List α) : store mem 0 cells = cells ++ mem.drop cells.length := by
  simp [store]

/-- Cells are written to the end. -/
theorem store_end (hend : offset + cells.length = mem.length) :
    store mem offset cells = mem.take offset ++ cells := by
  rw [store, hend, List.drop_length, List.append_nil]

end Store

/-! ## Texts -/

variable {α : Type*} [DecidableEq α] {nul : α} {front : List α}

/-- The text at the front of a memory; its length is {lit}`strlen`. -/
def text (nul : α) (mem : List α) : List α :=
  mem.takeWhile (· ≠ nul)

@[simp]
theorem text_nil : text nul ([] : List α) = [] :=
  rfl

@[simp]
theorem text_nul_cons (nul : α) (back : List α) : text nul (nul :: back) = [] :=
  List.takeWhile_cons_of_neg (by simp)

theorem text_cons {c : α} (hc : c ≠ nul) (back : List α) :
    text nul (c :: back) = c :: text nul back :=
  List.takeWhile_cons_of_pos (by simpa using hc)

theorem nul_not_mem_text (nul : α) (mem : List α) : nul ∉ text nul mem := by
  intro hmem
  have hne := List.mem_takeWhile_imp hmem
  simp at hne

theorem text_isFront (nul : α) (mem : List α) : text nul mem <+: mem :=
  List.takeWhile_prefix _

/-- Inside the text the memory holds the text. -/
theorem take_eq_take_text {mem : List α} {n : ℕ} (hn : n ≤ (text nul mem).length) :
    mem.take n = (text nul mem).take n := by
  obtain ⟨back, hback⟩ := text_isFront nul mem
  calc mem.take n = (text nul mem ++ back).take n := by rw [hback]
    _ = (text nul mem).take n := List.take_append_of_le_length hn

theorem text_append (hfront : nul ∉ front) (back : List α) :
    text nul (front ++ back) = front ++ text nul back := by
  refine List.takeWhile_append_of_pos fun c hc => ?_
  have hne : c ≠ nul := fun heq => hfront (heq ▸ hc)
  simpa using hne

/-- A text with its terminator. -/
theorem text_append_nul (hfront : nul ∉ front) (back : List α) :
    text nul (front ++ nul :: back) = front := by
  rw [text_append hfront, text_nul_cons, List.append_nil]

theorem text_of_not_mem (hfront : nul ∉ front) : text nul front = front := by
  have htext := text_append hfront []
  rwa [List.append_nil, text_nil, List.append_nil] at htext

/-- A text ends inside the memory exactly if there is a terminator. -/
theorem length_text_lt_iff {mem : List α} : (text nul mem).length < mem.length ↔ nul ∈ mem := by
  constructor
  · intro hlt
    by_contra hmem
    rw [text_of_not_mem hmem] at hlt
    exact Nat.lt_irrefl _ hlt
  · intro hmem
    refine Nat.lt_of_le_of_ne (text_isFront nul mem).length_le fun heq => ?_
    have hnot := nul_not_mem_text nul mem
    rw [(text_isFront nul mem).eq_of_length heq] at hnot
    exact hnot hmem

/-- A memory with a terminator is its text, the first terminator and the rest. -/
theorem exists_eq_text_append {mem : List α} (hmem : nul ∈ mem) :
    ∃ back, mem = text nul mem ++ nul :: back := by
  induction mem with
  | nil => cases hmem
  | cons c mem ih =>
      by_cases hc : c = nul
      · refine ⟨mem, ?_⟩
        rw [hc, text_nul_cons, List.nil_append]
      · rcases List.mem_cons.mp hmem with heq | hlater
        · exact absurd heq.symm hc
        · rcases ih hlater with ⟨back, hback⟩
          refine ⟨back, ?_⟩
          rw [text_cons hc, List.cons_append, ← hback]

/-- A text that is cut where the memory ends. -/
theorem text_take_append (mem : List α) (n : ℕ) (back : List α) :
    text nul (mem.take n ++ nul :: back) = (text nul mem).take n := by
  induction mem generalizing n with
  | nil => simp
  | cons c mem ih =>
      cases n with
      | zero => simp
      | succ n =>
          rw [List.take_succ_cons, List.cons_append]
          by_cases hc : c = nul
          · rw [hc, text_nul_cons, text_nul_cons, List.take_nil]
          · rw [text_cons hc, text_cons hc, ih, List.take_succ_cons]

/-- Behind a part of the text stands the rest of it. -/
theorem text_drop {mem : List α} {n : ℕ} (hn : n ≤ (text nul mem).length) :
    text nul (mem.drop n) = (text nul mem).drop n := by
  induction n generalizing mem with
  | zero => rfl
  | succ n ih =>
      cases mem with
      | nil => simp at hn
      | cons c mem =>
          by_cases hc : c = nul
          · simp [hc] at hn
          · rw [text_cons hc] at hn ⊢
            exact ih (Nat.le_of_succ_le_succ hn)

/-! ## Bounded copies -/

/-- The cells that {lit}`strncpy` writes. -/
def strncpy (nul : α) (src : List α) (n : ℕ) : List α :=
  (text nul src).take n ++ List.replicate (n - (text nul src).length) nul

/-- A bounded copy, with a terminator behind it. -/
theorem text_strncpy_append (src : List α) (n : ℕ) (back : List α) :
    text nul (strncpy nul src n ++ nul :: back) = (text nul src).take n := by
  have hfront : nul ∉ (text nul src).take n :=
    fun hmem => nul_not_mem_text nul src (List.mem_of_mem_take hmem)
  rw [strncpy, List.append_assoc, text_append hfront]
  cases n - (text nul src).length with
  | zero => simp
  | succ pad => simp [List.replicate_succ]

/-- A copy of a text that is shorter than the bound is filled up with terminators. -/
theorem strncpy_of_le (hfront : nul ∉ front) (back : List α) {n : ℕ} (hn : front.length ≤ n) :
    strncpy nul (front ++ nul :: back) n =
      front ++ List.replicate (n - front.length) nul := by
  rw [strncpy, text_append_nul hfront, List.take_of_length_le hn]

/-! ## Appending -/

/-- {lit}`strcat`: the text of the source goes behind that of the destination. -/
def strcat (nul : α) (dest src : List α) : List α :=
  store dest (text nul dest).length (text nul src ++ [nul])

/-- Where the memory has just the room that is needed. -/
theorem strcat_eq (hfront : nul ∉ front) {back src : List α}
    (hroom : (text nul src).length = back.length) :
    strcat nul (front ++ nul :: back) src = front ++ (text nul src ++ [nul]) := by
  have hend : front.length + (text nul src ++ [nul]).length = (front ++ nul :: back).length := by
    simp [hroom]
  rw [strcat, text_append_nul hfront, store_end hend, List.take_left]

end CMemory
