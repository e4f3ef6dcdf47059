import Mathlib.Data.List.DropRight
import Mathlib.Logic.Function.Basic
import Apcupsd.Foundations.CMemory
import Apcupsd.Foundations.CStrings

/-!
# The string class

{lit}`astring` from {lit}`lib/astring.cpp` keeps the length of its text beside the array that
holds it, and every operation updates the two by hand.  An argument may point into the array of
a string, also of the one that the operation changes and whose array it deletes.

Main results:

- Definition {lit}`AString.Honest`: the length is the position of the first terminator.
- Theorem {lit}`meets_iff`: which operations on honest strings do what they are for.
- Theorem {lit}`runMeets_iff`: the same for sequences of operations.
-/

namespace Apcupsd
namespace Lib

open CStrings CMemory

/-! ## The class -/

/-- {lit}`INT_MAX`. -/
def intMax : ℕ := 2 ^ 31 - 1

/-- {lit}`astring`: the array from {lit}`_data` on, and {lit}`_len`. -/
structure AString where
  data : List Char
  len : ℕ

namespace AString

/-- {lit}`assign(str, len)` with a length, where {lit}`str` is the memory from the pointer on. -/
def assign (str : List Char) (len : ℕ) : AString where
  data := strncpy nul str len ++ [nul]
  len := len

/-- {lit}`assign(str)`. -/
def ofText (str : List Char) : AString :=
  assign str (text nul str).length

/-- The array that {lit}`realloc` makes. -/
def realloc (s : AString) (newsize : ℕ) : List Char :=
  strncpy nul s.data newsize ++ [nul]

/-- {lit}`operator+(const char *)`. -/
def append (s : AString) (rhs : List Char) : AString :=
  let len := s.len + (text nul rhs).length
  { data := strcat nul (s.realloc len) rhs
    len := len }

/-- {lit}`operator+(const char)`. -/
def push (s : AString) (rhs : Char) : AString where
  data := store (store (s.realloc (s.len + 1)) s.len [rhs]) (s.len + 1) [nul]
  len := s.len + 1

/-- The loop of {lit}`rtrim`. -/
def rtrimLoop (data : List Char) : ℕ → AString
  | 0 => { data := data, len := 0 }
  | len + 1 =>
      if data[len]?.elim false isspace then rtrimLoop (data.set len nul) len
      else { data := data, len := len + 1 }

/-- {lit}`rtrim`. -/
def rtrim (s : AString) : AString :=
  rtrimLoop s.data s.len

/-- A character of {lit}`" \t\r\n"`. -/
def isblank (c : Char) : Bool :=
  c = ' ' || c = '\t' || c = '\r' || c = '\n'

/-- {lit}`ltrim`. -/
def ltrim (s : AString) : AString :=
  let trim := (s.data.takeWhile isblank).length
  { data := memmove s.data 0 trim (s.len - trim + 1)
    len := s.len - trim }

/-- {lit}`substr`.  The result is the local variable itself: its copy is elided. -/
def substr (s : AString) (start len : Int) : AString :=
  if start > s.len then ofText [nul]
  else
    let first :=
      if start < 0 then if start + s.len < 0 then 0 else start + s.len else start
    let count :=
      if len < 0 then if s.len - first < 0 then 0 else s.len - first else len
    assign (s.data.drop first.toNat) count.toNat

/-- {lit}`operator[]`: the position that the reference denotes, or {lit}`abort()`. -/
def index (s : AString) (i : Int) : Option ℕ :=
  if 0 ≤ i ∧ i < s.len then some i.toNat
  else if i < 0 ∧ -s.len ≤ i then some (s.len - i).toNat
  else none

end AString

/-! ## Operations -/

/-- A C string: its characters without the terminator. -/
abbrev CText := { t : List Char // nul ∉ t }

/-- A character that is no terminator. -/
abbrev TextChar := { c : Char // c ≠ nul }

/-- A {lit}`const char *`: {lit}`NULL`, a text elsewhere, or a position in a string, which is
its end if the string is shorter. -/
inductive Pointer where
  | null
  | text (t : CText)
  | inside (y offset : ℕ)
deriving DecidableEq

/-- The right-hand side of an assignment or an addition. -/
inductive Operand where
  | pointer (p : Pointer)
  | char (c : TextChar)
  | string (y : ℕ)
deriving DecidableEq

/-- A part of the output of {lit}`vsnprintf`: characters, or what a {lit}`%s` prints that is
given a position in a string. -/
inductive Printed where
  | text (t : CText)
  | inside (y offset : ℕ)
deriving DecidableEq

/-- The pointer that is read for the part. -/
def Printed.pointer : Printed → Pointer
  | .text t => .text t
  | .inside y offset => .inside y offset

/-- It points into the array of a string. -/
def Pointer.Into (x : ℕ) : Pointer → Prop
  | .inside y _ => y = x
  | _ => False

instance (x : ℕ) : (p : Pointer) → Decidable (p.Into x)
  | .null => .isFalse id
  | .text _ => .isFalse id
  | .inside y _ => inferInstanceAs (Decidable (y = x))

/-- An operation on numbered variables.  A construction gives the variable a new object, which
is made while the old one is there. -/
inductive Op where
  | construct (x : ℕ) (str : Pointer)
  | copy (x y : ℕ)
  | assign (x : ℕ) (rhs : Operand)
  | append (x : ℕ) (rhs : Operand)
  /-- With what {lit}`vsnprintf` prints, unless it fails. -/
  | format (x : ℕ) (printed : Option (List Printed))
  | rtrim (x : ℕ)
  | ltrim (x : ℕ)
  /-- {lit}`astring x = y.substr(start, len)`. -/
  | substr (x y : ℕ) (start len : Int)
  | index (x : ℕ) (i : Int)
  /-- {lit}`x[i] = c`. -/
  | setIndex (x : ℕ) (i : Int) (c : TextChar)

/-- The objects of the variables. -/
abbrev Store := ℕ → AString

/-- How an operation ends: with the store and the position of the reference that it returns, in
{lit}`abort()`, or in what C leaves undefined (an access outside of the array or to one that has
been deleted, or a length that is no {lit}`int`). -/
inductive Outcome where
  | returns (after : Store) (ref : Option ℕ)
  | aborts
  | undefined

/-- Stores an object, if the largest {lit}`int` of its computation is one. -/
def Store.put (before : Store) (x size : ℕ) (s : AString) : Outcome :=
  if size ≤ intMax then .returns (Function.update before x s) none else .undefined

/-- {lit}`assign(str)` on a variable. -/
def Store.assign (before : Store) (x : ℕ) (str : List Char) : Outcome :=
  before.put x ((text nul str).length + 1) (AString.ofText str)

/-- {lit}`operator+(const char *)` on a variable. -/
def Store.append (before : Store) (x : ℕ) (rhs : List Char) : Outcome :=
  before.put x ((before x).len + (text nul rhs).length) ((before x).append rhs)

/-- The memory from a pointer on; {lit}`NULL` is taken for an empty text. -/
def Store.memory (before : Store) : Pointer → List Char
  | .null => [nul]
  | .text t => t.1 ++ [nul]
  | .inside y offset => (before y).data.drop (min offset (before y).len)

/-- {lit}`rhs == _data`. -/
def Store.IsData (before : Store) (x : ℕ) : Pointer → Prop
  | .inside y offset => y = x ∧ min offset (before x).len = 0
  | _ => False

instance (before : Store) (x : ℕ) : (p : Pointer) → Decidable (before.IsData x p)
  | .null => .isFalse id
  | .text _ => .isFalse id
  | .inside y offset => inferInstanceAs (Decidable (y = x ∧ min offset (before x).len = 0))

/-- All that is printed. -/
def Store.output (before : Store) (parts : List Printed) : List Char :=
  parts.flatMap fun part => text nul (before.memory part.pointer)

/-- {lit}`operator=(const char *)`, which deletes the array before it reads. -/
def Store.assignPointer (before : Store) (x : ℕ) (rhs : Pointer) : Outcome :=
  if before.IsData x rhs then .returns before none
  else if rhs.Into x then .undefined
  else before.assign x (before.memory rhs)

/-- {lit}`operator+(const char *)`, which makes another array before it copies. -/
def Store.appendPointer (before : Store) (x : ℕ) (rhs : Pointer) : Outcome :=
  if rhs = .null ∨ before.IsData x rhs then .returns before none
  else if rhs.Into x then .undefined
  else before.append x (before.memory rhs)

/-- {lit}`vformat`, which prints once to measure, and again when the array has been deleted. -/
def Store.vformat (before : Store) (x : ℕ) (parts : List Printed) : Outcome :=
  if before.output parts = [] then before.assign x [nul]
  else if ∃ part ∈ parts, part.pointer.Into x then .undefined
  else before.assign x (before.output parts ++ [nul])

/-- The operations. -/
def exec (before : Store) : Op → Outcome
  | .construct x str => before.assign x (before.memory str)
  | .copy x y => before.assign x (before y).data
  | .assign x (.pointer rhs) => before.assignPointer x rhs
  | .assign x (.char c) => before.put x 2 (AString.assign [c.1] 1)
  | .assign x (.string y) =>
      if y = x then .returns before none else before.assign x (before y).data
  | .append x (.pointer rhs) => before.appendPointer x rhs
  | .append x (.char c) => before.put x ((before x).len + 1) ((before x).push c.1)
  | .append x (.string y) =>
      if y = x then .returns before none else before.append x (before y).data
  -- a failure leaves the empty text
  | .format x none => before.assign x [nul]
  | .format x (some parts) => before.vformat x parts
  | .rtrim x => .returns (Function.update before x (before x).rtrim) none
  | .ltrim x => .returns (Function.update before x (before x).ltrim) none
  | .substr x y start len =>
      let s := (before y).substr start len
      before.put x (s.len + 1) s
  | .index x i =>
      match (before x).index i with
      | some p => .returns before (some p)
      | none => .aborts
  | .setIndex x i c =>
      match (before x).index i with
      | some p =>
          if p < (before x).data.length then
            .returns (Function.update before x
              { before x with data := (before x).data.set p c.1 }) (some p)
          else .undefined
      | none => .aborts

/-! ## What the operations are for -/

/-- The characters that a pointer stands for. -/
def Pointer.chars (texts : ℕ → List Char) : Pointer → List Char
  | .null => []
  | .text t => t.1
  | .inside y offset => (texts y).drop offset

/-- The characters that an operand stands for. -/
def Operand.chars (texts : ℕ → List Char) : Operand → List Char
  | .pointer p => p.chars texts
  | .char c => [c.1]
  | .string y => texts y

/-- The characters that are printed. -/
def printedChars (texts : ℕ → List Char) : Option (List Printed) → List Char
  | none => []
  | some parts => parts.flatMap fun part => part.pointer.chars texts

/-- The string itself, or the pointer to its first character. -/
def Operand.Own (texts : ℕ → List Char) (x : ℕ) : Operand → Prop
  | .pointer (.inside y offset) => y = x ∧ (offset = 0 ∨ texts x = [])
  | .string y => y = x
  | _ => False

instance (texts : ℕ → List Char) (x : ℕ) : (rhs : Operand) → Decidable (rhs.Own texts x)
  | .pointer .null => .isFalse id
  | .pointer (.text _) => .isFalse id
  | .pointer (.inside y offset) =>
      inferInstanceAs (Decidable (y = x ∧ (offset = 0 ∨ texts x = [])))
  | .char _ => .isFalse id
  | .string y => inferInstanceAs (Decidable (y = x))

/-- The operand points into the array of a string. -/
def Operand.Into (x : ℕ) : Operand → Prop
  | .pointer p => p.Into x
  | _ => False

/-- The first position of a range; from the end if {lit}`start` is negative. -/
def rangeStart (start : Int) (length : ℕ) : ℕ :=
  if start < 0 then (start + length).toNat else start.toNat

/-- The part of a text in a range, clipped to its end; all of the rest if {lit}`len` is
negative. -/
def clip (start len : Int) (t : List Char) : List Char :=
  if len < 0 then t.drop (rangeStart start t.length)
  else (t.drop (rangeStart start t.length)).take len.toNat

/-- The position of a character; from the end if {lit}`i` is negative. -/
def position (i : Int) (length : ℕ) : Option ℕ :=
  if i < -length ∨ (length : Int) ≤ i then none
  else some (if i < 0 then i + length else i).toNat

/-- The texts of the variables after an operation and the position that it returns, unless it
has a bogus index.  A string is not added to itself. -/
def Op.spec (texts : ℕ → List Char) : Op → Option ((ℕ → List Char) × Option ℕ)
  | .construct x str => some (Function.update texts x (str.chars texts), none)
  | .copy x y => some (Function.update texts x (texts y), none)
  | .assign x rhs => some (Function.update texts x (rhs.chars texts), none)
  | .append x rhs =>
      if rhs.Own texts x then some (texts, none)
      else some (Function.update texts x (texts x ++ rhs.chars texts), none)
  | .format x printed => some (Function.update texts x (printedChars texts printed), none)
  | .rtrim x => some (Function.update texts x ((texts x).rdropWhile isspace), none)
  | .ltrim x => some (Function.update texts x ((texts x).dropWhile AString.isblank), none)
  | .substr x y start len => some (Function.update texts x (clip start len (texts y)), none)
  | .index x i => (position i (texts x).length).map fun p => (texts, some p)
  | .setIndex x i c =>
      (position i (texts x).length).map fun p =>
        (Function.update texts x ((texts x).set p c.1), some p)

/-- The length is the position of the first terminator. -/
structure AString.Honest (s : AString) : Prop where
  terminated : nul ∈ s.data
  len : s.len = (text nul s.data).length

/-- The texts of the variables. -/
def Store.texts (before : Store) (x : ℕ) : List Char :=
  text nul (before x).data

/-- The strings are honest and have the texts that are expected, with the position that is
expected; where nothing is expected the program aborts. -/
def Outcome.Meets (expected : Option ((ℕ → List Char) × Option ℕ)) : Outcome → Prop
  | .returns after ref => (∀ x, (after x).Honest) ∧ expected = some (after.texts, ref)
  | .aborts => expected = none
  | .undefined => False

/-- The operation does what it is for. -/
def Meets (before : Store) (op : Op) : Prop :=
  (exec before op).Meets (op.spec before.texts)

/-- A range does not end behind the string, an index is not counted from the end, nothing is
read from the array that the operation deletes, and the lengths fit an {lit}`int`. -/
def Fine (texts : ℕ → List Char) : Op → Prop
  | .construct _ str => (str.chars texts).length < intMax
  | .copy _ y => (texts y).length < intMax
  | .assign x rhs => rhs.Own texts x ∨ (¬ rhs.Into x ∧ (rhs.chars texts).length < intMax)
  | .append x rhs =>
      rhs = .pointer .null ∨ rhs.Own texts x ∨
        (¬ rhs.Into x ∧ (texts x ++ rhs.chars texts).length ≤ intMax)
  | .format x printed =>
      (printedChars texts printed).length < intMax ∧
        (printedChars texts printed = [] ∨
          ∀ parts, printed = some parts → ∀ part ∈ parts, ¬ part.pointer.Into x)
  | .rtrim _ | .ltrim _ => True
  | .substr _ y start len =>
      (((texts y).length < start) ∨ len < 0 ∨
        rangeStart start (texts y).length + len ≤ (texts y).length) ∧
      (clip start len (texts y)).length < intMax
  | .index x i | .setIndex x i _ => ¬ (-(texts x).length ≤ i ∧ i < 0)

/-! ## One string -/

namespace AString

/-- The string holds the text. -/
structure Holds (s : AString) (t : List Char) : Prop where
  nul_not_mem : nul ∉ t
  len : s.len = t.length
  data : ∃ back, s.data = t ++ nul :: back

variable {s : AString} {t : List Char}

theorem Holds.text_eq (hs : s.Holds t) : text nul s.data = t := by
  rcases hs.data with ⟨back, hdata⟩
  rw [hdata, text_append_nul hs.nul_not_mem]

theorem Holds.honest (hs : s.Holds t) : s.Honest where
  terminated := by
    rcases hs.data with ⟨back, hdata⟩
    rw [hdata]
    exact List.mem_append_right t List.mem_cons_self
  len := by rw [hs.text_eq, hs.len]

/-- An honest string holds its text. -/
theorem Honest.holds (hs : s.Honest) : s.Holds (text nul s.data) where
  nul_not_mem := nul_not_mem_text nul s.data
  len := hs.len
  data := exists_eq_text_append hs.terminated

/-- A copy of as many characters as there are holds them. -/
theorem holds_assign {str : List Char} {n : ℕ} (hn : n ≤ (text nul str).length) :
    (assign str n).Holds ((text nul str).take n) where
  nul_not_mem := fun hmem => nul_not_mem_text nul str (List.mem_of_mem_take hmem)
  len := by
    rw [List.length_take, Nat.min_eq_left hn]
    rfl
  data := by
    refine ⟨[], ?_⟩
    unfold assign strncpy
    rw [Nat.sub_eq_zero_of_le hn, List.replicate_zero, List.append_nil]

/-- The length of a copy is right exactly if there are as many characters. -/
theorem honest_assign_iff {str : List Char} {n : ℕ} :
    (assign str n).Honest ↔ n ≤ (text nul str).length := by
  constructor
  · intro hs
    have hlen : n = (text nul (strncpy nul str n ++ nul :: [])).length := hs.len
    rw [text_strncpy_append, List.length_take] at hlen
    omega
  · exact fun hn => (holds_assign hn).honest

theorem holds_ofText (str : List Char) : (ofText str).Holds (text nul str) := by
  have hs := holds_assign (le_refl (text nul str).length)
  rw [List.take_length] at hs
  exact hs

theorem Holds.append (hs : s.Holds t) (rhs : List Char) :
    (s.append rhs).Holds (t ++ text nul rhs) := by
  rcases hs.data with ⟨back, hdata⟩
  refine ⟨?_, ?_, [], ?_⟩
  · rw [List.mem_append, not_or]
    exact ⟨hs.nul_not_mem, nul_not_mem_text nul rhs⟩
  · rw [List.length_append, ← hs.len]
    rfl
  · have hroom : s.realloc (s.len + (text nul rhs).length) =
        t ++ nul :: List.replicate (text nul rhs).length nul := by
      have hle : t.length ≤ t.length + (text nul rhs).length := Nat.le_add_right _ _
      unfold realloc
      rw [hdata, hs.len, strncpy_of_le hs.nul_not_mem back hle, Nat.add_sub_cancel_left,
        List.append_assoc, ← List.replicate_succ', List.replicate_succ]
    unfold AString.append
    dsimp only
    rw [hroom, strcat_eq hs.nul_not_mem (by simp), List.append_assoc]

theorem Holds.push (hs : s.Holds t) {c : Char} (hc : c ≠ nul) :
    (s.push c).Holds (t ++ [c]) := by
  rcases hs.data with ⟨back, hdata⟩
  refine ⟨?_, ?_, [], ?_⟩
  · rw [List.mem_append, List.mem_singleton, not_or]
    exact ⟨hs.nul_not_mem, hc.symm⟩
  · rw [List.length_append, ← hs.len]
    rfl
  · have hroom : s.realloc (s.len + 1) = t ++ nul :: [nul] := by
      have hle : t.length ≤ t.length + 1 := Nat.le_succ _
      unfold realloc
      rw [hdata, hs.len, strncpy_of_le hs.nul_not_mem back hle, Nat.add_sub_cancel_left,
        List.append_assoc]
      rfl
    have hwritten : store (t ++ nul :: [nul]) t.length [c] = t ++ [c] ++ [nul] := by
      simp [store]
    unfold AString.push
    dsimp only
    rw [hroom, hs.len, hwritten, store_end (by simp), List.take_left' (by simp)]

/-- The loop takes the blanks away from behind. -/
theorem holds_rtrimLoop (ht : nul ∉ t) (back : List Char) :
    (rtrimLoop (t ++ nul :: back) t.length).Holds (t.rdropWhile isspace) := by
  induction t using List.reverseRecOn generalizing back with
  | nil => exact ⟨List.not_mem_nil, rfl, back, rfl⟩
  | append_singleton t c ih =>
      have htrimmed : nul ∉ t := fun hmem => ht (List.mem_append_left _ hmem)
      have hget : (t ++ [c] ++ nul :: back)[t.length]? = some c := by simp
      rw [List.length_append, List.length_singleton, rtrimLoop, hget, Option.elim_some]
      cases hc : isspace c with
      | true =>
          have hset : (t ++ [c] ++ nul :: back).set t.length nul =
              t ++ nul :: nul :: back := by simp
          have hdropped : (t ++ [c]).rdropWhile isspace = t.rdropWhile isspace :=
            List.rdropWhile_concat_pos _ _ _ hc
          rw [if_pos rfl, hset, hdropped]
          exact ih htrimmed (nul :: back)
      | false =>
          have hkept : (t ++ [c]).rdropWhile isspace = t ++ [c] :=
            List.rdropWhile_concat_neg _ _ _ (by simp [hc])
          rw [if_neg Bool.false_ne_true, hkept]
          exact ⟨ht, by simp, back, rfl⟩

theorem Holds.rtrim (hs : s.Holds t) : s.rtrim.Holds (t.rdropWhile isspace) := by
  rcases hs.data with ⟨back, hdata⟩
  unfold AString.rtrim
  rw [hdata, hs.len]
  exact holds_rtrimLoop hs.nul_not_mem back

/-- What follows the blanks is moved to the front with its terminator. -/
theorem holds_ltrim {blanks rest : List Char} (hblanks : ∀ c ∈ blanks, isblank c = true)
    (hfirst : ∀ c ∈ rest.head?, isblank c = false) (hrest : nul ∉ rest) (back : List Char) :
    (ltrim { data := blanks ++ (rest ++ nul :: back), len := (blanks ++ rest).length }).Holds
      rest := by
  have hstop : ∀ c ∈ (rest ++ nul :: back).head?, isblank c = false := by
    intro c hc
    cases rest with
    | nil =>
        obtain rfl := Option.some.inj hc
        decide
    | cons d rest => exact hfirst c hc
  have htaken : (blanks ++ (rest ++ nul :: back)).takeWhile isblank = blanks :=
    takeWhile_append_stop hblanks hstop
  have hlength : (blanks ++ rest).length - blanks.length = rest.length := by simp
  have hmoved : ((blanks ++ (rest ++ nul :: back)).drop blanks.length).take (rest.length + 1) =
      rest ++ [nul] := by
    rw [List.drop_left, List.take_append]
    simp
  unfold ltrim memmove
  dsimp only
  rw [htaken, hlength, hmoved, store_zero]
  exact ⟨hrest, rfl, _, List.append_assoc _ _ _⟩

theorem Holds.ltrim (hs : s.Holds t) : s.ltrim.Holds (t.dropWhile isblank) := by
  have hsplit : t.takeWhile isblank ++ t.dropWhile isblank = t := List.takeWhile_append_dropWhile
  have hfirst : ∀ c ∈ (t.dropWhile isblank).head?, isblank c = false := by
    intro c hc
    have hdropped := List.head?_dropWhile_not isblank t
    rw [hc] at hdropped
    exact hdropped
  have hnul : nul ∉ t.dropWhile isblank := fun hmem =>
    hs.nul_not_mem ((List.dropWhile_suffix isblank).subset hmem)
  rcases hs with ⟨-, hlen, back, hdata⟩
  have hobject : s =
      { data := t.takeWhile isblank ++ (t.dropWhile isblank ++ nul :: back)
        len := (t.takeWhile isblank ++ t.dropWhile isblank).length } := by
    rw [← List.append_assoc, hsplit, ← hdata, ← hlen]
  rw [hobject]
  exact holds_ltrim (fun c hc => List.mem_takeWhile_imp hc) hfirst hnul back

/-- Behind the first positions of the array stands the rest of the text. -/
theorem Holds.text_drop (hs : s.Holds t) {n : ℕ} (hn : n ≤ t.length) :
    text nul (s.data.drop n) = t.drop n := by
  rw [CMemory.text_drop (hs.text_eq.symm ▸ hn), hs.text_eq]

/-- The positions inside the string, with the two ways to count them. -/
theorem rangeStart_le {start : Int} (hstart : start ≤ t.length) :
    rangeStart start t.length ≤ t.length := by
  unfold rangeStart
  split_ifs <;> omega

/-- Behind the end of the string nothing is left to be copied. -/
theorem clip_of_lt {start : Int} (hstart : (t.length : Int) < start) (len : Int) :
    clip start len t = [] := by
  have hfirst : t.drop (rangeStart start t.length) = [] := by
    rw [List.drop_eq_nil_iff]
    unfold rangeStart
    split_ifs <;> omega
  unfold clip
  rw [hfirst, List.take_nil, ite_self]

/-- A part that begins inside the string is copied from there. -/
theorem Holds.substr_eq (hs : s.Holds t) {start : Int} (hstart : start ≤ t.length) (len : Int) :
    s.substr start len = assign (s.data.drop (rangeStart start t.length))
      (if len < 0 then t.length - rangeStart start t.length else len.toNat) := by
  have hle := rangeStart_le hstart
  have hfirst : (if start < 0 then if start + (t.length : Int) < 0 then 0 else start + t.length
      else start) = (rangeStart start t.length : Int) := by
    unfold rangeStart
    split_ifs <;> omega
  unfold substr
  rw [hs.len, if_neg (not_lt.mpr hstart)]
  dsimp only
  rw [hfirst, Int.toNat_natCast]
  congr 1
  split_ifs <;> omega

/-- What a part has for its text, and when it is honest. -/
theorem Holds.substr (hs : s.Holds t) (start len : Int) :
    text nul (s.substr start len).data = clip start len t ∧
      ((s.substr start len).Honest ↔ (t.length : Int) < start ∨ len < 0 ∨
        rangeStart start t.length + len ≤ t.length) := by
  rcases lt_or_ge (t.length : Int) start with hlate | hstart
  · have hempty : s.substr start len = ofText [nul] := by
      unfold AString.substr
      rw [hs.len, if_pos hlate]
    rw [hempty, clip_of_lt hlate]
    exact ⟨(holds_ofText _).text_eq, iff_of_true (holds_ofText _).honest (Or.inl hlate)⟩
  · have hle := rangeStart_le hstart
    have hrest := hs.text_drop hle
    rw [hs.substr_eq hstart, honest_assign_iff, hrest, List.length_drop]
    constructor
    · unfold assign clip
      rw [text_strncpy_append, hrest]
      split_ifs with hlen
      · exact List.take_of_length_le (by rw [List.length_drop])
      · rfl
    · split_ifs <;> omega

/-- A bogus index aborts, an index from the front denotes its position, and an index from the
end denotes another one. -/
theorem Holds.index_cases (hs : s.Holds t) (i : Int) :
    (s.index i = none ∧ position i t.length = none ∧ ¬ (-t.length ≤ i ∧ i < 0)) ∨
      (∃ p < t.length, s.index i = some p ∧ position i t.length = some p ∧
        ¬ (-t.length ≤ i ∧ i < 0)) ∨
      (∃ p q, s.index i = some p ∧ position i t.length = some q ∧ p ≠ q ∧
        -t.length ≤ i ∧ i < 0) := by
  unfold index position
  rw [hs.len]
  rcases lt_or_ge i 0 with hneg | hpos
  · rcases lt_or_ge i (-t.length) with hbogus | hend
    · refine Or.inl ⟨?_, if_pos (Or.inl hbogus), by omega⟩
      rw [if_neg (by omega), if_neg (by omega)]
    · refine Or.inr (Or.inr ⟨(t.length - i).toNat, (i + t.length).toNat, ?_, ?_, by omega, hend,
        hneg⟩)
      · rw [if_neg (by omega), if_pos ⟨hneg, hend⟩]
      · rw [if_neg (by omega), if_pos hneg]
  · rcases lt_or_ge i t.length with hinside | hbogus
    · refine Or.inr (Or.inl ⟨i.toNat, by omega, if_pos ⟨hpos, hinside⟩, ?_, by omega⟩)
      rw [if_neg (by omega), if_neg (by omega)]
    · refine Or.inl ⟨?_, if_pos (Or.inr hbogus), by omega⟩
      rw [if_neg (by omega), if_neg (by omega)]

/-- Writing another character leaves the length honest. -/
theorem Holds.set (hs : s.Holds t) {p : ℕ} (hp : p < t.length) {c : Char} (hc : c ≠ nul) :
    p < s.data.length ∧
      Holds { s with data := s.data.set p c } (t.set p c) := by
  rcases hs.data with ⟨back, hdata⟩
  have hset : s.data.set p c = t.set p c ++ nul :: back := by
    rw [hdata, List.set_append_left _ _ hp]
  refine ⟨by rw [hdata, List.length_append]; omega, ?_, ?_, back, hset⟩
  · intro hmem
    rcases List.mem_or_eq_of_mem_set hmem with hold | hnew
    · exact hs.nul_not_mem hold
    · exact hc hnew.symm
  · rw [List.length_set]
    exact hs.len

end AString

/-! ## One operation -/

theorem Operand.chars_of_own {texts : ℕ → List Char} {x : ℕ} {rhs : Operand}
    (hown : rhs.Own texts x) : rhs.chars texts = texts x := by
  cases rhs with
  | pointer p =>
      cases p with
      | inside y offset =>
          obtain ⟨rfl, rfl | hempty⟩ := hown
          · rfl
          · rw [Operand.chars, Pointer.chars, hempty, List.drop_nil]
      | null => exact hown.elim
      | text t => exact hown.elim
  | char c => exact hown.elim
  | string y =>
      obtain rfl : y = x := hown
      rfl

/-- An operand that is added is no {lit}`NULL` and not the string itself. -/
theorem fine_append_iff {texts : ℕ → List Char} {x : ℕ} {rhs : Operand}
    (hnull : rhs ≠ .pointer .null) (hown : ¬ rhs.Own texts x) :
    Fine texts (.append x rhs) ↔
      ¬ rhs.Into x ∧ (texts x ++ rhs.chars texts).length ≤ intMax :=
  (or_iff_right hnull).trans (or_iff_right hown)

section Store

variable {before : Store} (hbefore : ∀ x, (before x).Honest)

include hbefore

theorem holds_texts (x : ℕ) : (before x).Holds (before.texts x) :=
  (hbefore x).holds

/-- Only the variable that gets a new object matters. -/
theorem update_meets_iff {x : ℕ} {s : AString} {t : List Char} {ref other : Option ℕ} :
    (Outcome.returns (Function.update before x s) ref).Meets
        (some (Function.update before.texts x t, other)) ↔
      s.Holds t ∧ other = ref := by
  have htexts : Store.texts (Function.update before x s) =
      Function.update before.texts x (text nul s.data) := by
    funext y
    by_cases hy : y = x
    · rw [hy, Store.texts, Function.update_self, Function.update_self]
    · rw [Store.texts, Function.update_of_ne hy, Function.update_of_ne hy]
      rfl
  change (_ ∧ some _ = some (Store.texts _, ref)) ↔ _
  rw [htexts]
  constructor
  · rintro ⟨hhonest, heq⟩
    injection Option.some.inj heq with hupdates href
    have hs : s.Honest := by
      have hx := hhonest x
      rwa [Function.update_self] at hx
    have ht : t = text nul s.data := Function.update_injective before.texts x hupdates
    exact ⟨ht ▸ hs.holds, href⟩
  · rintro ⟨hs, rfl⟩
    refine ⟨fun y => ?_, by rw [hs.text_eq]⟩
    by_cases hy : y = x
    · rw [hy, Function.update_self]
      exact hs.honest
    · rw [Function.update_of_ne hy]
      exact hbefore y

/-- An operation that changes nothing. -/
theorem unchanged_meets (ref : Option ℕ) :
    (Outcome.returns before ref).Meets (some (before.texts, ref)) :=
  ⟨hbefore, rfl⟩

theorem put_meets_iff {x size : ℕ} {s : AString} {t : List Char} :
    (before.put x size s).Meets (some (Function.update before.texts x t, none)) ↔
      s.Holds t ∧ size ≤ intMax := by
  unfold Store.put
  split
  · rename_i hsize
    rw [update_meets_iff hbefore]
    exact ⟨fun hs => ⟨hs.1, hsize⟩, fun hs => ⟨hs.1, rfl⟩⟩
  · rename_i hsize
    exact ⟨False.elim, fun hs => hsize hs.2⟩

theorem assign_meets_iff (x : ℕ) (str : List Char) :
    (before.assign x str).Meets (some (Function.update before.texts x (text nul str), none)) ↔
      (text nul str).length < intMax := by
  unfold Store.assign
  rw [put_meets_iff hbefore]
  exact and_iff_right (AString.holds_ofText str)

/-- The text that a pointer leads to. -/
theorem text_memory (p : Pointer) : text nul (before.memory p) = p.chars before.texts := by
  cases p with
  | null => rfl
  | text t => exact text_append_nul t.2 []
  | inside y offset =>
      have hy := holds_texts hbefore y
      have hdropped := hy.text_drop (Nat.min_le_right offset (before.texts y).length)
      rw [Store.memory, hy.len, hdropped, Pointer.chars]
      rcases Nat.le_total offset (before.texts y).length with hle | hge
      · rw [Nat.min_eq_left hle]
      · rw [Nat.min_eq_right hge, List.drop_length, List.drop_eq_nil_of_le hge]

theorem output_eq (parts : List Printed) :
    before.output parts = printedChars before.texts (some parts) :=
  List.flatMap_congr fun part _ => text_memory hbefore part.pointer

theorem isData_iff {x : ℕ} {p : Pointer} :
    before.IsData x p ↔ (Operand.pointer p).Own before.texts x := by
  cases p with
  | inside y offset =>
      refine and_congr_right fun _ => ?_
      rw [(holds_texts hbefore x).len, Nat.min_eq_zero_iff, List.length_eq_zero_iff]
  | null => exact Iff.rfl
  | text t => exact Iff.rfl

theorem assign_memory_iff (x : ℕ) (p : Pointer) :
    (before.assign x (before.memory p)).Meets
        (some (Function.update before.texts x (p.chars before.texts), none)) ↔
      (p.chars before.texts).length < intMax := by
  have hassigned := assign_meets_iff hbefore x (before.memory p)
  rwa [text_memory hbefore] at hassigned

theorem append_meets_iff (x : ℕ) (rhs : List Char) :
    (before.append x rhs).Meets
        (some (Function.update before.texts x (before.texts x ++ text nul rhs), none)) ↔
      (before.texts x ++ text nul rhs).length ≤ intMax := by
  have hx := holds_texts hbefore x
  unfold Store.append
  rw [put_meets_iff hbefore, List.length_append, hx.len]
  exact and_iff_right (hx.append rhs)

/-- The string itself is not assigned. -/
theorem own_assign_meets {x : ℕ} {rhs : Operand} (hown : rhs.Own before.texts x) :
    (Outcome.returns before none).Meets (Op.spec before.texts (.assign x rhs)) := by
  rw [Op.spec, Operand.chars_of_own hown, Function.update_eq_self]
  exact unchanged_meets hbefore none

theorem assign_operand_iff (x : ℕ) (rhs : Operand) :
    Meets before (.assign x rhs) ↔ Fine before.texts (.assign x rhs) := by
  cases rhs with
  | pointer p =>
      change (before.assignPointer x p).Meets _ ↔ _
      unfold Store.assignPointer
      by_cases hown : (Operand.pointer p).Own before.texts x
      · rw [if_pos ((isData_iff hbefore).mpr hown)]
        exact iff_of_true (own_assign_meets hbefore hown) (Or.inl hown)
      · rw [if_neg (mt (isData_iff hbefore).mp hown)]
        refine Iff.trans ?_ (or_iff_right hown).symm
        by_cases hinto : p.Into x
        · rw [if_pos hinto]
          exact iff_of_false id fun hfine => hfine.1 hinto
        · rw [if_neg hinto]
          exact (assign_memory_iff hbefore x p).trans (and_iff_right hinto).symm
  | char c =>
      have hc : text nul [c.1] = [c.1] := text_of_not_mem (by simpa using c.2.symm)
      have hs : (AString.ofText [c.1]).Holds [c.1] := by
        have hcopied := AString.holds_ofText [c.1]
        rwa [hc] at hcopied
      have hassign : AString.ofText [c.1] = AString.assign [c.1] 1 := by
        rw [AString.ofText, hc]
        rfl
      have hsize : 2 ≤ intMax := by decide
      refine (put_meets_iff hbefore).trans (iff_of_true ⟨hassign ▸ hs, hsize⟩ (Or.inr ?_))
      exact ⟨id, hsize⟩
  | string y =>
      have hexec : exec before (.assign x (.string y)) =
          if y = x then .returns before none else before.assign x (before y).data := rfl
      unfold Meets
      rw [hexec]
      by_cases hy : y = x
      · have hown : (Operand.string y).Own before.texts x := hy
        rw [if_pos hy]
        exact iff_of_true (own_assign_meets hbefore hown) (Or.inl hown)
      · rw [if_neg hy]
        refine (assign_meets_iff hbefore x (before y).data).trans ?_
        exact ((or_iff_right hy).trans (and_iff_right id)).symm

/-- The string itself is not added. -/
theorem own_append_meets {x : ℕ} {rhs : Operand} (hown : rhs.Own before.texts x) :
    (Outcome.returns before none).Meets (Op.spec before.texts (.append x rhs)) := by
  rw [Op.spec, if_pos hown]
  exact unchanged_meets hbefore none

theorem append_operand_iff (x : ℕ) (rhs : Operand) :
    Meets before (.append x rhs) ↔ Fine before.texts (.append x rhs) := by
  have hspec : ¬ rhs.Own before.texts x → Op.spec before.texts (.append x rhs) =
      some (Function.update before.texts x (before.texts x ++ rhs.chars before.texts), none) :=
    fun hrhs => if_neg hrhs
  cases rhs with
  | pointer p =>
      change (before.appendPointer x p).Meets _ ↔ _
      unfold Store.appendPointer
      by_cases hnull : p = .null
      · subst hnull
        have hnothing : before.texts x ++ (Operand.pointer .null).chars before.texts =
            before.texts x := List.append_nil _
        rw [if_pos (Or.inl rfl), hspec id, hnothing, Function.update_eq_self]
        exact iff_of_true (unchanged_meets hbefore none) (Or.inl rfl)
      have hoperand : Operand.pointer p ≠ .pointer .null :=
        fun heq => hnull (Operand.pointer.inj heq)
      by_cases hown : (Operand.pointer p).Own before.texts x
      · rw [if_pos (Or.inr ((isData_iff hbefore).mpr hown))]
        exact iff_of_true (own_append_meets hbefore hown) (Or.inr (Or.inl hown))
      · rw [if_neg (not_or.mpr ⟨hnull, mt (isData_iff hbefore).mp hown⟩), hspec hown]
        refine Iff.trans ?_ (fine_append_iff hoperand hown).symm
        by_cases hinto : p.Into x
        · rw [if_pos hinto]
          exact iff_of_false id fun hfine => hfine.1 hinto
        · have happended := append_meets_iff hbefore x (before.memory p)
          rw [text_memory hbefore] at happended
          rw [if_neg hinto]
          exact happended.trans (and_iff_right hinto).symm
  | char c =>
      have hx := holds_texts hbefore x
      unfold Meets
      rw [hspec id]
      refine (put_meets_iff hbefore).trans ?_
      rw [hx.len]
      refine (and_iff_right (hx.push c.2)).trans ?_
      have hlength : (before.texts x ++ (Operand.char c).chars before.texts).length =
          (before.texts x).length + 1 := List.length_append
      rw [fine_append_iff (by simp) id, hlength]
      exact (and_iff_right id).symm
  | string y =>
      have hexec : exec before (.append x (.string y)) =
          if y = x then .returns before none else before.append x (before y).data := rfl
      unfold Meets
      rw [hexec]
      by_cases hy : y = x
      · have hown : (Operand.string y).Own before.texts x := hy
        rw [if_pos hy]
        exact iff_of_true (own_append_meets hbefore hown) (Or.inr (Or.inl hown))
      · have hother : ¬ (Operand.string y).Own before.texts x := hy
        rw [if_neg hy, hspec hother, fine_append_iff (by simp) hother]
        exact (append_meets_iff hbefore x (before y).data).trans (and_iff_right id).symm

theorem format_meets_iff (x : ℕ) (printed : Option (List Printed)) :
    Meets before (.format x printed) ↔ Fine before.texts (.format x printed) := by
  have hempty (hprinted : printedChars before.texts printed = []) :
      (before.assign x [nul]).Meets (Op.spec before.texts (.format x printed)) ↔
        Fine before.texts (.format x printed) := by
    rw [Op.spec, Fine, hprinted]
    refine (assign_meets_iff hbefore x [nul]).trans (iff_of_true (by decide) ⟨by decide, ?_⟩)
    exact Or.inl rfl
  cases printed with
  | none => exact hempty rfl
  | some parts =>
      change (before.vformat x parts).Meets _ ↔ _
      unfold Store.vformat
      rw [output_eq hbefore]
      by_cases hprinted : printedChars before.texts (some parts) = []
      · rw [if_pos hprinted]
        exact hempty hprinted
      rw [if_neg hprinted]
      by_cases hinto : ∃ part ∈ parts, part.pointer.Into x
      · rw [if_pos hinto]
        obtain ⟨part, hpart, hpoints⟩ := hinto
        exact iff_of_false id fun hfine =>
          (or_iff_right hprinted).mp hfine.2 parts rfl part hpart hpoints
      · have hnul : nul ∉ printedChars before.texts (some parts) := by
          rw [← output_eq hbefore, Store.output, List.mem_flatMap]
          rintro ⟨part, -, hmem⟩
          exact nul_not_mem_text nul _ hmem
        have hassigned := assign_meets_iff hbefore x
          (printedChars before.texts (some parts) ++ [nul])
        rw [text_append_nul hnul] at hassigned
        rw [if_neg hinto]
        refine hassigned.trans (and_iff_left (Or.inr ?_)).symm
        rintro _ ⟨⟩ part hpart hpoints
        exact hinto ⟨part, hpart, hpoints⟩

theorem substr_meets_iff (x y : ℕ) (start len : Int) :
    Meets before (.substr x y start len) ↔ Fine before.texts (.substr x y start len) := by
  have hsub := (holds_texts hbefore y).substr start len
  refine (put_meets_iff hbefore).trans (Iff.trans ?_ (and_congr_left fun _ => hsub.2))
  constructor
  · rintro ⟨hs, hsize⟩
    rw [hs.len] at hsize
    exact ⟨hs.honest, hsize⟩
  · rintro ⟨hhonest, hsize⟩
    have hs : ((before y).substr start len).Holds (clip start len (before.texts y)) :=
      hsub.1 ▸ hhonest.holds
    refine ⟨hs, ?_⟩
    rw [hs.len]
    exact hsize

theorem index_meets_iff (x : ℕ) (i : Int) :
    Meets before (.index x i) ↔ Fine before.texts (.index x i) := by
  have hexec : exec before (.index x i) =
      match (before x).index i with
      | some p => .returns before (some p)
      | none => .aborts := rfl
  have hspec : Op.spec before.texts (.index x i) =
      (position i (before.texts x).length).map fun p => (before.texts, some p) := rfl
  unfold Meets
  rw [hexec, hspec]
  rcases (holds_texts hbefore x).index_cases i with ⟨hindex, hposition, hfine⟩ |
    ⟨p, -, hindex, hposition, hfine⟩ | ⟨p, q, hindex, hposition, hne, hend⟩
  · rw [hindex, hposition]
    exact iff_of_true rfl hfine
  · rw [hindex, hposition]
    exact iff_of_true (unchanged_meets hbefore (some p)) hfine
  · rw [hindex, hposition]
    refine iff_of_false ?_ (not_not.mpr hend)
    rintro ⟨-, heq⟩
    injection Option.some.inj heq with _ href
    exact hne (Option.some.inj href).symm

theorem setIndex_meets_iff (x : ℕ) (i : Int) (c : TextChar) :
    Meets before (.setIndex x i c) ↔ Fine before.texts (.setIndex x i c) := by
  have hexec : exec before (.setIndex x i c) =
      match (before x).index i with
      | some p =>
          if p < (before x).data.length then
            .returns (Function.update before x
              { before x with data := (before x).data.set p c.1 }) (some p)
          else .undefined
      | none => .aborts := rfl
  have hspec : Op.spec before.texts (.setIndex x i c) =
      (position i (before.texts x).length).map fun p =>
        (Function.update before.texts x ((before.texts x).set p c.1), some p) := rfl
  have hx := holds_texts hbefore x
  unfold Meets
  rw [hexec, hspec]
  rcases hx.index_cases i with ⟨hindex, hposition, hfine⟩ |
    ⟨p, hp, hindex, hposition, hfine⟩ | ⟨p, q, hindex, hposition, hne, hend⟩
  · rw [hindex, hposition]
    exact iff_of_true rfl hfine
  · have hset := hx.set hp c.2
    rw [hindex, hposition]
    dsimp only
    rw [if_pos hset.1]
    exact iff_of_true ((update_meets_iff hbefore).mpr ⟨hset.2, rfl⟩) hfine
  · rw [hindex, hposition]
    refine iff_of_false ?_ (not_not.mpr hend)
    dsimp only
    split
    · intro hmeets
      have href := ((update_meets_iff hbefore).mp hmeets).2
      exact hne (Option.some.inj href).symm
    · exact id

/-- Which operations on honest strings do what they are for. -/
theorem meets_iff (op : Op) : Meets before op ↔ Fine before.texts op := by
  cases op with
  | construct x str => exact assign_memory_iff hbefore x str
  | copy x y => exact assign_meets_iff hbefore x (before y).data
  | assign x rhs => exact assign_operand_iff hbefore x rhs
  | append x rhs => exact append_operand_iff hbefore x rhs
  | format x printed => exact format_meets_iff hbefore x printed
  | rtrim x =>
      have hs := (holds_texts hbefore x).rtrim
      exact (update_meets_iff hbefore).trans (iff_of_true ⟨hs, rfl⟩ trivial)
  | ltrim x =>
      have hs := (holds_texts hbefore x).ltrim
      exact (update_meets_iff hbefore).trans (iff_of_true ⟨hs, rfl⟩ trivial)
  | substr x y start len => exact substr_meets_iff hbefore x y start len
  | index x i => exact index_meets_iff hbefore x i
  | setIndex x i c => exact setIndex_meets_iff hbefore x i c

end Store

/-! ## Sequences of operations -/

/-- Every operation up to an abort does what it is for. -/
def RunMeets : Store → List Op → Prop
  | _, [] => True
  | before, op :: ops =>
      Meets before op ∧ ∀ after ref, exec before op = .returns after ref → RunMeets after ops

/-- The condition holds of every operation up to a bogus index. -/
def RunFine : (ℕ → List Char) → List Op → Prop
  | _, [] => True
  | texts, op :: ops =>
      Fine texts op ∧ ∀ after ref, op.spec texts = some (after, ref) → RunFine after ops

theorem runMeets_iff_of_honest {before : Store} (hbefore : ∀ x, (before x).Honest)
    (ops : List Op) : RunMeets before ops ↔ RunFine before.texts ops := by
  induction ops generalizing before with
  | nil => exact Iff.rfl
  | cons op ops ih =>
      unfold RunMeets RunFine
      rw [← meets_iff hbefore op]
      refine and_congr_right fun hmeets => ?_
      unfold Meets at hmeets
      cases hexec : exec before op with
      | returns after ref =>
          rw [hexec] at hmeets
          have hafter := ih hmeets.1
          constructor
          · intro hrun texts other hspec
            rw [hmeets.2] at hspec
            cases hspec
            exact hafter.mp (hrun after ref rfl)
          · intro hrun later other hreturns
            cases hreturns
            exact hafter.mpr (hrun after.texts ref hmeets.2)
      | aborts =>
          rw [hexec] at hmeets
          have hnone : op.spec before.texts = none := hmeets
          rw [hnone]
          exact iff_of_true (fun _ _ hreturns => by cases hreturns) fun _ _ hspec => by cases hspec
      | undefined =>
          rw [hexec] at hmeets
          exact hmeets.elim

/-- Every variable is default-constructed. -/
def Store.start : Store :=
  fun _ => AString.ofText [nul]

/-- A sequence of operations keeps all lengths honest and does what it is for exactly if no range
ends behind its string, no index is counted from the end, nothing is read from an array that has
been deleted, and the lengths fit an {lit}`int`. -/
theorem runMeets_iff (ops : List Op) : RunMeets Store.start ops ↔ RunFine (fun _ => []) ops :=
  runMeets_iff_of_honest (fun _ => (AString.holds_ofText [nul]).honest) ops

/-- {lit}`"abc"`. -/
def abc : CText :=
  ⟨"abc".toList, by decide⟩

/-- A range behind the end makes the string longer than its text, an index from the end denotes
no character of the string, and a part of the string cannot be assigned to it. -/
theorem not_runMeets_abc :
    ¬ RunMeets Store.start [.construct 0 (.text abc), .substr 1 0 1 10] ∧
      ¬ RunMeets Store.start [.construct 0 (.text abc), .index 0 (-1)] ∧
      ¬ RunMeets Store.start [.construct 0 (.text abc), .assign 0 (.pointer (.inside 0 1))] := by
  refine ⟨?_, ?_, ?_⟩
  · rintro ⟨-, hrun⟩
    rcases (hrun _ _ rfl).1 with ⟨hhonest, -⟩
    have hlen := (hhonest 1).len
    revert hlen
    decide
  · rintro ⟨-, hrun⟩
    rcases (hrun _ _ rfl).1 with ⟨-, hspec⟩
    have href := congrArg (fun result => result.bind Prod.snd) hspec
    revert href
    decide
  · rintro ⟨-, hrun⟩
    exact (hrun _ _ rfl).1

end Lib
end Apcupsd
