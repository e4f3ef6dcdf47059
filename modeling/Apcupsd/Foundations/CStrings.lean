import Mathlib.Data.List.Infix
import Mathlib.Data.List.TakeWhile
import Mathlib.Data.Nat.Digits.Defs

/-!
# Character strings

The functions of the C library that the drivers use on their texts.  A string is
the list of its characters, without the terminator.

Main results:

- Theorem {lit}`strstr_eq_some_iff`: a search finds the first place at which the
  text begins with the needle.
- Theorem {lit}`sscanfInt_printed`: a number that was printed with leading zeros is read
  back, whatever follows its terminator.
- Theorem {lit}`skipWord_mono`: a word that is looked for from an earlier place on ends no
  later.
-/

namespace Apcupsd
namespace CStrings

/-- A statement about all characters of a text is decided along the text, not along all
characters there are. -/
instance (priority := 2000) decidableForallMem {P : Char → Prop} [DecidablePred P]
    (text : List Char) : Decidable (∀ c ∈ text, P c) :=
  List.decidableBAll P text

/-! ## Searching -/

section Search

variable {α : Type*} [DecidableEq α]

/-- {lit}`strstr`: the rest of the text from the first occurrence of the needle on. -/
def strstr (needle : List α) : List α → Option (List α)
  | [] => if needle = [] then some [] else none
  | c :: text =>
      if needle <+: c :: text then some (c :: text) else strstr needle text

/-- The search stops at the front of the text if the needle is there. -/
theorem strstr_of_isPrefix {needle text : List α} (hstarts : needle <+: text) :
    strstr needle text = some text := by
  cases text with
  | nil => simp [strstr, List.prefix_nil.mp hstarts]
  | cons c text => simp [strstr, hstarts]

theorem strstr_cons_of_not_isPrefix {needle : List α} {c : α} {text : List α}
    (hstarts : ¬ needle <+: c :: text) : strstr needle (c :: text) = strstr needle text :=
  if_neg hstarts

/-- What a search finds is a suffix of the text that begins with the needle, and no
earlier one does. -/
theorem strstr_eq_some_iff {needle text found : List α} :
    strstr needle text = some found ↔
      ∃ front, text = front ++ found ∧ needle <+: found ∧
        ∀ i < front.length, ¬ needle <+: text.drop i := by
  induction text with
  | nil =>
      constructor
      · intro hfound
        rcases ite_eq_iff.mp hfound with ⟨hneedle, hnil⟩ | ⟨-, hnone⟩
        · obtain rfl := Option.some.inj hnil
          exact ⟨[], rfl, hneedle ▸ List.prefix_refl [], by simp⟩
        · cases hnone
      · rintro ⟨front, htext, hstarts, -⟩
        rcases List.append_eq_nil_iff.mp htext.symm with ⟨-, rfl⟩
        exact strstr_of_isPrefix hstarts
  | cons c text ih =>
      by_cases hstarts : needle <+: c :: text
      · rw [strstr_of_isPrefix hstarts]
        constructor
        · rintro ⟨⟩
          exact ⟨[], rfl, hstarts, by simp⟩
        · rintro ⟨front, htext, -, hfirst⟩
          cases front with
          | nil => exact congrArg some htext
          | cons d front => exact absurd hstarts (hfirst 0 (by simp))
      · rw [strstr_cons_of_not_isPrefix hstarts, ih]
        constructor
        · rintro ⟨front, rfl, hfound, hfirst⟩
          refine ⟨c :: front, rfl, hfound, fun i hi => ?_⟩
          cases i with
          | zero => exact hstarts
          | succ i => exact hfirst i (Nat.lt_of_succ_lt_succ hi)
        · rintro ⟨front, htext, hfound, hfirst⟩
          cases front with
          | nil => exact absurd (htext ▸ hfound) hstarts
          | cons d front =>
              rcases List.cons.inj htext with ⟨rfl, rfl⟩
              exact ⟨front, rfl, hfound, fun i hi => hfirst (i + 1) (Nat.succ_lt_succ hi)⟩

omit [DecidableEq α] in
/-- A needle without a character does not reach across it. -/
theorem isPrefix_of_isPrefix_append_cons {needle front rest : List α} {c : α} (hc : c ∉ needle)
    (hstarts : needle <+: front ++ c :: rest) : needle <+: front := by
  rcases List.prefix_or_prefix_of_prefix hstarts (List.prefix_append front (c :: rest)) with
    hfront | ⟨tail, rfl⟩
  · exact hfront
  · cases tail with
    | nil => simp
    | cons d tail =>
        have htail := (List.prefix_append_right_inj front).mp hstarts
        obtain rfl := (List.cons_prefix_cons.mp htail).1
        exact absurd (List.mem_append_right _ List.mem_cons_self) hc

omit [DecidableEq α] in
/-- A needle without a character does not end with it. -/
theorem isInfix_of_isInfix_append_singleton {needle front : List α} {c : α} (hc : c ∉ needle)
    (hinner : needle <:+: front ++ [c]) : needle <:+: front := by
  rcases List.infix_concat_iff.mp hinner with hsuffix | hfront
  · rcases List.suffix_concat_iff.mp hsuffix with rfl | ⟨tail, rfl, -⟩
    · exact List.nil_infix
    · exact absurd (List.mem_append_right _ (List.mem_singleton_self c)) hc
  · exact hfront

/-- A needle that is a part of the front is found there. -/
theorem strstr_append_cons_of_isInfix {needle front : List α} {c : α} (hc : c ∉ needle)
    (hinner : needle <:+: front) (rest : List α) :
    ∃ found, strstr needle (front ++ c :: rest) = some (found ++ c :: rest) ∧
      needle <+: found := by
  induction front with
  | nil =>
      obtain rfl := List.infix_nil.mp hinner
      exact ⟨[], strstr_of_isPrefix (List.nil_prefix), List.nil_prefix⟩
  | cons d front ih =>
      by_cases hstarts : needle <+: d :: front ++ c :: rest
      · exact ⟨d :: front, strstr_of_isPrefix hstarts,
          isPrefix_of_isPrefix_append_cons hc hstarts⟩
      · have hfront : needle <:+: front := by
          rcases List.infix_cons_iff.mp hinner with hhead | htail
          · exact absurd (hhead.trans (List.prefix_append _ _)) hstarts
          · exact htail
        rcases ih hfront with ⟨found, hfound, hneedle⟩
        exact ⟨found, (strstr_cons_of_not_isPrefix hstarts).trans hfound, hneedle⟩

/-- A needle that is no part of the front is found behind it, if it is there. -/
theorem strstr_append_of_not_isInfix {needle front rest : List α} {c : α} (hc : c ∉ needle)
    (hinner : ¬ needle <:+: front ++ [c]) (hrest : needle <+: rest) :
    strstr needle (front ++ c :: rest) = some rest := by
  induction front with
  | nil =>
      have hstarts : ¬ needle <+: c :: rest := by
        intro hstarts
        have hnil := @isPrefix_of_isPrefix_append_cons α needle [] rest c hc hstarts
        exact hinner (hnil.trans List.nil_prefix).isInfix
      exact (strstr_cons_of_not_isPrefix hstarts).trans (strstr_of_isPrefix hrest)
  | cons d front ih =>
      have hstarts : ¬ needle <+: d :: front ++ c :: rest := by
        intro hstarts
        have hfront := isPrefix_of_isPrefix_append_cons hc hstarts
        exact hinner (hfront.trans (List.prefix_append _ _)).isInfix
      exact (strstr_cons_of_not_isPrefix hstarts).trans
        (ih fun hfront => hinner (List.infix_cons hfront))

end Search

/-! ## Numbers as text -/

/-- {lit}`%d`. -/
def decimal (n : Int) : List Char :=
  if n < 0 then '-' :: Nat.toDigits 10 n.natAbs else Nat.toDigits 10 n.natAbs

/-- {lit}`%*d` and {lit}`%0*d`: padded on the left to a least width. -/
def padLeft (pad : Char) (width : ℕ) (text : List Char) : List Char :=
  List.replicate (width - text.length) pad ++ text

/-- {lit}`%X`. -/
def hexadecimal (n : ℕ) : List Char :=
  (Nat.toDigits 16 n).map Char.toUpper

example : padLeft '0' 2 (decimal 7) = "07".toList := by decide

/-- The terminator of a string. -/
def nul : Char := Char.ofNat 0

/-- The string that a memory with these characters holds. -/
def cString (chars : List Char) : List Char :=
  chars.takeWhile (· ≠ nul)

theorem cString_of_notMem {chars : List Char} (hnul : nul ∉ chars) : cString chars = chars := by
  rw [cString, List.takeWhile_eq_self_iff]
  intro c hc
  have hne : c ≠ nul := fun heq => hnul (heq ▸ hc)
  simpa using hne

/-- {lit}`isspace`. -/
def isspace (c : Char) : Bool :=
  c = ' ' || (9 ≤ c.toNat && c.toNat ≤ 13)

/-- A conversion to {lit}`int`. -/
def wrapInt (n : Int) : Int :=
  (BitVec.ofInt 32 n).toInt

theorem wrapInt_of_lt {n : ℕ} (hn : n < 2 ^ 31) : wrapInt n = n := by
  rw [wrapInt, BitVec.toInt_ofInt]
  exact Int.bmod_eq_of_le (by omega) (by omega)

/-- A part is read up to what stops it. -/
theorem takeWhile_append_stop {p : Char → Bool} {front rest : List Char}
    (hfront : ∀ c ∈ front, p c = true) (hrest : ∀ c ∈ rest.head?, p c = false) :
    (front ++ rest).takeWhile p = front := by
  rw [List.takeWhile_append_of_pos hfront]
  cases rest with
  | nil => exact List.append_nil front
  | cons c rest => rw [List.takeWhile_cons, hrest c rfl]; exact List.append_nil front

/-- {lit}`sscanf` with {lit}`%d`: the number at the front of the text, if there is one. -/
def sscanfInt (text : List Char) : Option Int :=
  let number (digits : List Char) : Option Int :=
    if digits = [] then none else some (Nat.ofDigitChars 10 digits 0)
  match text.dropWhile isspace with
  | '-' :: rest => (number (rest.takeWhile Char.isDigit)).map fun n => wrapInt (-n)
  | '+' :: rest => (number (rest.takeWhile Char.isDigit)).map wrapInt
  | rest => (number (rest.takeWhile Char.isDigit)).map wrapInt

/-- Digits up to something that is none are read as the number they denote. -/
theorem sscanfInt_digits {digits rest : List Char} (hdigits : ∀ c ∈ digits, c.isDigit = true)
    (hne : digits ≠ []) (hrest : ∀ c ∈ rest.head?, c.isDigit = false) :
    sscanfInt (digits ++ rest) = some (wrapInt (Nat.ofDigitChars 10 digits 0)) := by
  have htaken := takeWhile_append_stop hdigits hrest
  cases digits with
  | nil => exact absurd rfl hne
  | cons c digits =>
      have hc : c.isDigit = true := hdigits c List.mem_cons_self
      have hbounds : 48 ≤ c.toNat ∧ c.toNat ≤ 57 := by
        simpa [Char.isDigit, UInt32.le_iff_toNat_le] using hc
      have hspace : isspace c = false := by
        have hblank : c ≠ ' ' := by rintro rfl; revert hc; decide
        simp only [isspace, hblank, decide_false, Bool.false_or, Bool.and_eq_false_iff,
          decide_eq_false_iff_not]
        omega
      have hminus : c ≠ '-' := by rintro rfl; revert hc; decide
      have hplus : c ≠ '+' := by rintro rfl; revert hc; decide
      have hdropped : (c :: digits ++ rest).dropWhile isspace = c :: digits ++ rest := by
        simp [hspace]
      unfold sscanfInt
      rw [hdropped]
      dsimp only [List.cons_append]
      split
      · next heq => exact absurd (List.cons.inj heq).1 hminus
      · next heq => exact absurd (List.cons.inj heq).1 hplus
      · rw [← List.cons_append, htaken]
        simp

/-- Leading zeros do not count. -/
theorem ofDigitChars_printed (width n : ℕ) :
    Nat.ofDigitChars 10 (padLeft '0' width (Nat.toDigits 10 n)) 0 = n := by
  rw [padLeft, Nat.ofDigitChars_append, Nat.ofDigitChars_replicate_zero, Nat.mul_zero]
  exact Nat.ofDigitChars_ten_toDigits

/-- A number that was printed with leading zeros is read back, whatever follows its
terminator. -/
theorem sscanfInt_printed {n : ℕ} (hn : n < 2 ^ 31) (width : ℕ) (junk : List Char) :
    sscanfInt (padLeft '0' width (decimal n) ++ nul :: junk) = some (n : Int) := by
  have hdecimal : decimal n = Nat.toDigits 10 n := by simp [decimal]
  have hvalue : Nat.ofDigitChars 10 (padLeft '0' width (decimal n)) 0 = n :=
    hdecimal ▸ ofDigitChars_printed width n
  rw [sscanfInt_digits, hvalue, wrapInt_of_lt hn]
  · intro c hc
    rw [padLeft, hdecimal, List.mem_append] at hc
    rcases hc with hzero | hdigit
    · rw [(List.mem_replicate.mp hzero).2]
      decide
    · exact Nat.isDigit_of_mem_toDigits (by decide) (by decide) hdigit
  · rw [padLeft, hdecimal]
    exact List.append_ne_nil_of_right_ne_nil _ Nat.toDigits_ne_nil
  · intro c hc
    obtain rfl := Option.some.inj hc
    decide

/-! ## Texts of one line -/

/-- A string without a newline. -/
def OneLine (text : List Char) : Prop :=
  ∀ c ∈ text, c ≠ '\n' ∧ c ≠ nul

instance (text : List Char) : Decidable (OneLine text) := by
  unfold OneLine; infer_instance

theorem OneLine.newline_not_mem {text : List Char} (htext : OneLine text) : '\n' ∉ text :=
  fun hmem => (htext _ hmem).1 rfl

theorem OneLine.nul_not_mem {text : List Char} (htext : OneLine text) : nul ∉ text :=
  fun hmem => (htext _ hmem).2 rfl

@[simp]
theorem oneLine_append {front back : List Char} :
    OneLine (front ++ back) ↔ OneLine front ∧ OneLine back :=
  List.forall_mem_append

@[simp]
theorem oneLine_cons {c : Char} {text : List Char} :
    OneLine (c :: text) ↔ (c ≠ '\n' ∧ c ≠ nul) ∧ OneLine text :=
  List.forall_mem_cons

/-- The characters of a number. -/
theorem mem_toDigits {base n : ℕ} (hbase : 1 < base) {c : Char} (hc : c ∈ Nat.toDigits base n) :
    c ∈ "0123456789abcdef*".toList := by
  have hsmall : ∀ d < 16, d.digitChar ∈ "0123456789abcdef*".toList := by decide
  have hdigit (d : ℕ) : d.digitChar ∈ "0123456789abcdef*".toList := by
    by_cases hd : d < 16
    · exact hsmall d hd
    · rw [Nat.digitChar_eq_star.mpr (by omega)]
      decide
  induction n using Nat.strong_induction_on with
  | h n ih =>
      rw [Nat.toDigits_eq_if hbase] at hc
      split_ifs at hc with hlt
      · obtain rfl := List.mem_singleton.mp hc
        exact hdigit n
      · rcases List.mem_append.mp hc with hfront | hlast
        · have hpos : 0 < n := by omega
          exact ih (n / base) (Nat.div_lt_self hpos hbase) hfront
        · obtain rfl := List.mem_singleton.mp hlast
          exact hdigit (n % base)

@[simp]
theorem oneLine_toDigits (n : ℕ) : OneLine (Nat.toDigits 10 n) := by
  intro c hc
  have hall : ∀ c ∈ "0123456789abcdef*".toList, c ≠ '\n' ∧ c ≠ nul := by decide
  exact hall c (mem_toDigits (by decide) hc)

@[simp]
theorem oneLine_decimal (n : Int) : OneLine (decimal n) := by
  unfold decimal
  split_ifs
  · exact oneLine_cons.mpr ⟨by decide, oneLine_toDigits _⟩
  · exact oneLine_toDigits _

@[simp]
theorem oneLine_hexadecimal (n : ℕ) : OneLine (hexadecimal n) := by
  intro c hc
  rcases List.mem_map.mp hc with ⟨digit, hdigit, rfl⟩
  have hall : ∀ c ∈ "0123456789abcdef*".toList, c.toUpper ≠ '\n' ∧ c.toUpper ≠ nul := by decide
  exact hall digit (mem_toDigits (by decide) hdigit)

theorem oneLine_padLeft {pad : Char} (hpad : pad ≠ '\n' ∧ pad ≠ nul) {width : ℕ}
    {text : List Char} (htext : OneLine text) : OneLine (padLeft pad width text) := by
  refine oneLine_append.mpr ⟨fun c hc => ?_, htext⟩
  rw [(List.mem_replicate.mp hc).2]
  exact hpad

/-! ## Words -/

/-- The blanks that {lit}`sscanf` skips before a conversion. -/
def skipSpace (text : List Char) : List Char :=
  text.dropWhile isspace

/-- {lit}`%*s`: what follows the first word, if there is one. -/
def skipWord (text : List Char) : Option (List Char) :=
  if skipSpace text = [] then none
  else some ((skipSpace text).dropWhile fun c => !isspace c)

/-- Where the third word begins, for {lit}`"%*s %*s %s"`. -/
def thirdWord (text : List Char) : Option (List Char) :=
  (skipWord text).bind fun second => (skipWord second).bind fun third =>
    if skipSpace third = [] then none else some (skipSpace third)

/-- The word at the front of a text. -/
def frontWord (text : List Char) : List Char :=
  text.takeWhile fun c => !isspace c

theorem skipSpace_cons_of_isspace {c : Char} (hc : isspace c = true) (text : List Char) :
    skipSpace (c :: text) = skipSpace text :=
  List.dropWhile_cons_of_pos hc

theorem skipSpace_cons_of_not_isspace {c : Char} (hc : isspace c = false) (text : List Char) :
    skipSpace (c :: text) = c :: text := by
  simp [skipSpace, hc]

theorem skipSpace_suffix (text : List Char) : skipSpace text <:+ text :=
  List.dropWhile_suffix isspace

/-- Blanks are skipped. -/
theorem skipSpace_replicate_append (n : ℕ) (text : List Char) :
    skipSpace (List.replicate n ' ' ++ text) = skipSpace text := by
  refine List.dropWhile_append_of_pos fun c hc => ?_
  rw [(List.mem_replicate.mp hc).2]
  rfl

/-- A text with a word in it ends the skipping. -/
theorem skipSpace_append {front : List Char} (hword : ∃ c ∈ front, isspace c = false)
    (rest : List Char) : skipSpace (front ++ rest) = skipSpace front ++ rest := by
  rcases hword with ⟨c, hc, hspace⟩
  have hne : skipSpace front ≠ [] := by
    intro hnil
    have hall := List.dropWhile_eq_nil_iff.mp hnil c hc
    rw [hspace] at hall
    cases hall
  rw [skipSpace, List.dropWhile_append, if_neg]
  · rfl
  · exact fun hempty => hne (List.isEmpty_iff.mp hempty)

/-- Skipping takes away the rest of a text that has no word. -/
theorem skipSpace_append_of_isspace {front : List Char} (hspace : ∀ c ∈ front, isspace c = true)
    (rest : List Char) : skipSpace (front ++ rest) = skipSpace rest :=
  List.dropWhile_append_of_pos hspace

/-- From an earlier place on, the first word begins no later. -/
theorem skipSpace_mono {early late : List Char} (hsuffix : late <:+ early) :
    skipSpace late <:+ skipSpace early := by
  induction early with
  | nil =>
      obtain rfl := List.suffix_nil.mp hsuffix
      exact List.suffix_refl _
  | cons c early ih =>
      rcases List.suffix_cons_iff.mp hsuffix with rfl | hlater
      · exact List.suffix_refl _
      · cases hc : isspace c with
        | true => exact skipSpace_cons_of_isspace hc early ▸ ih hlater
        | false =>
            rw [skipSpace_cons_of_not_isspace hc]
            exact (skipSpace_suffix late).trans (hlater.trans (List.suffix_cons c early))

/-- A word, and what follows it. -/
theorem skipWord_append_space {word : List Char} (hword : ∀ c ∈ word, isspace c = false)
    (hne : word ≠ []) {c : Char} (hc : isspace c = true) (rest : List Char) :
    skipWord (word ++ c :: rest) = some (c :: rest) := by
  cases word with
  | nil => exact absurd rfl hne
  | cons d word =>
      have hd : isspace d = false := hword d List.mem_cons_self
      have hskip : skipSpace (d :: word ++ c :: rest) = d :: word ++ c :: rest :=
        skipSpace_cons_of_not_isspace hd _
      have hdrop : (d :: word ++ c :: rest).dropWhile (fun c => !isspace c) = c :: rest := by
        rw [List.dropWhile_append_of_pos (fun a ha => by simp [hword a ha])]
        exact List.dropWhile_cons_of_neg (by simp [hc])
      rw [skipWord, hskip, hdrop, if_neg (by simp)]

theorem skipWord_cons_of_isspace {c : Char} (hc : isspace c = true) (text : List Char) :
    skipWord (c :: text) = skipWord text := by
  rw [skipWord, skipSpace_cons_of_isspace hc, skipWord]

/-- The first word of a text ends where its line does, or before. -/
theorem skipWord_append {front : List Char} (hword : ∃ c ∈ front, isspace c = false) {c : Char}
    (hc : isspace c = true) (rest : List Char) :
    ∃ after, skipWord (front ++ c :: rest) = some after ∧ c :: rest <:+ after := by
  have hskip := skipSpace_append hword (c :: rest)
  refine ⟨(skipSpace front ++ c :: rest).dropWhile fun c => !isspace c, ?_, ?_⟩
  · rw [skipWord, hskip, if_neg (by simp)]
  · rw [List.dropWhile_append]
    split_ifs
    · rw [List.dropWhile_cons_of_neg (by simp [hc])]
    · exact List.suffix_append _ _

/-- From an earlier place on, the first word ends no later. -/
theorem skipWord_mono {early late after : List Char} (hsuffix : late <:+ early)
    (hlate : skipWord late = some after) :
    ∃ earlier, skipWord early = some earlier ∧ after <:+ earlier := by
  induction early with
  | nil =>
      obtain rfl := List.suffix_nil.mp hsuffix
      exact ⟨after, hlate, List.suffix_refl _⟩
  | cons c early ih =>
      rcases List.suffix_cons_iff.mp hsuffix with rfl | hlater
      · exact ⟨after, hlate, List.suffix_refl _⟩
      · rcases ih hlater with ⟨earlier, hearlier, hafter⟩
        cases hc : isspace c with
        | true => exact ⟨earlier, (skipWord_cons_of_isspace hc early).trans hearlier, hafter⟩
        | false =>
            -- The word that begins here ends before the blank, or is the next one.
            refine ⟨early.dropWhile fun c => !isspace c, ?_, ?_⟩
            · rw [skipWord, skipSpace_cons_of_not_isspace hc, if_neg (by simp)]
              exact congrArg some (List.dropWhile_cons_of_pos (by simp [hc]))
            · refine hafter.trans ?_
              have hskipped := (ite_eq_iff.mp hearlier).resolve_left (by simp)
              rw [← Option.some.inj hskipped.2]
              cases early with
              | nil => exact List.suffix_refl _
              | cons d early =>
                  cases hd : isspace d with
                  | true =>
                      rw [skipSpace_cons_of_isspace hd]
                      refine ((List.dropWhile_suffix _).trans (skipSpace_suffix early)).trans ?_
                      rw [List.dropWhile_cons_of_neg (by simp [hd])]
                      exact List.suffix_cons d early
                  | false =>
                      rw [skipSpace_cons_of_not_isspace hd]

/-- A word ends at a blank. -/
theorem frontWord_append_space (front : List Char) {c : Char} (hc : isspace c = true)
    (rest : List Char) : frontWord (front ++ c :: rest) = frontWord front := by
  induction front with
  | nil => simp [frontWord, hc]
  | cons d front ih =>
      unfold frontWord at ih ⊢
      cases hd : isspace d with
      | true => simp [hd]
      | false => simpa [hd] using ih

theorem skipWord_suffix {text after : List Char} (hafter : skipWord text = some after) :
    after <:+ text := by
  rcases ite_eq_iff.mp hafter with ⟨-, hnone⟩ | ⟨-, hsome⟩
  · cases hnone
  · exact Option.some.inj hsome ▸ (List.dropWhile_suffix _).trans (skipSpace_suffix text)

theorem thirdWord_suffix {text third : List Char} (hthird : thirdWord text = some third) :
    third <:+ text := by
  rcases Option.bind_eq_some_iff.mp hthird with ⟨second, hsecond, hrest⟩
  rcases Option.bind_eq_some_iff.mp hrest with ⟨left, hleft, hword⟩
  rcases ite_eq_iff.mp hword with ⟨-, hnone⟩ | ⟨-, hsome⟩
  · cases hnone
  · have hskipped := (skipSpace_suffix left).trans (skipWord_suffix hleft)
    exact Option.some.inj hsome ▸ hskipped.trans (skipWord_suffix hsecond)

end CStrings
end Apcupsd
