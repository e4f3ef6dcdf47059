import Apcupsd.Config.Settings
import Apcupsd.Core.TextNumbers
import Mathlib.Data.List.DropRight

/-!
# A line of the configuration

{lit}`ParseConfig` from {lit}`apcconfig.c` and the handlers of its table.  A line is a text of
at most 255 characters.  What C leaves undefined, the value of a variable that nothing has been
assigned to and of a number that does not fit an {lit}`int`, is a parameter.

Main results:

- Theorem {lit}`Handler.run_spec`: a handler that finds a value stores exactly this value.
- Theorem {lit}`applied_whole_iff`: a line is applied whole or not at all exactly if its directive
  has a value, and the value fits.
-/

namespace Apcupsd
namespace Config

open CStrings

/-! ## The functions of the C library -/

/-- What C does not define: the contents of the local variables, and the result of a conversion
that does not fit. -/
structure Undefined where
  int : Int
  word : List Char
  overflow : Int → Int

/-- A number that an {lit}`int` can hold. -/
def FitsInt (n : Int) : Prop :=
  -2 ^ 31 ≤ n ∧ n < 2 ^ 31

instance (n : Int) : Decidable (FitsInt n) :=
  inferInstanceAs (Decidable (_ ∧ _))

/-- {lit}`sscanf(v, "%d", &x)`: its result, and {lit}`x`.  At the end of the text the result
is {lit}`EOF`. -/
def sscanfD (und : Undefined) (v : List Char) : Int × Int :=
  let (negative, body) := splitSign (skipSpace v)
  let digits := body.takeWhile Char.isDigit
  let n : Int := if negative then -ofDigits 10 digits else ofDigits 10 digits
  if skipSpace v = [] then (-1, und.int)
  else if digits = [] then (0, und.int)
  else (1, if FitsInt n then n else und.overflow n)

/-- {lit}`sscanf(v, "%s", x)`. -/
def sscanfS (und : Undefined) (v : List Char) : Int × List Char :=
  if skipSpace v = [] then (-1, und.word) else (1, frontWord (skipSpace v))

/-- {lit}`strlcpy`. -/
def strlcpy (text : List Char) (size : ℕ) : List Char :=
  text.take (size - 1)

/-! ## The handlers -/

/-- {lit}`SUCCESS` and {lit}`FAILURE`. -/
inductive Outcome where
  | success
  | failure
deriving DecidableEq, Repr

/-- {lit}`match_int`. -/
def matchInt (und : Undefined) (settings : Settings) (field : IntSetting) (v : List Char) :
    Outcome × Settings :=
  let (result, x) := sscanfD und v
  if result ≠ 0 then (.success, settings.setInt field x) else (.failure, settings)

/-- The search for a name. -/
def lookup (values : List GenInfo) (x : List Char) : Option GenInfo :=
  values.find? fun entry => SameWord x entry.name

/-- {lit}`match_range`. -/
def matchRange (und : Undefined) (settings : Settings) (field : ChoiceSetting)
    (values : List GenInfo) (v : List Char) : Outcome × Settings :=
  let (result, x) := sscanfS und v
  if result = 0 then (.failure, settings)
  else match lookup values x with
    | none => (.failure, settings)
    | some entry => (.success, settings.setChoice field
        { type := entry.type
          name := strlcpy entry.name maxString
          longName := strlcpy entry.longName maxString })

/-- {lit}`match_index`. -/
def matchIndex (und : Undefined) (settings : Settings) (field : IntSetting)
    (values : List GenInfo) (v : List Char) : Outcome × Settings :=
  let (result, x) := sscanfS und v
  if result = 0 then (.failure, settings)
  else match lookup values x with
    | none => (.failure, settings)
    | some entry => (.success, settings.setInt field entry.type)

/-- {lit}`match_str`: up to a comment, without the blanks before it. -/
def matchStr (settings : Settings) (field : StringSetting) (v : List Char) : Outcome × Settings :=
  let x := ((strlcpy v maxString).takeWhile (· ≠ '#')).rdropWhile isspace
  (.success, settings.setString field (strlcpy x field.size))

/-- {lit}`match_facility`. -/
def matchFacility (und : Undefined) (settings : Settings) (v : List Char) : Outcome × Settings :=
  let (result, x) := sscanfS und v
  if result = 0 then (.failure, settings)
  else match facnames.find? fun facility => SameWord facility.1 x with
    | none => (.failure, settings)
    | some facility => (.success, { settings with sysfac := facility.2 })

/-- {lit}`p->handler`; an obsolete directive is an error or is ignored. -/
def Handler.run (und : Undefined) (settings : Settings) (handler : Handler) (v : List Char) :
    Outcome × Settings :=
  match handler with
  | .matchStr field => Config.matchStr settings field v
  | .matchInt field => Config.matchInt und settings field v
  | .matchRange field values => Config.matchRange und settings field values v
  | .matchIndex field values => Config.matchIndex und settings field values v
  | .matchFacility => Config.matchFacility und settings v
  | .obsolete bailOut => (if bailOut then .failure else .success, settings)

/-! ## The line -/

/-- The first word of a line, in capitals. -/
def keyOf (line : List Char) : List Char :=
  (frontWord (skipSpace line)).map Char.toUpper

/-- What follows the first word and the blanks behind it. -/
def valueOf (line : List Char) : List Char :=
  skipSpace ((skipSpace line).dropWhile fun c => !isspace c)

/-- {lit}`ParseConfig`. -/
def parseConfig (und : Undefined) (settings : Settings) (line : List Char) : Outcome × Settings :=
  if skipSpace line = [] ∨ (skipSpace line).head? = some '#' then (.success, settings)
  else match table.find? fun pair => pair.1 = keyOf line with
    | none => (.failure, settings)
    | some pair => pair.2.run und settings (valueOf line)

/-- The directive of a line, if it is neither blank nor a comment. -/
def directive (line : List Char) : Option Handler :=
  if skipSpace line = [] ∨ (skipSpace line).head? = some '#' then none
  else (table.find? fun pair => pair.1 = keyOf line).map Prod.snd

/-! ## What a line says -/

/-- A text that begins with an integer, and with no longer one. -/
def BeginsWithInt (text : List Char) (n : Int) : Prop :=
  ∃ sign digits rest, text = sign ++ digits ++ rest ∧ digits ≠ [] ∧
    (∀ c ∈ digits, c.isDigit = true) ∧ (∀ c ∈ rest.head?, c.isDigit = false) ∧
    (sign = ['-'] ∧ n = -ofDigits 10 digits ∨
      (sign = ['+'] ∨ sign = []) ∧ n = ofDigits 10 digits)

/-- A text whose first word is a name. -/
def BeginsWithName (text name : List Char) : Prop :=
  ∃ word rest, text = word ++ rest ∧ SameWord word name ∧ (∀ c ∈ word, isspace c = false) ∧
    ∀ c ∈ rest.head?, isspace c = true

/-- A directive with an integer, choice or on/off value. -/
def Handler.Valued : Handler → Bool
  | .matchInt _ => true
  | .matchRange _ _ => true
  | .matchIndex _ _ => true
  | .matchFacility => true
  | .matchStr _ => false
  | .obsolete _ => false

/-- The value at the front of a text is stored, and nothing else changes. -/
def Handler.Stores (settings : Settings) (handler : Handler) (v : List Char)
    (stored : Settings) : Prop :=
  match handler with
  | .matchInt field => ∃ n, BeginsWithInt v n ∧ stored = settings.setInt field n
  | .matchRange field values =>
      ∃ entry ∈ values, BeginsWithName v entry.name ∧ stored = settings.setChoice field entry
  | .matchIndex field values =>
      ∃ entry ∈ values, BeginsWithName v entry.name ∧ stored = settings.setInt field entry.type
  | .matchFacility =>
      ∃ facility ∈ facnames, BeginsWithName v facility.1 ∧
        stored = { settings with sysfac := facility.2 }
  | .matchStr _ => True
  | .obsolete _ => True

/-- A line is applied whole or not at all. -/
structure AppliedWhole (und : Undefined) (settings : Settings) (line : List Char) : Prop where
  failure : (parseConfig und settings line).1 = .failure →
    (parseConfig und settings line).2 = settings
  stored : ∀ handler, directive line = some handler → handler.Valued = true →
    (parseConfig und settings line).1 = .success →
      handler.Stores settings (valueOf line) (parseConfig und settings line).2
  missing : ∀ handler, directive line = some handler → handler.Valued = true →
    valueOf line = [] → (parseConfig und settings line).1 = .failure
  determinate : ∀ other, parseConfig other settings line = parseConfig und settings line

/-- The value of a directive is there, and a number fits. -/
def Handler.HasValue : Handler → List Char → Prop
  | .matchInt _, v => v ≠ [] ∧ ∀ n, BeginsWithInt v n → FitsInt n
  | .matchRange _ _, v => v ≠ []
  | .matchIndex _ _, v => v ≠ []
  | .matchFacility, v => v ≠ []
  | .matchStr _, _ => True
  | .obsolete _, _ => True

/-! ## Reading a value -/

/-- What stops the digits, or a word. -/
theorem head?_dropWhile_stop (p : Char → Bool) (text : List Char) :
    ∀ c ∈ (text.dropWhile p).head?, p c = false := by
  intro c hc
  have hhead := List.head?_dropWhile_not p text
  rw [Option.mem_def.mp hc] at hhead
  simpa using hhead

/-- A digit is no sign. -/
theorem splitSign_of_isDigit {c : Char} (hc : c.isDigit = true) (rest : List Char) :
    splitSign (c :: rest) = (false, c :: rest) := by
  unfold splitSign
  split
  · next heq => obtain ⟨rfl, -⟩ := List.cons.inj heq; exact absurd hc (by decide)
  · next heq => obtain ⟨rfl, -⟩ := List.cons.inj heq; exact absurd hc (by decide)
  · rfl

/-- The integer that {lit}`sscanf` reads. -/
theorem beginsWithInt_iff {text : List Char} {n : Int} :
    BeginsWithInt text n ↔ (splitSign text).2.takeWhile Char.isDigit ≠ [] ∧
      n = if (splitSign text).1 then
          -(ofDigits 10 ((splitSign text).2.takeWhile Char.isDigit) : Int)
        else ofDigits 10 ((splitSign text).2.takeWhile Char.isDigit) := by
  constructor
  · rintro ⟨sign, digits, rest, rfl, hne, hdigits, hrest, hvalue⟩
    have htake := takeWhile_append_stop hdigits hrest
    rcases hvalue with ⟨rfl, rfl⟩ | ⟨rfl | rfl, rfl⟩
    · rw [List.append_assoc, List.singleton_append, splitSign, htake]
      exact ⟨hne, rfl⟩
    · rw [List.append_assoc, List.singleton_append, splitSign, htake]
      exact ⟨hne, rfl⟩
    · obtain ⟨c, digits, rfl⟩ := List.exists_cons_of_ne_nil hne
      have hsign := splitSign_of_isDigit (hdigits c List.mem_cons_self) (digits ++ rest)
      rw [List.cons_append] at htake
      rw [List.nil_append, List.cons_append, hsign, htake]
      exact ⟨hne, rfl⟩
  · rintro ⟨hne, hvalue⟩
    have hsplit (body : List Char) : body =
        body.takeWhile Char.isDigit ++ body.dropWhile Char.isDigit :=
      List.takeWhile_append_dropWhile.symm
    have hdigits (body : List Char) : ∀ c ∈ body.takeWhile Char.isDigit, c.isDigit = true :=
      fun c hc => List.mem_takeWhile_imp hc
    have hrest := head?_dropWhile_stop Char.isDigit (splitSign text).2
    refine ⟨text.take (text.length - (splitSign text).2.length), _, _, ?_, hne, hdigits _, hrest,
      ?_⟩
    · rw [List.append_assoc, ← hsplit]
      unfold splitSign
      split <;> simp
    · revert hvalue
      unfold splitSign
      split
      · intro hvalue
        exact Or.inl ⟨by simp, hvalue⟩
      · intro hvalue
        exact Or.inr ⟨Or.inl (by simp), hvalue⟩
      · intro hvalue
        exact Or.inr ⟨Or.inr (by simp), hvalue⟩

theorem BeginsWithInt.unique {text : List Char} {m n : Int} (hm : BeginsWithInt text m)
    (hn : BeginsWithInt text n) : m = n := by
  rw [(beginsWithInt_iff.mp hm).2, (beginsWithInt_iff.mp hn).2]

/-- The value of a line has no blanks in front. -/
theorem skipSpace_valueOf (line : List Char) : skipSpace (valueOf line) = valueOf line :=
  List.dropWhile_idempotent ..

/-- The cases of a conversion to an integer, for a text without blanks in front. -/
theorem sscanfD_cases (und : Undefined) {v : List Char} (hv : skipSpace v = v) :
    (v = [] ∧ sscanfD und v = (-1, und.int)) ∨
    (v ≠ [] ∧ (∀ n, ¬ BeginsWithInt v n) ∧ sscanfD und v = (0, und.int)) ∨
    ∃ n, v ≠ [] ∧ BeginsWithInt v n ∧
      sscanfD und v = (1, if FitsInt n then n else und.overflow n) := by
  unfold sscanfD
  rw [hv]
  by_cases hnil : v = []
  · exact Or.inl ⟨hnil, if_pos hnil⟩
  · by_cases hdigits : (splitSign v).2.takeWhile Char.isDigit = []
    · exact Or.inr (Or.inl ⟨hnil, fun n hn => (beginsWithInt_iff.mp hn).1 hdigits, by
        simp only [if_neg hnil, if_pos hdigits]⟩)
    · exact Or.inr (Or.inr ⟨_, hnil, beginsWithInt_iff.mpr ⟨hdigits, rfl⟩, by
        simp only [if_neg hnil, if_neg hdigits]⟩)

/-- The word at the front of a value. -/
theorem beginsWithName_of_sameWord {v name : List Char} (hsame : SameWord (frontWord v) name) :
    BeginsWithName v name := by
  refine ⟨frontWord v, v.dropWhile fun c => !isspace c, List.takeWhile_append_dropWhile.symm,
    hsame, fun c hc => ?_, fun c hc => ?_⟩
  · simpa using List.mem_takeWhile_imp hc
  · simpa using head?_dropWhile_stop _ v c hc

/-! ## Handlers that look up a word -/

/-- What a handler makes of the settings for a word, if the word is in its list. -/
def Handler.chosen (settings : Settings) : Handler → List Char → Option Settings
  | .matchRange field values, x => (lookup values x).map fun entry => settings.setChoice field
      { type := entry.type
        name := strlcpy entry.name maxString
        longName := strlcpy entry.longName maxString }
  | .matchIndex field values, x => (lookup values x).map fun entry =>
      settings.setInt field entry.type
  | .matchFacility, x => (facnames.find? fun facility => SameWord facility.1 x).map fun facility =>
      { settings with sysfac := facility.2 }
  | _, _ => none

/-- A handler that looks up a word. -/
def Handler.Choice : Handler → Prop
  | .matchRange _ _ => True
  | .matchIndex _ _ => True
  | .matchFacility => True
  | _ => False

/-- They all read a word and look it up. -/
theorem Handler.run_choice {handler : Handler} (hchoice : handler.Choice) (und : Undefined)
    (settings : Settings) (v : List Char) :
    handler.run und settings v =
      if (sscanfS und v).1 = 0 then (.failure, settings)
      else match handler.chosen settings (sscanfS und v).2 with
        | none => (.failure, settings)
        | some stored => (.success, stored) := by
  cases handler with
  | matchRange field values =>
      simp only [Handler.run, Config.matchRange, Handler.chosen]
      cases lookup values (sscanfS und v).2 <;> rfl
  | matchIndex field values =>
      simp only [Handler.run, Config.matchIndex, Handler.chosen]
      cases lookup values (sscanfS und v).2 <;> rfl
  | matchFacility =>
      simp only [Handler.run, Config.matchFacility, Handler.chosen]
      cases facnames.find? fun facility => SameWord facility.1 (sscanfS und v).2 <;> rfl
  | matchStr field => exact hchoice.elim
  | matchInt field => exact hchoice.elim
  | obsolete bailOut => exact hchoice.elim

/-- The entry that is found is one of the list, and has the name. -/
theorem lookup_eq_some {values : List GenInfo} {x : List Char} {entry : GenInfo}
    (hfound : lookup values x = some entry) : entry ∈ values ∧ SameWord x entry.name :=
  ⟨List.mem_of_find?_eq_some hfound, by simpa using List.find?_some hfound⟩

theorem strlcpy_of_lt {text : List Char} {size : ℕ} (hfits : text.length < size) :
    strlcpy text size = text :=
  List.take_of_length_le (by omega)

/-- What is chosen for the word at the front of a value is stored for this value. -/
theorem Handler.stores_of_chosen {handler : Handler} (hwell : handler.WellFormed)
    {settings stored : Settings} {v : List Char}
    (hchosen : handler.chosen settings (frontWord v) = some stored) :
    handler.Stores settings v stored := by
  cases handler with
  | matchRange field values =>
      obtain ⟨entry, hfound, rfl⟩ := Option.map_eq_some_iff.mp hchosen
      obtain ⟨hmem, hname⟩ := lookup_eq_some hfound
      obtain ⟨hname', hlong⟩ := hwell.2 entry hmem
      refine ⟨entry, hmem, beginsWithName_of_sameWord hname, ?_⟩
      rw [strlcpy_of_lt hname', strlcpy_of_lt hlong]
  | matchIndex field values =>
      obtain ⟨entry, hfound, rfl⟩ := Option.map_eq_some_iff.mp hchosen
      obtain ⟨hmem, hname⟩ := lookup_eq_some hfound
      exact ⟨entry, hmem, beginsWithName_of_sameWord hname, rfl⟩
  | matchFacility =>
      obtain ⟨facility, hfound, rfl⟩ := Option.map_eq_some_iff.mp hchosen
      have hname : SameWord facility.1 (frontWord v) := by simpa using List.find?_some hfound
      exact ⟨facility, List.mem_of_find?_eq_some hfound,
        beginsWithName_of_sameWord hname.symm, rfl⟩
  | matchStr field => trivial
  | matchInt field => cases hchosen
  | obsolete bailOut => trivial

/-- Every list has a word that is found in it. -/
theorem Handler.exists_chosen {handler : Handler} (hchoice : handler.Choice)
    (hwell : handler.WellFormed) (settings : Settings) :
    ∃ word stored, handler.chosen settings word = some stored := by
  have hlookup {values : List GenInfo} (hnamed : WellNamed (values.map GenInfo.name)) :
      ∃ word entry, lookup values word = some entry := by
    obtain ⟨entry, rest, rfl⟩ := List.exists_cons_of_ne_nil (mt List.map_eq_nil_iff.mpr
      hnamed.nonempty)
    exact ⟨entry.name, entry, List.find?_cons_of_pos (by simp [SameWord])⟩
  cases handler with
  | matchRange field values =>
      obtain ⟨word, entry, hfound⟩ := hlookup hwell.1
      exact ⟨word, _, congrArg (Option.map _) hfound⟩
  | matchIndex field values =>
      obtain ⟨word, entry, hfound⟩ := hlookup hwell
      exact ⟨word, _, congrArg (Option.map _) hfound⟩
  | matchFacility => exact ⟨"daemon".toList, _, rfl⟩
  | matchStr field => exact hchoice.elim
  | matchInt field => exact hchoice.elim
  | obsolete bailOut => exact hchoice.elim

/-! ## All handlers -/

/-- A handler that fails has stored nothing. -/
theorem Handler.run_failure {und : Undefined} {settings : Settings} {handler : Handler}
    {v : List Char} (hfailure : (handler.run und settings v).1 = .failure) :
    (handler.run und settings v).2 = settings := by
  have hchosen (hchoice : handler.Choice) : (handler.run und settings v).2 = settings := by
    rw [Handler.run_choice hchoice] at hfailure ⊢
    split at hfailure
    · next hzero => rw [if_pos hzero]
    · next hzero =>
        rw [if_neg hzero]
        cases hstored : handler.chosen settings (sscanfS und v).2 with
        | none => rfl
        | some stored => rw [hstored] at hfailure; cases hfailure
  cases handler with
  | matchRange field values => exact hchosen trivial
  | matchIndex field values => exact hchosen trivial
  | matchFacility => exact hchosen trivial
  | matchInt field =>
      simp only [Handler.run, Config.matchInt] at hfailure ⊢
      split at hfailure
      · cases hfailure
      · next hzero => rw [if_neg hzero]
  | matchStr field => cases hfailure
  | obsolete bailOut => rfl

/-- A handler whose value is there and fits stores exactly this value or fails, whatever the
variables hold. -/
theorem Handler.run_spec (settings : Settings) {handler : Handler} {v : List Char}
    (hwell : handler.WellFormed) (hv : skipSpace v = v) (hvalue : handler.HasValue v) :
    ∃ outcome stored, (∀ und, handler.run und settings v = (outcome, stored)) ∧
      (outcome = .success → handler.Stores settings v stored) := by
  have hchosen (hchoice : handler.Choice) (hne : v ≠ []) :
      ∃ outcome stored, (∀ und, handler.run und settings v = (outcome, stored)) ∧
        (outcome = .success → handler.Stores settings v stored) := by
    have hscan (und : Undefined) : sscanfS und v = (1, frontWord v) := by
      rw [sscanfS, hv, if_neg hne]
    have hrun (und : Undefined) := Handler.run_choice hchoice und settings v
    simp only [hscan, one_ne_zero, if_false] at hrun
    cases hfound : handler.chosen settings (frontWord v) with
    | none =>
        rw [hfound] at hrun
        exact ⟨.failure, settings, hrun, fun hsuccess => by cases hsuccess⟩
    | some stored =>
        rw [hfound] at hrun
        exact ⟨.success, stored, hrun, fun _ => Handler.stores_of_chosen hwell hfound⟩
  cases handler with
  | matchRange field values => exact hchosen trivial hvalue
  | matchIndex field values => exact hchosen trivial hvalue
  | matchFacility => exact hchosen trivial hvalue
  | matchInt field =>
      have hcases (und : Undefined) := sscanfD_cases und hv
      by_cases hint : ∃ n, BeginsWithInt v n
      · obtain ⟨n, hn⟩ := hint
        refine ⟨.success, settings.setInt field n, fun und => ?_, fun _ => ⟨n, hn, rfl⟩⟩
        rcases hcases und with ⟨hnil, -⟩ | ⟨-, hnone, -⟩ | ⟨m, -, hm, hscan⟩
        · exact absurd hnil hvalue.1
        · exact absurd hn (hnone n)
        · rw [hm.unique hn, if_pos (hvalue.2 n hn)] at hscan
          simp [Handler.run, Config.matchInt, hscan]
      · refine ⟨.failure, settings, fun und => ?_, fun hsuccess => by cases hsuccess⟩
        rcases hcases und with ⟨hnil, -⟩ | ⟨-, -, hscan⟩ | ⟨m, -, hm, -⟩
        · exact absurd hnil hvalue.1
        · simp [Handler.run, Config.matchInt, hscan]
        · exact absurd ⟨m, hm⟩ hint
  | matchStr field => exact ⟨_, _, fun _ => rfl, fun _ => trivial⟩
  | obsolete bailOut => exact ⟨_, _, fun _ => rfl, fun _ => trivial⟩

/-! ## Lines -/

/-- A line with a directive is what its handler makes of the value. -/
theorem parseConfig_of_directive {line : List Char} {handler : Handler}
    (hdirective : directive line = some handler) (und : Undefined) (settings : Settings) :
    parseConfig und settings line = handler.run und settings (valueOf line) := by
  unfold directive at hdirective
  unfold parseConfig
  split at hdirective
  · cases hdirective
  · next hkey =>
      obtain ⟨pair, hfound, rfl⟩ := Option.map_eq_some_iff.mp hdirective
      rw [if_neg hkey, hfound]

/-- A line without one changes nothing. -/
theorem parseConfig_of_no_directive {line : List Char} (hdirective : directive line = none) :
    ∃ outcome, ∀ (und : Undefined) (settings : Settings),
      parseConfig und settings line = (outcome, settings) := by
  unfold directive at hdirective
  by_cases hkey : skipSpace line = [] ∨ (skipSpace line).head? = some '#'
  · exact ⟨.success, fun und settings => by rw [parseConfig, if_pos hkey]⟩
  · rw [if_neg hkey] at hdirective
    refine ⟨.failure, fun und settings => ?_⟩
    rw [parseConfig, if_neg hkey, Option.map_eq_none_iff.mp hdirective]

theorem wellFormed_of_directive {line : List Char} {handler : Handler}
    (hdirective : directive line = some handler) : handler.WellFormed := by
  unfold directive at hdirective
  split at hdirective
  · cases hdirective
  · obtain ⟨pair, hfound, rfl⟩ := Option.map_eq_some_iff.mp hdirective
    exact table_wellFormed pair (List.mem_of_find?_eq_some hfound)

/-- A handler without a value takes what its variable happens to hold. -/
theorem Handler.run_missing {handler : Handler} (hvalued : handler.Valued = true)
    (hwell : handler.WellFormed) (settings : Settings) :
    ∃ und, (handler.run und settings []).1 = .success := by
  have hchosen (hchoice : handler.Choice) : ∃ und, (handler.run und settings []).1 = .success := by
    obtain ⟨word, stored, hfound⟩ := Handler.exists_chosen hchoice hwell settings
    refine ⟨⟨0, word, id⟩, ?_⟩
    rw [Handler.run_choice hchoice]
    simp [sscanfS, skipSpace, hfound]
  cases handler with
  | matchRange field values => exact hchosen trivial
  | matchIndex field values => exact hchosen trivial
  | matchFacility => exact hchosen trivial
  | matchInt field =>
      exact ⟨⟨0, [], id⟩, by simp [Handler.run, Config.matchInt, sscanfD, skipSpace]⟩
  | matchStr field => cases hvalued
  | obsolete bailOut => cases hvalued

/-- Nothing is no value. -/
theorem Handler.not_hasValue_nil {handler : Handler} (hvalued : handler.Valued = true) :
    ¬ handler.HasValue [] := by
  cases handler with
  | matchRange field values => exact fun hhas => hhas rfl
  | matchIndex field values => exact fun hhas => hhas rfl
  | matchFacility => exact fun hhas => hhas rfl
  | matchInt field => exact fun hhas => hhas.1 rfl
  | matchStr field => cases hvalued
  | obsolete bailOut => cases hvalued

section Applied

variable {settings : Settings} {line : List Char}

/-- A directive that is always applied whole has a value. -/
theorem valueOf_ne_nil_of_applied (happlied : ∀ und, AppliedWhole und settings line)
    {handler : Handler} (hdirective : directive line = some handler)
    (hvalued : handler.Valued = true) : valueOf line ≠ [] := by
  intro hnil
  obtain ⟨und, hsuccess⟩ :=
    Handler.run_missing hvalued (wellFormed_of_directive hdirective) settings
  have hmissing := (happlied und).missing handler hdirective hvalued hnil
  rw [parseConfig_of_directive hdirective, hnil, hsuccess] at hmissing
  cases hmissing

/-- A number that is always applied whole fits. -/
theorem fitsInt_of_applied (happlied : ∀ und, AppliedWhole und settings line) {field : IntSetting}
    (hdirective : directive line = some (.matchInt field)) {n : Int}
    (hn : BeginsWithInt (valueOf line) n) : FitsInt n := by
  by_contra hfits
  -- the conversion of a number that does not fit gives another one
  have hstored := (happlied ⟨0, [], (· + 1)⟩).stored _ hdirective rfl
  rw [parseConfig_of_directive hdirective] at hstored
  rcases sscanfD_cases ⟨0, [], (· + 1)⟩ (skipSpace_valueOf line) with
    ⟨hnil, -⟩ | ⟨-, hnone, -⟩ | ⟨m, -, hm, hscan⟩
  · exact valueOf_ne_nil_of_applied happlied hdirective rfl hnil
  · exact hnone n hn
  · rw [hm.unique hn, if_neg hfits] at hscan
    simp only [Handler.run, matchInt, hscan] at hstored
    obtain ⟨k, hk, heq⟩ := hstored rfl
    have hvalue := Settings.setInt_inj heq
    rw [hk.unique hn] at hvalue
    omega

/-- There is nothing to apply in a line without a directive. -/
theorem appliedWhole_of_no_directive (hdirective : directive line = none) (und : Undefined) :
    AppliedWhole und settings line := by
  obtain ⟨outcome, hsame⟩ := parseConfig_of_no_directive hdirective
  exact
    { failure := fun _ => by rw [hsame]
      stored := fun handler hhandler => by rw [hdirective] at hhandler; cases hhandler
      missing := fun handler hhandler => by rw [hdirective] at hhandler; cases hhandler
      determinate := fun other => by rw [hsame, hsame] }

/-- A directive whose value is there and fits is applied whole. -/
theorem appliedWhole_of_hasValue {handler : Handler} (hdirective : directive line = some handler)
    (hvalue : handler.HasValue (valueOf line)) (und : Undefined) :
    AppliedWhole und settings line := by
  have hrun := parseConfig_of_directive hdirective
  obtain ⟨outcome, stored, hsame, hstores⟩ :=
    Handler.run_spec settings (wellFormed_of_directive hdirective) (skipSpace_valueOf line) hvalue
  constructor
  · intro hfailure
    rw [hrun] at hfailure ⊢
    exact Handler.run_failure hfailure
  · intro found hfound hvalued hsuccess
    rw [hdirective] at hfound
    obtain rfl := Option.some.inj hfound
    rw [hrun, hsame] at hsuccess ⊢
    exact hstores hsuccess
  · intro found hfound hvalued hnil
    rw [hdirective] at hfound
    obtain rfl := Option.some.inj hfound
    exact absurd (hnil ▸ hvalue) (Handler.not_hasValue_nil hvalued)
  · intro other
    rw [hrun, hrun, hsame, hsame]

end Applied

/-- A line is applied whole or not at all, whatever C leaves undefined, exactly if the directive's
value is there and fits. -/
theorem applied_whole_iff (settings : Settings) (line : List Char) :
    (∀ und, AppliedWhole und settings line) ↔
      ∀ handler, directive line = some handler → handler.HasValue (valueOf line) := by
  constructor
  · intro happlied handler hdirective
    have hnonempty := valueOf_ne_nil_of_applied happlied hdirective
    cases handler with
    | matchRange field values => exact hnonempty rfl
    | matchIndex field values => exact hnonempty rfl
    | matchFacility => exact hnonempty rfl
    | matchInt field => exact ⟨hnonempty rfl, fun n => fitsInt_of_applied happlied hdirective⟩
    | matchStr field => trivial
    | obsolete bailOut => trivial
  · intro hvalue und
    cases hdirective : directive line with
    | none => exact appliedWhole_of_no_directive hdirective und
    | some handler => exact appliedWhole_of_hasValue hdirective (hvalue handler hdirective) und

/-- The settings before anything has been set. -/
def blankSettings : Settings where
  strings := fun _ => []
  ints := fun _ => 0
  choices := fun _ => ⟨[], [], 0⟩
  sysfac := 24
  nologinTime := 0
  lockfile := -1

/-- A directive without a value is accepted, and what happens to be in the variable is stored. -/
theorem timeout_without_value :
    ¬ AppliedWhole ⟨4711, [], id⟩ blankSettings "TIMEOUT\n".toList ∧
      parseConfig ⟨4711, [], id⟩ blankSettings "TIMEOUT\n".toList =
        (.success, blankSettings.setInt .maxtime 4711) := by
  have hrun : parseConfig ⟨4711, [], id⟩ blankSettings "TIMEOUT\n".toList =
      (.success, blankSettings.setInt .maxtime 4711) := rfl
  refine ⟨fun happlied => ?_, hrun⟩
  have hmissing := happlied.missing (.matchInt .maxtime) (by decide +kernel) rfl
    (by decide +kernel)
  rw [hrun] at hmissing
  cases hmissing

end Config
end Apcupsd
