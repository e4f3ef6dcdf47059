import Apcupsd.Config.ParseConfig
import Apcupsd.Foundations.Pieces
import Mathlib.Logic.Relation

/-!
# The configuration file

{lit}`check_for_config` from {lit}`apcconfig.c`: the file is read in pieces of at most 255
characters, each of which is parsed as a line, and what the directives have set is then brought
into agreement.  What the uninitialised variables of the handlers hold may differ from piece to
piece, and from one run to another.

Main results:

- Theorem {lit}`parseConfig_cases`: a line has no effect, is an error, or fixes a setting.
- Theorem {lit}`outcomes_eqvGen`: comments without effect leave what can come of a file.
- Theorem {lit}`comments_no_effect_iff`: comment lines have no effect exactly if all their
  pieces have none.
-/

namespace Apcupsd
namespace Config

open CStrings Pieces

/-! ## Reading the file -/

/-- The body of the loop: the settings, and {lit}`errors`. -/
def readPiece (und : Undefined) (state : Settings × ℕ) (piece : List Char) : Settings × ℕ :=
  let (outcome, settings) := parseConfig und state.1 (cString piece)
  (settings, if outcome = .failure then state.2 + 1 else state.2)

/-- The pieces that {lit}`fgets` returns. -/
def configPieces (file : List Char) : List (List Char) :=
  pieces '\n' (maxString - 1) file

/-- The loop over the pieces, with what is undefined at each of them. -/
def readPieces : (ℕ → Undefined) → List (List Char) → Settings × ℕ → Settings × ℕ
  | _, [], state => state
  | und, piece :: rest, state => readPieces (fun n => und (n + 1)) rest (readPiece (und 0) state piece)

/-- The loop. -/
def readConfig (und : ℕ → Undefined) (ups : Settings) (file : List Char) : Settings × ℕ :=
  readPieces und (configPieces file) (ups, 0)

/-! ## Post-processing -/

/-- The messages of {lit}`Error_abort`. -/
inductive ConfigError where
  | configurationFileErrors
  | invalidCableModbus
  | invalidCableDumb
deriving DecidableEq, Repr

/-- {lit}`strlcat`. -/
def strlcat (text suffix : List Char) (size : ℕ) : List Char :=
  if text.length < size then (text ++ suffix).take (size - 1) else text

/-- A conversion of a {lit}`double` to {lit}`int`. -/
def toInt (und : Undefined) (n : Int) : Int :=
  if FitsInt n then n else und.overflow n

/-- The delay is not kept if it is not longer than the interval. -/
def sanitizeAnnoy (ups : Settings) : Settings :=
  if ups.ints .annoy ≥ ups.ints .annoydelay then ups.setInt .annoydelay 0 else ups

/-- The limits of a master. -/
def sanitizeShare (ups : Settings) : Settings :=
  if (ups.choices .sharenet).type = ClassMode.sharemaster.ctorIdx then
    ((ups.setInt .maxtime 0).setInt .percent 10).setInt .runtime 5
  else ups

/-- The type of the UPS determines the cable. -/
def sanitizeCable (und : Undefined) (ups : Settings) : Except ConfigError Settings :=
  let mode := (ups.choices .mode).type
  if mode = UpsMode.usbUps.ctorIdx then
    .ok (matchRange und ups .cable cables "usb".toList).2
  else if mode = UpsMode.snmpliteUps.ctorIdx ∨ mode = UpsMode.pcnetUps.ctorIdx ∨
      mode = UpsMode.networkUps.ctorIdx then
    .ok (matchRange und ups .cable cables "ether".toList).2
  else if mode = UpsMode.modbusUps.ctorIdx then
    if (ups.choices .cable).type < UpsCable.code .cableSmart then .error .invalidCableModbus
    else .ok ups
  else if mode = UpsMode.apcsmartUps.ctorIdx then
    .ok (matchRange und ups .cable cables "smart".toList).2
  else if mode = UpsMode.dumbUps.ctorIdx then
    if (ups.choices .cable).type ≥ UpsCable.code .cableSmart then .error .invalidCableDumb
    else .ok ups
  else .ok ups

/-- {lit}`lockpath`, from the directory and the last part of the device. -/
def lockName (ups : Settings) : Settings :=
  let lockpath :=
    if ups.strings .lockpath = [] then strlcpy "/var/lock".toList apcFilenameMax
    else ups.strings .lockpath
  let dev := (ups.strings .device).rtakeWhile (· ≠ '/')
  if (ups.choices .cable).type ≠ UpsCable.code .apcNet then
    ups.setString .lockpath
      (strlcat (strlcat lockpath "/LCK..".toList apcFilenameMax) dev apcFilenameMax)
  else { ups.setString .lockpath [] with lockfile := -1 }

/-- The names of the files in the directories. -/
def appendFilenames (ups : Settings) : Settings :=
  (ups.setString .nologinpath
    (strlcat (ups.strings .nologinpath) "/nologin".toList apcFilenameMax)).setString .pwrfailpath
      (strlcat (ups.strings .pwrfailpath) "/powerfail".toList apcFilenameMax)

/-- {lit}`nologin_time`.  The factors 0.9 and 1.1 do not take the products across an integer. -/
def loginTime (und : Undefined) (ups : Settings) : Settings :=
  let above (n : Int) : Int :=
    if toInt und ((n * 11).tdiv 10) = n then n + 1 else toInt und ((n * 11).tdiv 10)
  let login := (ups.choices .nologin).type
  if login = NoLoginMode.timeout.ctorIdx then
    if ups.ints .maxtime ≠ 0 then
      { ups with nologinTime := toInt und ((ups.ints .maxtime * 9).tdiv 10) }
    else ups
  else if login = NoLoginMode.percent.ctorIdx then
    { ups with nologinTime := above (ups.ints .percent) }
  else if login = NoLoginMode.minutes.ctorIdx then
    { ups with nologinTime := above (ups.ints .runtime) }
  else ups

/-- What follows the loop. -/
def postProcess (und : Undefined) (ups : Settings) : Except ConfigError Settings :=
  (sanitizeCable und (sanitizeShare (sanitizeAnnoy ups))).map fun ups =>
    loginTime und (appendFilenames (lockName ups))

/-- What follows the loop, with its errors. -/
def conclude (und : Undefined) (state : Settings × ℕ) : Except ConfigError Settings :=
  if state.2 ≠ 0 then .error .configurationFileErrors else postProcess und state.1

/-- {lit}`check_for_config`, for a file that can be opened. -/
def checkForConfig (und : ℕ → Undefined) (ups : Settings) (file : List Char) :
    Except ConfigError Settings :=
  conclude (und (configPieces file).length) (readConfig und ups file)

/-- What the uninitialised variables of a handler hold. -/
structure Leftover where
  int : Int
  word : List Char

/-- What is undefined in a run, where something is made of numbers that do not fit. -/
def leftovers (overflow : Int → Int) (left : ℕ → Leftover) (n : ℕ) : Undefined where
  int := (left n).int
  word := (left n).word
  overflow := overflow

/-! ## Comments -/

/-- A line whose first character that is no blank is a hash mark. -/
structure CommentLine (line : List Char) : Prop where
  oneLine : ∃ body, '\n' ∉ body ∧ (line = body ∨ line = body ++ ['\n'])
  comment : (skipSpace line).head? = some '#'

/-- The comment lines. -/
abbrev Comment := {line : List Char // CommentLine line}

/-- The second file has one more comment; only the last line of a file may lack its end. -/
def Inserts (comments : Set Comment) (file longer : List Char) : Prop :=
  ∃ before, ∃ comment ∈ comments, ∃ after, Whole '\n' before ∧
    (Whole '\n' comment.1 ∨ after = []) ∧
    file = before ++ after ∧ longer = before ++ (comment.1 ++ after)

/-- A piece that is blank, a comment or an obsolete directive that is ignored. -/
def Neutral (line : List Char) : Prop :=
  skipSpace line = [] ∨ (skipSpace line).head? = some '#' ∨
    directive line = some (.obsolete false)

/-- No piece of the comments has an effect. -/
def NeutralComments (comments : Set Comment) : Prop :=
  ∀ comment ∈ comments, ∀ piece ∈ configPieces comment.1, Neutral (cString piece)

/-- Every directive of the file that takes an integer, choice or on/off value has one. -/
def Complete (file : List Char) : Prop :=
  ∀ piece ∈ configPieces file, ∀ handler, directive (cString piece) = some handler →
    handler.Valued = true → valueOf (cString piece) ≠ []

/-- In any two runs the file comes to the same as with comments added and removed. -/
def NoEffect (overflow : Int → Int) (comments : Set Comment) (file : List Char) : Prop :=
  ∀ changed, Relation.EqvGen (Inserts comments) file changed → ∀ ups left left',
    checkForConfig (leftovers overflow left) ups file =
      checkForConfig (leftovers overflow left') ups changed

/-- Any two runs come to the same for the file itself. -/
def Determinate (overflow : Int → Int) (file : List Char) : Prop :=
  ∀ ups left left', checkForConfig (leftovers overflow left) ups file =
    checkForConfig (leftovers overflow left') ups file

/-! ## What a line does -/

/-- A setting with its value. -/
inductive Fixed where
  | string (field : StringSetting) (text : List Char)
  | int (field : IntSetting) (n : Int)
  | choice (field : ChoiceSetting) (entry : GenInfo)
  | sysfac (n : Int)

/-- The setting has the value. -/
def Fixed.Holds (settings : Settings) : Fixed → Prop
  | .string field text => settings.strings field = text
  | .int field n => settings.ints field = n
  | .choice field entry => settings.choices field = entry
  | .sysfac n => settings.sysfac = n

/-- What a word fixes does not depend on the settings. -/
theorem Handler.chosen_cases (handler : Handler) (x : List Char) :
    (∀ settings, handler.chosen settings x = none) ∨
      ∃ fixed : Fixed, ∀ settings, ∃ stored, handler.chosen settings x = some stored ∧
        fixed.Holds stored := by
  cases handler with
  | matchRange field values =>
      cases hfound : lookup values x with
      | none => exact Or.inl fun settings => by rw [Handler.chosen, hfound]; rfl
      | some entry =>
          exact Or.inr ⟨.choice field _, fun settings => ⟨_, congrArg (Option.map _) hfound,
            Function.update_self ..⟩⟩
  | matchIndex field values =>
      cases hfound : lookup values x with
      | none => exact Or.inl fun settings => by rw [Handler.chosen, hfound]; rfl
      | some entry =>
          exact Or.inr ⟨.int field _, fun settings => ⟨_, congrArg (Option.map _) hfound,
            Function.update_self ..⟩⟩
  | matchFacility =>
      cases hfound : facnames.find? fun facility => SameWord facility.1 x with
      | none => exact Or.inl fun settings => by rw [Handler.chosen, hfound]; rfl
      | some facility =>
          exact Or.inr ⟨.sysfac facility.2, fun settings => ⟨_, congrArg (Option.map _) hfound,
            rfl⟩⟩
  | matchStr field => exact Or.inl fun settings => rfl
  | matchInt field => exact Or.inl fun settings => rfl
  | obsolete bailOut => exact Or.inl fun settings => rfl

/-- A directive that is not ignored has an effect. -/
theorem not_neutral_of_directive {line : List Char} {handler : Handler}
    (hdirective : directive line = some handler) (hne : handler ≠ .obsolete false) :
    ¬ Neutral line := by
  intro hneutral
  rcases or_assoc.mpr hneutral with hblank | hignored
  · rw [directive, if_pos hblank] at hdirective
    cases hdirective
  · rw [hdirective] at hignored
    exact hne (Option.some.inj hignored)

/-- A handler that chooses among named values is an error for a text, or fixes a setting. -/
theorem Handler.run_choice_cases {handler : Handler} (hchoice : handler.Choice) (und : Undefined)
    (v : List Char) :
    (∀ settings, (handler.run und settings v).1 = .failure) ∨
      ∃ fixed : Fixed, ∀ settings, (handler.run und settings v).1 = .success ∧
        fixed.Holds (handler.run und settings v).2 := by
  simp only [Handler.run_choice hchoice]
  by_cases hscan : (sscanfS und v).1 = 0
  · exact Or.inl fun settings => by rw [if_pos hscan]
  · simp only [if_neg hscan]
    rcases Handler.chosen_cases handler (sscanfS und v).2 with hnone | ⟨fixed, hfixed⟩
    · exact Or.inl fun settings => by rw [hnone]
    · refine Or.inr ⟨fixed, fun settings => ?_⟩
      obtain ⟨stored, hstored, hholds⟩ := hfixed settings
      rw [hstored]
      exact ⟨rfl, hholds⟩

/-- So is or does a handler that reads a number. -/
theorem Handler.run_matchInt_cases (field : IntSetting) (und : Undefined) (v : List Char) :
    (∀ settings, ((Handler.matchInt field).run und settings v).1 = .failure) ∨
      ∃ fixed : Fixed, ∀ settings, ((Handler.matchInt field).run und settings v).1 = .success ∧
        fixed.Holds ((Handler.matchInt field).run und settings v).2 := by
  simp only [Handler.run, Config.matchInt]
  by_cases hscan : (sscanfD und v).1 = 0
  · exact Or.inl fun settings => by rw [if_neg (not_not_intro hscan)]
  · refine Or.inr ⟨.int field (sscanfD und v).2, fun settings => ?_⟩
    rw [if_pos hscan]
    exact ⟨rfl, Function.update_self ..⟩

/-- Whatever the settings, a line has no effect, is an error, or fixes a setting. -/
theorem parseConfig_cases (und : Undefined) (line : List Char) :
    (Neutral line ∧ ∀ settings, parseConfig und settings line = (.success, settings)) ∨
    (¬ Neutral line ∧ ∀ settings, (parseConfig und settings line).1 = .failure) ∨
    (¬ Neutral line ∧ ∃ fixed : Fixed, ∀ settings,
      (parseConfig und settings line).1 = .success ∧
        fixed.Holds (parseConfig und settings line).2) := by
  cases hdirective : directive line with
  | none =>
      by_cases hblank : skipSpace line = [] ∨ (skipSpace line).head? = some '#'
      · refine Or.inl ⟨or_assoc.mp (Or.inl hblank), fun settings => ?_⟩
        rw [parseConfig, if_pos hblank]
      · refine Or.inr (Or.inl ⟨fun hneutral => ?_, fun settings => ?_⟩)
        · rcases or_assoc.mpr hneutral with hneutral | hneutral
          · exact hblank hneutral
          · rw [hdirective] at hneutral
            cases hneutral
        · rw [directive, if_neg hblank, Option.map_eq_none_iff] at hdirective
          rw [parseConfig, if_neg hblank, hdirective]
  | some handler =>
      simp only [parseConfig_of_directive hdirective und]
      cases handler with
      | matchRange field values =>
          have hrun := @Handler.run_choice_cases (.matchRange field values) trivial und
            (valueOf line)
          have hnot := not_neutral_of_directive hdirective (by simp)
          exact Or.inr (hrun.imp (And.intro hnot) (And.intro hnot))
      | matchIndex field values =>
          have hrun := @Handler.run_choice_cases (.matchIndex field values) trivial und
            (valueOf line)
          have hnot := not_neutral_of_directive hdirective (by simp)
          exact Or.inr (hrun.imp (And.intro hnot) (And.intro hnot))
      | matchFacility =>
          have hrun := @Handler.run_choice_cases .matchFacility trivial und (valueOf line)
          have hnot := not_neutral_of_directive hdirective (by simp)
          exact Or.inr (hrun.imp (And.intro hnot) (And.intro hnot))
      | matchInt field =>
          have hrun := Handler.run_matchInt_cases field und (valueOf line)
          have hnot := not_neutral_of_directive hdirective (by simp)
          exact Or.inr (hrun.imp (And.intro hnot) (And.intro hnot))
      | matchStr field =>
          have hnot := not_neutral_of_directive hdirective (by simp)
          exact Or.inr (Or.inr ⟨hnot, .string field _, fun settings =>
            ⟨rfl, Function.update_self ..⟩⟩)
      | obsolete bailOut =>
          cases bailOut with
          | true =>
              have hnot := not_neutral_of_directive hdirective (by simp)
              exact Or.inr (Or.inl ⟨hnot, fun settings => rfl⟩)
          | false => exact Or.inl ⟨Or.inr (Or.inr hdirective), fun settings => rfl⟩

/-! ## What several pieces do -/

/-- Pieces that have no effect each have none together. -/
theorem foldl_readPiece_of_neutral {und : Undefined} {parts : List (List Char)}
    (hneutral : ∀ piece ∈ parts, Neutral (cString piece)) (state : Settings × ℕ) :
    parts.foldl (readPiece und) state = state := by
  induction parts with
  | nil => rfl
  | cons piece parts ih =>
      rw [List.foldl_cons]
      have hpiece : readPiece und state piece = state := by
        rcases parseConfig_cases und (cString piece) with ⟨-, hsame⟩ | ⟨hnot, -⟩ | ⟨hnot, -⟩
        · rw [readPiece, hsame]
          rfl
        · exact absurd (hneutral piece List.mem_cons_self) hnot
        · exact absurd (hneutral piece List.mem_cons_self) hnot
      rw [hpiece]
      exact ih fun other hmem => hneutral other (List.mem_cons_of_mem piece hmem)

/-- Errors are never taken back. -/
theorem errors_le_foldl (und : Undefined) (parts : List (List Char)) (state : Settings × ℕ) :
    state.2 ≤ (parts.foldl (readPiece und) state).2 := by
  induction parts generalizing state with
  | nil => exact Nat.le_refl _
  | cons piece parts ih =>
      apply le_trans _ (ih (readPiece und state piece))
      rw [readPiece]
      dsimp only
      split
      · exact Nat.le_succ _
      · exact Nat.le_refl _

/-- Pieces of which one has an effect are an error, or they fix a setting. -/
theorem foldl_readPiece_of_not_neutral {und : Undefined} {parts : List (List Char)}
    (hnot : ¬ ∀ piece ∈ parts, Neutral (cString piece)) :
    (∀ state, state.2 < (parts.foldl (readPiece und) state).2) ∨
      ∃ fixed : Fixed, ∀ state, fixed.Holds (parts.foldl (readPiece und) state).1 := by
  induction parts using List.reverseRecOn with
  | nil => exact absurd (fun piece hmem => by cases hmem) hnot
  | append_singleton parts piece ih =>
      simp only [List.foldl_append, List.foldl_cons, List.foldl_nil]
      rcases parseConfig_cases und (cString piece) with
        ⟨hneutral, hsame⟩ | ⟨-, hfailure⟩ | ⟨-, fixed, hfixed⟩
      · have hpiece (state : Settings × ℕ) : readPiece und state piece = state := by
          rw [readPiece, hsame]
          rfl
        simp only [hpiece]
        apply ih
        intro hparts
        apply hnot
        intro other hmem
        rcases List.mem_append.mp hmem with hmem | hmem
        · exact hparts other hmem
        · rw [List.mem_singleton.mp hmem]
          exact hneutral
      · left
        intro state
        apply Nat.lt_of_le_of_lt (errors_le_foldl und parts state)
        rw [readPiece]
        dsimp only
        rw [if_pos (hfailure _)]
        exact Nat.lt_succ_self _
      · exact Or.inr ⟨fixed, fun state => (hfixed _).2⟩

/-! ## What post-processing keeps -/

theorem head?_strlcat_of_ne_nil {text : List Char} (htext : text ≠ []) (suffix : List Char)
    {size : ℕ} (hsize : 1 < size) : (strlcat text suffix size).head? = text.head? := by
  obtain ⟨c, rest, rfl⟩ := List.exists_cons_of_ne_nil htext
  obtain ⟨n, rfl⟩ := Nat.exists_eq_add_of_lt hsize
  rw [strlcat]
  split
  · rw [show 1 + n + 1 - 1 = n + 1 by omega]
    rfl
  · rfl

theorem head?_strlcat_nil (suffix : List Char) {size : ℕ} (hsize : 1 < size) :
    (strlcat [] suffix size).head? = suffix.head? := by
  obtain ⟨n, rfl⟩ := Nat.exists_eq_add_of_lt hsize
  rw [strlcat, if_pos (by simp), List.nil_append, show 1 + n + 1 - 1 = n + 1 by omega]
  cases suffix <;> rfl

/-- What a step of the post-processing leaves of the settings. -/
structure Kept (ups after : Settings) : Prop where
  sysfac : after.sysfac = ups.sysfac
  ints : ∀ field, after.ints field = ups.ints field ∨ after.ints field ∈ [0, 10, 5]
  choices : ∀ field, after.choices field = ups.choices field ∨ (after.choices field).type ≠ 0
  strings : ∀ field, (after.strings field).head? = (ups.strings field).head? ∨
    (after.strings field).head? ∈ [none, some '/']

namespace Kept

variable {ups next after : Settings}

theorem refl (ups : Settings) : Kept ups ups :=
  ⟨rfl, fun _ => Or.inl rfl, fun _ => Or.inl rfl, fun _ => Or.inl rfl⟩

theorem trans (hfirst : Kept ups next) (hsecond : Kept next after) : Kept ups after where
  sysfac := hsecond.sysfac.trans hfirst.sysfac
  ints field := by
    rcases hsecond.ints field with hsame | hconst
    · rw [hsame]
      exact hfirst.ints field
    · exact Or.inr hconst
  choices field := by
    rcases hsecond.choices field with hsame | hforced
    · rw [hsame]
      exact hfirst.choices field
    · exact Or.inr hforced
  strings field := by
    rcases hsecond.strings field with hsame | hpath
    · rw [hsame]
      exact hfirst.strings field
    · exact Or.inr hpath

theorem setInt (ups : Settings) (field : IntSetting) {n : Int} (hn : n ∈ [0, 10, 5]) :
    Kept ups (ups.setInt field n) where
  sysfac := rfl
  ints other := by
    by_cases hother : other = field
    · subst hother
      exact Or.inr (by rwa [Settings.setInt_ints])
    · exact Or.inl (Function.update_of_ne hother ..)
  choices _ := Or.inl rfl
  strings _ := Or.inl rfl

theorem setChoice (ups : Settings) (field : ChoiceSetting) {entry : GenInfo}
    (hentry : entry.type ≠ 0) : Kept ups (ups.setChoice field entry) where
  sysfac := rfl
  ints _ := Or.inl rfl
  choices other := by
    by_cases hother : other = field
    · subst hother
      exact Or.inr (by rwa [Settings.setChoice_choices])
    · exact Or.inl (Function.update_of_ne hother ..)
  strings _ := Or.inl rfl

theorem setString (ups : Settings) (field : StringSetting) {text : List Char}
    (htext : text.head? = (ups.strings field).head? ∨ text.head? ∈ [none, some '/']) :
    Kept ups (ups.setString field text) where
  sysfac := rfl
  ints _ := Or.inl rfl
  choices _ := Or.inl rfl
  strings other := by
    by_cases hother : other = field
    · subst hother
      rwa [Settings.setString_strings]
    · exact Or.inl (congrArg List.head? (Function.update_of_ne hother ..))

end Kept

/-- A name that is appended to a path is seen only if the path is empty. -/
theorem head?_strlcat_path (text : List Char) {suffix : List Char}
    (hsuffix : suffix.head? = some '/') :
    (strlcat text suffix apcFilenameMax).head? = text.head? ∨
      (strlcat text suffix apcFilenameMax).head? ∈ [none, some '/'] := by
  have hsize : 1 < apcFilenameMax := by decide
  by_cases htext : text = []
  · subst htext
    rw [head?_strlcat_nil _ hsize, hsuffix]
    exact Or.inr (by decide)
  · exact Or.inl (head?_strlcat_of_ne_nil htext _ hsize)

theorem kept_sanitizeAnnoy (ups : Settings) : Kept ups (sanitizeAnnoy ups) := by
  rw [sanitizeAnnoy]
  split
  · exact Kept.setInt ups .annoydelay (by decide)
  · exact Kept.refl ups

theorem kept_sanitizeShare (ups : Settings) : Kept ups (sanitizeShare ups) := by
  rw [sanitizeShare]
  split
  · exact ((Kept.setInt ups .maxtime (by decide)).trans
      (Kept.setInt _ .percent (by decide))).trans (Kept.setInt _ .runtime (by decide))
  · exact Kept.refl ups

theorem kept_sanitizeCable {und : Undefined} {ups after : Settings}
    (hok : sanitizeCable und ups = .ok after) : Kept ups after := by
  unfold sanitizeCable at hok
  dsimp only at hok
  split at hok
  · obtain rfl := Except.ok.inj hok
    exact Kept.setChoice ups .cable (by decide)
  split at hok
  · obtain rfl := Except.ok.inj hok
    exact Kept.setChoice ups .cable (by decide)
  split at hok
  · split at hok
    · cases hok
    · obtain rfl := Except.ok.inj hok
      exact Kept.refl ups
  split at hok
  · obtain rfl := Except.ok.inj hok
    exact Kept.setChoice ups .cable (by decide)
  split at hok
  · split at hok
    · cases hok
    · obtain rfl := Except.ok.inj hok
      exact Kept.refl ups
  · obtain rfl := Except.ok.inj hok
    exact Kept.refl ups

theorem kept_lockName (ups : Settings) : Kept ups (lockName ups) := by
  have hsize : 1 < apcFilenameMax := by decide
  rw [lockName]
  dsimp only
  split
  · apply Kept.setString
    by_cases hpath : ups.strings .lockpath = []
    · rw [if_pos hpath, head?_strlcat_of_ne_nil _ _ hsize, head?_strlcat_of_ne_nil _ _ hsize]
      · exact Or.inr (by decide)
      · decide
      · exact fun hnil => absurd (congrArg List.head? hnil) (by
          rw [head?_strlcat_of_ne_nil (by decide) _ hsize]
          decide)
    · rw [if_neg hpath, head?_strlcat_of_ne_nil _ _ hsize, head?_strlcat_of_ne_nil hpath _ hsize]
      · exact Or.inl rfl
      · intro hnil
        have hhead := head?_strlcat_of_ne_nil hpath "/LCK..".toList hsize
        rw [hnil] at hhead
        exact hpath (List.head?_eq_none_iff.mp hhead.symm)
  · have hempty := @Kept.setString ups .lockpath [] (Or.inr (by decide))
    exact ⟨hempty.sysfac, hempty.ints, hempty.choices, hempty.strings⟩

theorem kept_appendFilenames (ups : Settings) : Kept ups (appendFilenames ups) := by
  rw [appendFilenames]
  exact (Kept.setString ups .nologinpath (head?_strlcat_path _ rfl)).trans
    (Kept.setString _ .pwrfailpath (head?_strlcat_path _ rfl))

theorem kept_loginTime (und : Undefined) (ups : Settings) : Kept ups (loginTime und ups) := by
  have hkept (n : Int) : Kept ups { ups with nologinTime := n } :=
    ⟨rfl, fun _ => Or.inl rfl, fun _ => Or.inl rfl, fun _ => Or.inl rfl⟩
  rw [loginTime]
  dsimp only
  split
  · split
    · exact hkept _
    · exact Kept.refl ups
  split
  · exact hkept _
  split
  · exact hkept _
  · exact Kept.refl ups

/-- Post-processing as a whole. -/
theorem kept_postProcess {und : Undefined} {ups after : Settings}
    (hok : postProcess und ups = .ok after) : Kept ups after := by
  unfold postProcess at hok
  cases hcable : sanitizeCable und (sanitizeShare (sanitizeAnnoy ups)) with
  | error _ => rw [hcable] at hok; cases hok
  | ok cabled =>
      rw [hcable] at hok
      obtain rfl := Except.ok.inj hok
      exact ((((kept_sanitizeAnnoy ups).trans (kept_sanitizeShare _)).trans
        (kept_sanitizeCable hcable)).trans (kept_lockName cabled)).trans
          ((kept_appendFilenames _).trans (kept_loginTime und _))

/-! ## A setting that is fixed is seen -/

/-- Settings that post-processing leaves alone. -/
structure Plain (ups : Settings) : Prop where
  annoy : ups.ints .annoy < ups.ints .annoydelay
  types : ∀ field, (ups.choices field).type = 0

theorem postProcess_plain (und : Undefined) {ups : Settings} (hplain : Plain ups) :
    postProcess und ups = .ok (appendFilenames (lockName ups)) := by
  have hannoy : sanitizeAnnoy ups = ups := by
    rw [sanitizeAnnoy, if_neg (Int.not_le.mpr hplain.annoy)]
  have hshare : sanitizeShare ups = ups := by
    rw [sanitizeShare, hplain.types, if_neg (by decide)]
  have hcable : sanitizeCable und ups = .ok ups := by
    unfold sanitizeCable
    rw [hplain.types .mode]
    rfl
  have hlogin (other : Settings) (htype : (other.choices .nologin).type = 0) :
      loginTime und other = other := by
    unfold loginTime
    rw [htype]
    rfl
  have hlock : (lockName ups).choices = ups.choices := by
    rw [lockName]
    dsimp only
    split <;> rfl
  rw [postProcess, hannoy, hshare, hcable, Except.map, hlogin]
  change ((lockName ups).choices .nologin).type = 0
  rw [hlock]
  exact hplain.types .nologin

/-- What the names that are appended leave of plain settings. -/
theorem appendFilenames_lockName {ups : Settings} (hplain : Plain ups) :
    (appendFilenames (lockName ups)).ints = ups.ints ∧
      (appendFilenames (lockName ups)).choices = ups.choices ∧
      (appendFilenames (lockName ups)).sysfac = ups.sysfac ∧
      ∀ field c, ups.strings field = [c] →
        ((appendFilenames (lockName ups)).strings field).head? = some c := by
  have hsize : 1 < apcFilenameMax := by decide
  have happend (ups : Settings) (field : StringSetting) (c : Char)
      (hhead : (ups.strings field).head? = some c) :
      ((appendFilenames ups).strings field).head? = some c := by
    have hne : ups.strings field ≠ [] := by
      intro hnil
      rw [hnil] at hhead
      cases hhead
    by_cases hpwrfail : field = .pwrfailpath
    · subst hpwrfail
      rw [appendFilenames, Settings.setString_strings, head?_strlcat_of_ne_nil hne _ hsize, hhead]
    by_cases hnologin : field = .nologinpath
    · subst hnologin
      rw [appendFilenames, Settings.setString_of_ne _ hpwrfail, Settings.setString_strings,
        head?_strlcat_of_ne_nil hne _ hsize, hhead]
    · rw [appendFilenames, Settings.setString_of_ne _ hpwrfail,
        Settings.setString_of_ne _ hnologin, hhead]
  have hlock : lockName ups = ups.setString .lockpath (strlcat (strlcat
      (if ups.strings .lockpath = [] then strlcpy "/var/lock".toList apcFilenameMax
        else ups.strings .lockpath) "/LCK..".toList apcFilenameMax)
      ((ups.strings .device).rtakeWhile (· ≠ '/')) apcFilenameMax) := by
    rw [lockName, hplain.types]
    exact if_pos (by decide)
  rw [hlock]
  refine ⟨rfl, rfl, rfl, fun field c htext => happend _ field c ?_⟩
  by_cases hfield : field = .lockpath
  · subst hfield
    have hinner := head?_strlcat_of_ne_nil (List.cons_ne_nil c []) "/LCK..".toList hsize
    rw [Settings.setString_strings, htext, if_neg (List.cons_ne_nil c []),
      head?_strlcat_of_ne_nil _ _ hsize, hinner]
    · rfl
    · intro hnil
      rw [hnil] at hinner
      cases hinner
  · rw [Settings.setString_of_ne _ hfield, htext]
    rfl

/-- There are settings that come out differently from all those that have a certain value. -/
def Seen (und : Undefined) (fixed : Fixed) : Prop :=
  ∃ ups after, postProcess und ups = .ok after ∧
    ∀ other, fixed.Holds other → postProcess und other ≠ .ok after

/-- Plain settings show a value, if nothing that post-processing makes of the value agrees with
them. -/
theorem seen_of_plain {und : Undefined} {fixed : Fixed} {ups : Settings} (hplain : Plain ups)
    (hdiffer : ∀ other, fixed.Holds other → ∀ after, Kept other after →
      after.ints = ups.ints → after.choices = ups.choices → after.sysfac = ups.sysfac →
        ¬ ∀ field c, ups.strings field = [c] → (after.strings field).head? = some c) :
    Seen und fixed := by
  obtain ⟨hints, hchoices, hsysfac, hstrings⟩ := appendFilenames_lockName hplain
  exact ⟨ups, _, postProcess_plain und hplain, fun other hholds hok =>
    hdiffer other hholds _ (kept_postProcess hok) hints hchoices hsysfac hstrings⟩

theorem plain_annoydelay : Plain (blankSettings.setInt .annoydelay 1) :=
  ⟨by decide, fun _ => rfl⟩

/-- Large numbers are plain. -/
theorem plain_setInt (field : IntSetting) {k : Int} (hk : 0 < k) :
    Plain ((blankSettings.setInt .annoydelay (k + 1)).setInt field k) := by
  refine ⟨?_, fun _ => rfl⟩
  by_cases hannoy : field = .annoy
  · subst hannoy
    rw [Settings.setInt_ints, Settings.setInt_of_ne _ (by decide), Settings.setInt_ints]
    omega
  rw [Settings.setInt_of_ne _ (Ne.symm hannoy), Settings.setInt_of_ne _ (by decide)]
  change 0 < _
  by_cases hdelay : field = .annoydelay
  · subst hdelay
    rw [Settings.setInt_ints]
    exact hk
  · rw [Settings.setInt_of_ne _ (Ne.symm hdelay), Settings.setInt_ints]
    omega

theorem seen_int (und : Undefined) (field : IntSetting) (n : Int) : Seen und (.int field n) := by
  -- a number that is neither this one nor one that post-processing sets
  obtain ⟨k, hk, hkn⟩ : ∃ k : Int, 10 < k ∧ k ≠ n :=
    ⟨max 11 (n + 1), by omega, by omega⟩
  have hplain := plain_setInt field (show 0 < k by omega)
  refine seen_of_plain hplain fun other hholds after hkept hints _ _ _ => ?_
  have hvalue : after.ints field = k := by
    rw [hints, Settings.setInt_ints]
  rcases hkept.ints field with hsame | hconst
  · exact hkn (by rw [← hvalue, hsame, hholds])
  · rw [hvalue] at hconst
    simp at hconst
    omega

theorem seen_string (und : Undefined) (field : StringSetting) (text : List Char) :
    Seen und (.string field text) := by
  -- a text with another beginning, which is no path
  obtain ⟨c, hc, htext⟩ : ∃ c : Char, c ≠ '/' ∧ text.head? ≠ some c := by
    by_cases ha : text.head? = some 'a'
    · exact ⟨'b', by decide, by rw [ha]; decide⟩
    · exact ⟨'a', by decide, ha⟩
  have hplain : Plain ((blankSettings.setInt .annoydelay 1).setString field [c]) :=
    ⟨plain_annoydelay.annoy, plain_annoydelay.types⟩
  refine seen_of_plain hplain fun other hholds after hkept _ _ _ hstrings => ?_
  have hhead := hstrings field c (Settings.setString_strings ..)
  rcases hkept.strings field with hsame | hpath
  · exact htext (by rw [← hhead, hsame, hholds])
  · rw [hhead] at hpath
    simp [hc] at hpath

theorem seen_choice (und : Undefined) (field : ChoiceSetting) (entry : GenInfo) :
    Seen und (.choice field entry) := by
  obtain ⟨plain, htype, hne⟩ : ∃ plain : GenInfo, plain.type = 0 ∧ plain ≠ entry := by
    by_cases hentry : entry = ⟨[], [], 0⟩
    · exact ⟨⟨['?'], [], 0⟩, rfl, by rw [hentry]; decide⟩
    · exact ⟨⟨[], [], 0⟩, rfl, Ne.symm hentry⟩
  have hplain : Plain ((blankSettings.setInt .annoydelay 1).setChoice field plain) := by
    refine ⟨plain_annoydelay.annoy, fun other => ?_⟩
    by_cases hother : other = field
    · subst hother
      rw [Settings.setChoice_choices, htype]
    · rw [Settings.setChoice_of_ne _ hother]
      rfl
  refine seen_of_plain hplain fun other hholds after hkept _ hchoices _ _ => ?_
  have hvalue : after.choices field = plain := by
    rw [hchoices, Settings.setChoice_choices]
  rcases hkept.choices field with hsame | hforced
  · exact hne (by rw [← hvalue, hsame, hholds])
  · exact hforced (by rw [hvalue, htype])

theorem seen_sysfac (und : Undefined) (n : Int) : Seen und (.sysfac n) := by
  have hplain : Plain { blankSettings.setInt .annoydelay 1 with sysfac := n + 1 } :=
    ⟨plain_annoydelay.annoy, plain_annoydelay.types⟩
  refine seen_of_plain hplain fun other hholds after hkept _ _ hsysfac _ => ?_
  rw [hkept.sysfac, hholds] at hsysfac
  simp at hsysfac

/-- For every setting and value there are settings that come out differently from all those that
have the value. -/
theorem exists_seen (und : Undefined) (fixed : Fixed) : Seen und fixed := by
  cases fixed with
  | int field n => exact seen_int und field n
  | string field text => exact seen_string und field text
  | choice field entry => exact seen_choice und field entry
  | sysfac n => exact seen_sysfac und n

/-! ## What can come of a file -/

theorem readPieces_const (und : Undefined) (parts : List (List Char)) (state : Settings × ℕ) :
    readPieces (fun _ => und) parts state = parts.foldl (readPiece und) state := by
  induction parts generalizing state with
  | nil => rfl
  | cons piece parts ih => exact ih _

/-- A state that the pieces can lead to. -/
def Reads (overflow : Int → Int) (parts : List (List Char)) (state after : Settings × ℕ) : Prop :=
  ∃ left, readPieces (leftovers overflow left) parts state = after

section Outcomes

variable {overflow : Int → Int} {parts more : List (List Char)} {state after : Settings × ℕ}

theorem reads_nil : Reads overflow [] state after ↔ after = state :=
  ⟨fun ⟨_, hread⟩ => hread.symm, fun hsame => ⟨fun _ => ⟨0, []⟩, hsame.symm⟩⟩

/-- What the variables hold at the first piece is independent of what they hold later. -/
theorem reads_cons {piece : List Char} :
    Reads overflow (piece :: parts) state after ↔
      ∃ left : Leftover,
        Reads overflow parts (readPiece ⟨left.int, left.word, overflow⟩ state piece) after := by
  constructor
  · rintro ⟨left, hread⟩
    exact ⟨left 0, fun n => left (n + 1), hread⟩
  · rintro ⟨first, left, hread⟩
    exact ⟨fun n => Nat.casesOn (motive := fun _ => Leftover) n first left, hread⟩

theorem reads_append :
    Reads overflow (parts ++ more) state after ↔
      ∃ between, Reads overflow parts state between ∧ Reads overflow more between after := by
  induction parts generalizing state with
  | nil => simp [reads_nil]
  | cons piece parts ih =>
      simp only [List.cons_append, reads_cons, ih]
      constructor
      · rintro ⟨left, between, hfirst, hnext⟩
        exact ⟨between, ⟨left, hfirst⟩, hnext⟩
      · rintro ⟨between, ⟨left, hfirst⟩, hnext⟩
        exact ⟨left, between, hfirst, hnext⟩

/-- Pieces without effect lead nowhere else. -/
theorem reads_neutral (hneutral : ∀ piece ∈ parts, Neutral (cString piece)) :
    Reads overflow parts state after ↔ after = state := by
  induction parts with
  | nil => exact reads_nil
  | cons piece parts ih =>
      obtain ⟨hpiece, hrest⟩ := List.forall_mem_cons.mp hneutral
      have hsame (left : Leftover) :
          readPiece ⟨left.int, left.word, overflow⟩ state piece = state :=
        @foldl_readPiece_of_neutral _ [piece] (by simpa using hpiece) state
      simp only [reads_cons, hsame, ih hrest]
      exact ⟨fun ⟨_, heq⟩ => heq, fun heq => ⟨⟨0, []⟩, heq⟩⟩

/-- The results that a file can have. -/
def Outcomes (overflow : Int → Int) (ups : Settings) (file : List Char) :
    Set (Except ConfigError Settings) :=
  Set.range fun left => checkForConfig (leftovers overflow left) ups file

theorem mem_outcomes {ups : Settings} {file : List Char} {result : Except ConfigError Settings} :
    result ∈ Outcomes overflow ups file ↔
      ∃ after, Reads overflow (configPieces file) (ups, 0) after ∧
        conclude ⟨0, [], overflow⟩ after = result := by
  constructor
  · rintro ⟨left, rfl⟩
    exact ⟨readConfig (leftovers overflow left) ups file, ⟨left, rfl⟩, rfl⟩
  · rintro ⟨_, ⟨left, rfl⟩, rfl⟩
    exact ⟨left, rfl⟩

/-- Comments without effect leave what can come of a file. -/
theorem outcomes_inserts {comments : Set Comment} (hneutral : NeutralComments comments)
    {file longer : List Char} (hinserts : Inserts comments file longer) (ups : Settings) :
    Outcomes overflow ups file = Outcomes overflow ups longer := by
  have hroom : 0 < maxString - 1 := by decide
  obtain ⟨before, comment, hcomment, after, hbefore, hends, rfl, rfl⟩ := hinserts
  have hskip := hneutral comment hcomment
  have hread (last : Settings × ℕ) :
      Reads overflow (configPieces (before ++ after)) (ups, 0) last ↔
        Reads overflow (configPieces (before ++ (comment.1 ++ after))) (ups, 0) last := by
    unfold configPieces at *
    rw [pieces_append hroom hbefore, pieces_append hroom hbefore, reads_append, reads_append]
    refine exists_congr fun between => and_congr_right fun _ => ?_
    rcases hends with hwhole | rfl
    · rw [pieces_append hroom hwhole, reads_append]
      simp only [reads_neutral hskip, exists_eq_left]
    · rw [List.append_nil, reads_neutral hskip, pieces_nil, reads_nil]
  ext result
  simp only [mem_outcomes, hread]

/-- So do any number of them, added and removed. -/
theorem outcomes_eqvGen {comments : Set Comment} (hneutral : NeutralComments comments)
    {file changed : List Char} (hequal : Relation.EqvGen (Inserts comments) file changed)
    (ups : Settings) : Outcomes overflow ups file = Outcomes overflow ups changed := by
  induction hequal with
  | rel file longer hinserts => exact outcomes_inserts hneutral hinserts ups
  | refl file => rfl
  | symm file changed _ ih => exact ih.symm
  | trans file between changed _ _ ih₁ ih₂ => exact ih₁.trans ih₂

end Outcomes

/-! ## Files whose directives have values -/

/-- A conversion of a text that is there does not look at the variable. -/
theorem parseConfig_congr {und other : Undefined} (hoverflow : und.overflow = other.overflow)
    {line : List Char} (hvalue : ∀ handler, directive line = some handler →
      handler.Valued = true → valueOf line ≠ []) (settings : Settings) :
    parseConfig und settings line = parseConfig other settings line := by
  cases hdirective : directive line with
  | none =>
      obtain ⟨outcome, hsame⟩ := parseConfig_of_no_directive hdirective
      rw [hsame, hsame]
  | some handler =>
      rw [parseConfig_of_directive hdirective, parseConfig_of_directive hdirective]
      have hv := skipSpace_valueOf line
      have hchosen (hchoice : handler.Choice) (hne : valueOf line ≠ []) :
          handler.run und settings (valueOf line) = handler.run other settings (valueOf line) := by
        have hscan (any : Undefined) :
            sscanfS any (valueOf line) = (1, frontWord (valueOf line)) := by
          rw [sscanfS, hv, if_neg hne]
        rw [Handler.run_choice hchoice, Handler.run_choice hchoice, hscan, hscan]
      have hne := hvalue handler hdirective
      cases handler with
      | matchRange field values => exact hchosen trivial (hne rfl)
      | matchIndex field values => exact hchosen trivial (hne rfl)
      | matchFacility => exact hchosen trivial (hne rfl)
      | matchInt field =>
          rcases sscanfD_cases und hv with ⟨hnil, -⟩ | ⟨-, hnone, hscan⟩ | ⟨n, -, hn, hscan⟩
          · exact absurd hnil (hne rfl)
          · rcases sscanfD_cases other hv with ⟨hnil, -⟩ | ⟨-, -, hscan'⟩ | ⟨m, -, hm, -⟩
            · exact absurd hnil (hne rfl)
            · simp [Handler.run, Config.matchInt, hscan, hscan']
            · exact absurd hm (hnone m)
          · rcases sscanfD_cases other hv with ⟨hnil, -⟩ | ⟨-, hnone, -⟩ | ⟨m, -, hm, hscan'⟩
            · exact absurd hnil (hne rfl)
            · exact absurd hn (hnone n)
            · rw [hm.unique hn, ← hoverflow] at hscan'
              simp [Handler.run, Config.matchInt, hscan, hscan']
      | matchStr field => rfl
      | obsolete bailOut => rfl

/-- Where all directives have values, every run comes to the same. -/
theorem determinate_of_complete {file : List Char} (hcomplete : Complete file)
    (overflow : Int → Int) : Determinate overflow file := by
  have hread (left left' : ℕ → Leftover) (parts : List (List Char))
      (hparts : ∀ piece ∈ parts, piece ∈ configPieces file) (state : Settings × ℕ) :
      readPieces (leftovers overflow left) parts state =
        readPieces (leftovers overflow left') parts state := by
    induction parts generalizing left left' state with
    | nil => rfl
    | cons piece parts ih =>
        obtain ⟨hpiece, hrest⟩ := List.forall_mem_cons.mp hparts
        have hfirst : readPiece (leftovers overflow left 0) state piece =
            readPiece (leftovers overflow left' 0) state piece := by
          rw [readPiece, readPiece, @parseConfig_congr (leftovers overflow left 0)
            (leftovers overflow left' 0) rfl _ (hcomplete piece hpiece)]
        rw [readPieces, readPieces, hfirst]
        exact ih (fun n => left (n + 1)) (fun n => left' (n + 1)) hrest _
  intro ups left left'
  rw [checkForConfig, checkForConfig, readConfig, readConfig,
    hread left left' _ fun _ hmem => hmem]
  rfl

/-! ## Comment lines -/

/-- Comments without effect change nothing but what is undefined anyway. -/
theorem noEffect_iff_determinate {overflow : Int → Int} {comments : Set Comment}
    (hneutral : NeutralComments comments) (file : List Char) :
    NoEffect overflow comments file ↔ Determinate overflow file := by
  constructor
  · exact fun hsame => hsame file (Relation.EqvGen.refl file)
  · intro hdeterminate changed hequal ups left left'
    obtain ⟨other, hother⟩ : checkForConfig (leftovers overflow left') ups changed ∈
        Outcomes overflow ups file := by
      rw [outcomes_eqvGen hneutral hequal]
      exact ⟨left', rfl⟩
    exact (hdeterminate ups left other).trans hother

/-- A comment that has an effect has one on the empty file. -/
theorem neutralComments_of_noEffect {overflow : Int → Int} {comments : Set Comment}
    (hsame : NoEffect overflow comments []) : NeutralComments comments := by
  intro comment hcomment
  by_contra hnot
  have hinserts : Inserts comments [] comment.1 :=
    ⟨[], comment, hcomment, [], whole_nil, Or.inr rfl, rfl, (List.append_nil _).symm⟩
  let und : Undefined := ⟨0, [], overflow⟩
  have hresult (ups : Settings) : postProcess und ups =
      conclude und ((configPieces comment.1).foldl (readPiece und) (ups, 0)) := by
    rw [← readPieces_const]
    exact hsame comment.1 (Relation.EqvGen.rel _ _ hinserts) ups (fun _ => ⟨0, []⟩)
      fun _ => ⟨0, []⟩
  rcases @foldl_readPiece_of_not_neutral und _ hnot with herror | ⟨fixed, hfixed⟩
  · obtain ⟨ups, after, hok, -⟩ := exists_seen und (.sysfac 0)
    have hups := hresult ups
    rw [hok, conclude, if_pos (Nat.ne_of_gt (herror (ups, 0)))] at hups
    cases hups
  · obtain ⟨ups, after, hok, hseen⟩ := exists_seen und fixed
    have hups := hresult ups
    rw [hok, conclude] at hups
    split at hups
    · cases hups
    · exact hseen _ (hfixed (ups, 0)) hups.symm

/-- Comment lines of a kind can be added and removed without effect, whatever the settings and
the file, as long as its directives have values, exactly if all pieces in which they are read are
blank, comments or directives that are ignored.  Where a directive has no value, such comments
still change nothing but what two runs of the same file can differ in. -/
theorem comments_no_effect_iff (overflow : Int → Int) (comments : Set Comment) :
    ((∀ file, Complete file → NoEffect overflow comments file) ↔ NeutralComments comments) ∧
      (NeutralComments comments → ∀ file,
        NoEffect overflow comments file ↔ Determinate overflow file) := by
  refine ⟨⟨fun hsame => ?_, fun hneutral file hcomplete => ?_⟩, noEffect_iff_determinate⟩
  · exact neutralComments_of_noEffect (hsame [] fun piece hpiece => by cases hpiece)
  · exact (noEffect_iff_determinate hneutral file).mpr (determinate_of_complete hcomplete overflow)

/-- A comment of 265 characters; the last ten are read on their own. -/
def longComment : List Char :=
  '#' :: (List.replicate 254 ' ' ++ "TIMEOUT 5\n".toList)

theorem commentLine_longComment : CommentLine longComment where
  oneLine := ⟨'#' :: (List.replicate 254 ' ' ++ "TIMEOUT 5".toList), by decide +kernel,
    Or.inr (by decide +kernel)⟩
  comment := by decide +kernel

/-- The last piece of a long comment is taken for a directive. -/
theorem long_comment_sets_timeout :
    Inserts {⟨longComment, commentLine_longComment⟩} [] longComment ∧
      (checkForConfig (fun _ => ⟨0, [], id⟩) blankSettings []).map (·.ints .maxtime) = .ok 0 ∧
      (checkForConfig (fun _ => ⟨0, [], id⟩) blankSettings longComment).map (·.ints .maxtime) =
        .ok 5 :=
  ⟨⟨[], _, rfl, [], whole_nil, Or.inr rfl, rfl, (List.append_nil _).symm⟩, rfl, by
    decide +kernel⟩

end Config
end Apcupsd
