import Apcupsd.Lock.Lockfile

/-!
# Who holds the lock

A process takes a lock file over in three system calls: it finds that the recorded
process is gone, it removes the name, and it creates the file anew.  The removal is the
one call that does not check what it acts on.  As long as it removes the file that was
examined, the lock excludes the other process.

Main results:

- Theorem {lit}`LockInv.step`: what every system call preserves.
- Theorem {lit}`lockfile_excludes`: in a run in which every removal meets the file that was
  examined, at most one process gets the lock, and none while a third one holds it.
- Theorem {lit}`takenOver_twice`: in the other runs two processes may get it.
-/

namespace Apcupsd

open CStrings

/-! ## The processes and the runs -/

/-- Two live processes that are not related, with a lock file to use, and at its path
nothing or the process id of another process. -/
structure TwoDaemons (env : LockEnv) (found : Option (List Char)) : Prop where
  distinct : env.pid .first ≠ env.pid .second
  range : ∀ who, env.pid who < 2 ^ 31
  live : ∀ who, env.alive (env.pid who) = true
  unrelated : ∀ who, env.ppid who ≠ env.pid who.other
  locks : ∀ who, env.shutdownUps who = false ∧ env.apcNet who = false
  lockpath : env.noLockpath = false
  recorded : ∀ text ∈ found, ∃ pid, HoldsPid text pid ∧ ∀ who, pid ≠ env.pid who

theorem TwoDaemons.lockStart_eq {env : LockEnv} {found : Option (List Char)}
    (htwo : TwoDaemons env found) (who : Daemon) : lockStart env who = .openFile := by
  rcases htwo.locks who with ⟨hshutdown, hnet⟩
  simp [lockStart, hshutdown, hnet, htwo.lockpath]

/-- The recorded process is not the parent of either. -/
def NotParent (env : LockEnv) (found : Option (List Char)) : Prop :=
  ∀ text ∈ found, ∀ who, ¬ HoldsPid text (env.ppid who)

/-- A removal meets the file that was examined. -/
def UnlinksExamined (s : LockState) (label : LockLabel) : Prop :=
  ∀ file, s.pc label.who = .unlink file → s.entry = some file

instance (s : LockState) (label : LockLabel) : Decidable (UnlinksExamined s label) :=
  match hpc : s.pc label.who with
  | .unlink file =>
      decidable_of_iff (s.entry = some file)
        ⟨fun hentry _ hother => by
          rw [hpc] at hother
          exact LockPc.unlink.inj hother ▸ hentry,
        fun hall => hall file hpc⟩
  | .start | .openFile | .readFile _ | .kill _ _ | .create | .writeFile _ | .returned _ =>
      isTrue fun _ hother => by
        rw [hpc] at hother
        cases hother

/-! ## The invariant -/

section Invariant

variable {env : LockEnv} {found : Option (List Char)} {s t : LockState} {who : Daemon}

/-- A process has got the file, or is about to write to the one that it has created. -/
def LockPc.holds : LockPc → Bool
  | .writeFile _ | .returned true => true
  | _ => false

/-- Somebody has read this process id from the file. -/
def LockState.HasRead (s : LockState) (file : ℕ) (stalepid : Int) : Prop :=
  file < s.created ∧ s.contents file ≠ [] ∧
    ∃ junk, sscanfInt ((s.contents file).take 11 ++ junk) = some stalepid

/-- The file at the path is the one that the process has written. -/
def LockState.Owns (env : LockEnv) (s : LockState) (who : Daemon) : Prop :=
  ∃ file, s.entry = some file ∧ s.contents file = pidText (env.pid who)

/-- What holds of a process at its next system call. -/
def LockState.LocalInv (env : LockEnv) (s : LockState) (who : Daemon) : LockPc → Prop
  | .readFile file => file < s.created
  | .kill file stalepid => s.HasRead file stalepid
  | .unlink file => ∃ stalepid, s.HasRead file stalepid ∧ env.alive stalepid = false
  | .writeFile file => s.entry = some file ∧ file < s.created ∧ s.contents file = []
  | .returned true => s.Owns env who ∨ s.pc who.other = .returned false
  | _ => True

/-- What a file can contain. -/
def LockState.Written (env : LockEnv) (found : Option (List Char)) (s : LockState)
    (text : List Char) : Prop :=
  text = [] ∨ some text = found ∨
    (∃ who, s.pc who = .returned true ∧ text = pidText (env.pid who)) ∨
    ∃ who count, s.pc who = .returned false ∧ text = (pidText (env.pid who)).take count

/-- The invariant of the runs in which every removal meets the file that was examined. -/
structure LockInv (env : LockEnv) (found : Option (List Char)) (s : LockState) : Prop where
  entry : ∀ file, s.entry = some file → file < s.created
  own : ∀ who, s.LocalInv env who (s.pc who)
  texts : ∀ file < s.created, s.Written env found (s.contents file)
  apart : ∀ who, (s.pc who).holds = true → (s.pc who.other).holds = false

/-- The files that were there before a system call, and have contents, keep them. -/
structure KeepsFiles (s t : LockState) : Prop where
  created : s.created ≤ t.created
  contents : ∀ file < s.created, s.contents file ≠ [] → t.contents file = s.contents file

theorem LockState.HasRead.keep {file : ℕ} {stalepid : Int} (hread : s.HasRead file stalepid)
    (hkeeps : KeepsFiles s t) : t.HasRead file stalepid := by
  rcases hread with ⟨hfile, htext, hpid⟩
  have hsame := hkeeps.contents file hfile htext
  exact ⟨hfile.trans_le hkeeps.created, by rwa [hsame], by rwa [hsame]⟩

theorem LockState.Written.keep {text : List Char} (hwritten : s.Written env found text)
    (hmove : LockMove env s t who) : t.Written env found text := by
  rcases hwritten with hnil | hfound | ⟨x, hx, htext⟩ | ⟨x, count, hx, htext⟩
  · exact Or.inl hnil
  · exact Or.inr (Or.inl hfound)
  · exact Or.inr (Or.inr (Or.inl ⟨x, hmove.returned hx, htext⟩))
  · exact Or.inr (Or.inr (Or.inr ⟨x, count, hmove.returned hx, htext⟩))

/-- A process id that was read from a file with these contents. -/
theorem HoldsPid.eq_of_hasRead {file : ℕ} {pid stalepid : Int}
    (hholds : HoldsPid (s.contents file) pid) (hread : s.HasRead file stalepid) :
    stalepid = pid := by
  rcases hread with ⟨-, -, junk, hscan⟩
  exact Option.some.inj (hscan.symm.trans (hholds junk))

/-! ## One system call -/

namespace LockInv

variable (hinv : LockInv env found s)
include hinv

theorem keepsFiles (hmove : LockMove env s t who) : KeepsFiles s t := by
  have hown := hinv.own who
  cases hmove with
  | start _ ht | absent _ _ ht | found _ _ ht | read _ _ ht | stale _ _ ht | unlink _ ht
  | error _ ht =>
      subst ht
      exact ⟨le_rfl, fun _ _ _ => rfl⟩
  | create _ _ ht =>
      subst ht
      exact ⟨Nat.le_succ _, fun file hfile _ => if_neg hfile.ne⟩
  | write hpc ht | cut _ hpc ht =>
      subst ht
      rw [hpc] at hown
      refine ⟨le_rfl, fun file _ htext => if_neg ?_⟩
      rintro rfl
      exact htext hown.2.2

theorem texts_step (hmove : LockMove env s t who) :
    ∀ file < t.created, t.Written env found (t.contents file) := by
  have hkept : ∀ file < s.created, t.Written env found (s.contents file) :=
    fun file hfile => (hinv.texts file hfile).keep hmove
  cases hmove with
  | start _ ht | absent _ _ ht | found _ _ ht | read _ _ ht | stale _ _ ht | unlink _ ht
  | error _ ht =>
      subst ht
      exact hkept
  | create _ _ ht =>
      intro file hfile
      by_cases hnew : file = s.created
      · refine Or.inl ?_
        subst ht
        exact if_pos hnew
      · have hold : t.contents file = s.contents file := by
          subst ht
          exact if_neg hnew
        rw [hold]
        refine hkept file ?_
        subst ht
        exact lt_of_le_of_ne (Nat.lt_succ_iff.mp hfile) hnew
  | @write target _ ht =>
      intro file hfile
      by_cases hnew : file = target
      · refine Or.inr (Or.inr (Or.inl ⟨who, ?_, ?_⟩)) <;> subst ht
        · exact LockState.setPc_pc_self _ _ _
        · exact if_pos hnew
      · have hold : t.contents file = s.contents file := by
          subst ht
          exact if_neg hnew
        rw [hold]
        exact hkept file (by subst ht; exact hfile)
  | @cut target count _ ht =>
      intro file hfile
      by_cases hnew : file = target
      · refine Or.inr (Or.inr (Or.inr ⟨who, count, ?_, ?_⟩)) <;> subst ht
        · exact LockState.setPc_pc_self _ _ _
        · exact if_pos hnew
      · have hold : t.contents file = s.contents file := by
          subst ht
          exact if_neg hnew
        rw [hold]
        exact hkept file (by subst ht; exact hfile)

theorem entry_step (hmove : LockMove env s t who) :
    ∀ file, t.entry = some file → file < t.created := by
  cases hmove with
  | start _ ht | absent _ _ ht | found _ _ ht | read _ _ ht | stale _ _ ht | write _ ht
  | cut _ _ ht | error _ ht =>
      subst ht
      exact hinv.entry
  | unlink _ ht =>
      subst ht
      intro file hfile
      cases hfile
  | create _ _ ht =>
      subst ht
      intro file hfile
      obtain rfl := Option.some.inj hfile
      exact Nat.lt_succ_self _

/-- A process that holds the lock finds its file at the path. -/
theorem entry_of_holds (hmove : LockMove env s t who)
    (hholds : (s.pc who.other).holds = true) :
    (∃ file, s.entry = some file ∧ s.pc who.other = .writeFile file ∧ s.contents file = []) ∨
      s.pc who.other = .returned true ∧ s.Owns env who.other := by
  have hown := hinv.own who.other
  cases hpc : s.pc who.other with
  | writeFile file =>
      rw [hpc] at hown
      exact Or.inl ⟨file, hown.1, rfl, hown.2.2⟩
  | returned success =>
      cases success with
      | true =>
          rw [hpc] at hown
          rcases hown with howns | hreturned
          · exact Or.inr ⟨rfl, howns⟩
          · rw [Daemon.other_other] at hreturned
            exact absurd hreturned (hmove.not_returned false)
      | false => rw [hpc] at hholds; cases hholds
  | start | openFile | readFile _ | kill _ _ | unlink _ | create =>
      rw [hpc] at hholds
      cases hholds

variable (htwo : TwoDaemons env found)
include htwo

/-- No call of one process disturbs the lock of the other. -/
theorem lock_kept (hmove : LockMove env s t who)
    (hgood : ∀ file, s.pc who = .unlink file → s.entry = some file)
    (hholds : (s.pc who.other).holds = true) :
    t.entry = s.entry ∧ ∀ file, s.entry = some file → t.contents file = s.contents file := by
  have hlocks := hinv.entry_of_holds hmove hholds
  have hown := hinv.own who
  cases hmove with
  | start _ ht | absent _ _ ht | found _ _ ht | read _ _ ht | stale _ _ ht | error _ ht =>
      subst ht
      exact ⟨rfl, fun _ _ => rfl⟩
  | @unlink file hpc ht =>
      rw [hpc] at hown
      rcases hown with ⟨stalepid, hread, hdead⟩
      have hentry := hgood file hpc
      rcases hlocks with ⟨other, hother, -, hempty⟩ | ⟨-, other, hother, htext⟩
      · obtain rfl := Option.some.inj (hentry.symm.trans hother)
        exact absurd hempty hread.2.1
      · obtain rfl := Option.some.inj (hentry.symm.trans hother)
        have hholdsPid : HoldsPid (s.contents file) (env.pid who.other) :=
          htext ▸ sscanfInt_pidText (htwo.range who.other)
        rw [hholdsPid.eq_of_hasRead hread, htwo.live] at hdead
        cases hdead
  | create _ hentry _ =>
      rcases hlocks with ⟨other, hother, -⟩ | ⟨-, other, hother, -⟩ <;>
        exact absurd (hentry.symm.trans hother) (Option.some_ne_none _).symm
  | write hpc _ | cut _ hpc _ =>
      have hapart := hinv.apart who (by rw [hpc]; rfl)
      rw [hholds] at hapart
      cases hapart

/-- A process that finds its own process id, or that of its parent, meets the remains of
the other process's failure. -/
theorem returned_of_judge (hparent : NotParent env found) {file : ℕ} {junk : List Char}
    (hpc : s.pc who = .readFile file)
    (hjudge : judgePid env who file ((s.contents file).take 11) junk = .returned true) :
    s.pc who.other = .returned false := by
  have hfile := hinv.own who
  rw [hpc] at hfile
  have hother : ∀ {x : Daemon} {success : Bool}, s.pc x = .returned success → x = who.other := by
    intro x success hx
    refine Daemon.eq_other_of_ne ?_
    rintro rfl
    rw [hpc] at hx
    cases hx
  rcases judgePid_cases env who file ((s.contents file).take 11) junk with
    hfalse | ⟨htext, stalepid, hscan, ⟨hkin, -⟩ | hkill⟩
  · rw [hjudge] at hfalse
    cases hfalse
  · have hread : s.HasRead file stalepid :=
      ⟨hfile, fun hnil => htext (by rw [hnil]; rfl), junk, hscan⟩
    rcases hinv.texts file hfile with hnil | hfound | ⟨x, hx, hwritten⟩ | ⟨x, count, hx, -⟩
    · exact absurd hnil hread.2.1
    · rcases htwo.recorded _ hfound.symm with ⟨pid, hholds, hne⟩
      obtain rfl := hholds.eq_of_hasRead hread
      rcases hkin with rfl | rfl
      · exact absurd rfl (hne who)
      · exact absurd hholds (hparent _ hfound.symm who)
    · obtain rfl := hother hx
      have hholds : HoldsPid (s.contents file) (env.pid who.other) :=
        hwritten ▸ sscanfInt_pidText (htwo.range who.other)
      obtain rfl := hholds.eq_of_hasRead hread
      rcases hkin with hkin | hkin
      · have hsame := Int.ofNat_inj.mp hkin
        cases who with
        | first => exact absurd hsame.symm htwo.distinct
        | second => exact absurd hsame htwo.distinct
      · exact absurd hkin.symm (htwo.unrelated who)
    · obtain rfl := hother hx
      exact hx
  · rw [hjudge] at hkill
    cases hkill

theorem other_step (hmove : LockMove env s t who)
    (hgood : ∀ file, s.pc who = .unlink file → s.entry = some file) :
    t.LocalInv env who.other (t.pc who.other) := by
  have hown := hinv.own who.other
  have hkeeps := hinv.keepsFiles hmove
  have hlock := hinv.lock_kept htwo hmove hgood
  have hreturned := hmove.not_returned false
  rw [hmove.pc_other]
  cases hpc : s.pc who.other with
  | readFile file =>
      rw [hpc] at hown
      exact lt_of_lt_of_le hown hkeeps.created
  | kill file stalepid =>
      rw [hpc] at hown
      exact hown.keep hkeeps
  | unlink file =>
      rw [hpc] at hown
      rcases hown with ⟨stalepid, hread, hdead⟩
      exact ⟨stalepid, hread.keep hkeeps, hdead⟩
  | writeFile file =>
      rw [hpc] at hown
      rcases hlock (by rw [hpc]; rfl) with ⟨hentry, hcontents⟩
      exact ⟨hentry.trans hown.1, hown.2.1.trans_le hkeeps.created,
        (hcontents file hown.1).trans hown.2.2⟩
  | returned success =>
      cases success with
      | false => trivial
      | true =>
          rw [hpc] at hown
          rcases hlock (by rw [hpc]; rfl) with ⟨hentry, hcontents⟩
          rcases hown with ⟨file, hfile, htext⟩ | hfailed
          · exact Or.inl ⟨file, hentry.trans hfile, (hcontents file hfile).trans htext⟩
          · rw [Daemon.other_other] at hfailed
            exact absurd hfailed hreturned
  | start | openFile | create => trivial

theorem own_step (hparent : NotParent env found) (hmove : LockMove env s t who) :
    t.LocalInv env who (t.pc who) := by
  have hown := hinv.own who
  have hother := hmove.pc_other
  cases hmove with
  | start hpc ht =>
      rw [ht, LockState.setPc_pc_self, htwo.lockStart_eq]
      trivial
  | found hpc hentry ht =>
      rw [ht, LockState.setPc_pc_self]
      exact hinv.entry _ hentry
  | @read file junk hpc ht =>
      rw [hpc] at hown
      rcases judgePid_cases env who file ((s.contents file).take 11) junk with
        hfalse | ⟨htext, stalepid, hscan, ⟨-, htrue⟩ | hkill⟩
      · rw [ht, LockState.setPc_pc_self, hfalse]
        trivial
      · have hfailed := hinv.returned_of_judge htwo hparent hpc htrue
        rw [← hother] at hfailed
        have hpcTrue : t.pc who = .returned true := by
          rw [ht, LockState.setPc_pc_self, htrue]
        rw [hpcTrue]
        exact Or.inr hfailed
      · rw [ht, LockState.setPc_pc_self, hkill]
        exact ⟨hown, fun hnil : s.contents file = [] => htext (by rw [hnil]; rfl), junk, hscan⟩
  | stale hpc hdead ht =>
      rw [hpc] at hown
      rw [ht, LockState.setPc_pc_self]
      exact ⟨_, hown, hdead⟩
  | create hpc hentry ht =>
      rw [ht, LockState.setPc_pc_self]
      exact ⟨rfl, Nat.lt_succ_self _, if_pos rfl⟩
  | @write file hpc ht =>
      rw [hpc] at hown
      rw [ht, LockState.setPc_pc_self]
      exact Or.inl ⟨file, hown.1, if_pos rfl⟩
  | absent _ _ ht | unlink _ ht | cut _ _ ht | error _ ht =>
      rw [ht, LockState.setPc_pc_self]
      trivial

/-- A process gets the lock only when the other one does not have it. -/
theorem other_free (hparent : NotParent env found) (hmove : LockMove env s t who)
    (hholds : (t.pc who).holds = true) : (s.pc who.other).holds = false := by
  have hfree := hinv.entry_of_holds hmove
  cases hmove with
  | start hpc ht =>
      rw [ht, LockState.setPc_pc_self, htwo.lockStart_eq] at hholds
      cases hholds
  | @read file junk hpc ht =>
      rw [ht, LockState.setPc_pc_self] at hholds
      rcases judgePid_cases env who file ((s.contents file).take 11) junk with
        hfalse | ⟨-, stalepid, -, ⟨-, htrue⟩ | hkill⟩
      · rw [hfalse] at hholds
        cases hholds
      · rw [hinv.returned_of_judge htwo hparent hpc htrue]
        rfl
      · rw [hkill] at hholds
        cases hholds
  | create hpc hentry ht =>
      by_contra hother
      rcases hfree (Bool.eq_true_of_not_eq_false hother) with ⟨file, hfile, -⟩ | ⟨-, file, hfile, -⟩ <;>
        exact absurd (hentry.symm.trans hfile) (Option.some_ne_none _).symm
  | write hpc ht =>
      exact hinv.apart who (by rw [hpc]; rfl)
  | absent _ _ ht | found _ _ ht | stale _ _ ht | unlink _ ht | cut _ _ ht | error _ ht =>
      rw [ht, LockState.setPc_pc_self] at hholds
      cases hholds

/-- What every system call preserves. -/
theorem step (hparent : NotParent env found) (hmove : LockMove env s t who)
    (hgood : ∀ file, s.pc who = .unlink file → s.entry = some file) : LockInv env found t := by
  have hfree := hinv.other_free htwo hparent hmove
  rw [← hmove.pc_other] at hfree
  refine ⟨hinv.entry_step hmove, fun x => ?_, hinv.texts_step hmove, fun x hholds => ?_⟩
  · by_cases hx : x = who
    · rw [hx]
      exact hinv.own_step htwo hparent hmove
    · rw [Daemon.eq_other_of_ne hx]
      exact hinv.other_step htwo hmove hgood
  · by_cases hx : x = who
    · rw [hx] at hholds ⊢
      exact hfree hholds
    · rw [Daemon.eq_other_of_ne hx] at hholds ⊢
      rw [Daemon.other_other]
      by_contra hself
      rw [hfree (Bool.eq_true_of_not_eq_false hself)] at hholds
      cases hholds

end LockInv

theorem lockInv_init : LockInv env found (lockInit found) := by
  refine ⟨fun file hfile => ?_, fun _ => trivial, fun file hfile => ?_, fun _ hholds => ?_⟩
  · rcases Option.map_eq_some_iff.mp hfile with ⟨text, -, rfl⟩
    exact Nat.one_pos
  · cases found with
    | none => exact Or.inl rfl
    | some text => exact Or.inr (Or.inl rfl)
  · cases hholds

/-! ## A file that another process holds -/

/-- As long as the recorded process lives, nobody touches the file. -/
structure Untouched (text : List Char) (pid : Int) (s : LockState) : Prop where
  entry : s.entry = some 0
  contents : s.contents 0 = text
  points : ∀ who, s.pc who = .start ∨ s.pc who = .openFile ∨ s.pc who = .readFile 0 ∨
    s.pc who = .kill 0 pid ∨ s.pc who = .returned false

theorem Untouched.step {text : List Char} {pid : Int} (hun : Untouched text pid s)
    (htwo : TwoDaemons env found) (hholds : HoldsPid text pid) (halive : env.alive pid = true)
    (hne : ∀ who, pid ≠ env.pid who ∧ pid ≠ env.ppid who) (hmove : LockMove env s t who) :
    Untouched text pid t := by
  have hset : ∀ pc : LockPc, (pc = .openFile ∨ pc = .readFile 0 ∨ pc = .kill 0 pid ∨
      pc = .returned false) → Untouched text pid (s.setPc who pc) := by
    intro pc hpc
    refine ⟨hun.entry, hun.contents, fun x => ?_⟩
    by_cases hx : x = who
    · rw [hx, LockState.setPc_pc_self]
      exact Or.inr hpc
    · rw [Daemon.eq_other_of_ne hx, LockState.setPc_pc_other]
      exact hun.points who.other
  have hpoint := hun.points who
  cases hmove with
  | start hpc ht =>
      rw [ht, htwo.lockStart_eq]
      exact hset _ (Or.inl rfl)
  | absent hpc hentry ht =>
      rw [hun.entry] at hentry
      cases hentry
  | found hpc hentry ht =>
      obtain rfl := Option.some.inj (hun.entry.symm.trans hentry)
      rw [ht]
      exact hset _ (Or.inr (Or.inl rfl))
  | @read file junk hpc ht =>
      simp only [hpc, reduceCtorEq, false_or, or_false, LockPc.readFile.injEq] at hpoint
      subst hpoint
      rw [ht, hun.contents]
      rcases judgePid_cases env who 0 (text.take 11) junk with
        hfalse | ⟨-, stalepid, hscan, hrest⟩
      · rw [hfalse]
        exact hset _ (Or.inr (Or.inr (Or.inr rfl)))
      · obtain rfl := Option.some.inj (hscan.symm.trans (hholds junk))
        rcases hrest with ⟨hself | hparent, -⟩ | hkill
        · exact absurd hself (hne who).1
        · exact absurd hparent (hne who).2
        · rw [hkill]
          exact hset _ (Or.inr (Or.inr (Or.inl rfl)))
  | stale hpc hdead ht =>
      simp only [hpc, reduceCtorEq, false_or, or_false, LockPc.kill.injEq] at hpoint
      rw [hpoint.2, halive] at hdead
      cases hdead
  | error _ ht =>
      rw [ht]
      exact hset _ (Or.inr (Or.inr (Or.inr rfl)))
  | unlink hpc _ | create hpc _ _ | write hpc _ | cut _ hpc _ => simp [hpc] at hpoint

end Invariant

/-! ## Exclusion -/

/-- In a run in which every removal meets the file that was examined, and the recorded
process is not the parent of either, at most one process gets the lock, and none while the
recorded process lives. -/
theorem lockfile_excludes {env : LockEnv} {found : Option (List Char)} {s : LockState}
    (htwo : TwoDaemons env found) (hparent : NotParent env found)
    (hrun : Reaches (lockStep env) UnlinksExamined (lockInit found) s) :
    ¬ (s.pc .first = .returned true ∧ s.pc .second = .returned true) ∧
      ∀ text ∈ found, ∀ pid, HoldsPid text pid → env.alive pid = true →
        ∀ who, s.pc who ≠ .returned true := by
  constructor
  · rintro ⟨hfirst, hsecond⟩
    have hinv : LockInv env found s :=
      hrun.invariant
        (fun hgood hstep hinv => hinv.step htwo hparent (LockMove.of_lockStep hstep) hgood)
        lockInv_init
    have hfree := hinv.apart .first (by rw [hfirst]; rfl)
    rw [Daemon.other, hsecond] at hfree
    cases hfree
  · rintro text htext pid hholds halive who hreturned
    have hne : ∀ who, pid ≠ env.pid who ∧ pid ≠ env.ppid who := by
      intro who
      rcases htwo.recorded text htext with ⟨recorded, hrecorded, hother⟩
      obtain rfl : recorded = pid := Option.some.inj ((hrecorded []).symm.trans (hholds []))
      refine ⟨hother who, ?_⟩
      rintro rfl
      exact hparent text htext who hholds
    have huntouched : Untouched text pid s := by
      refine hrun.invariant
        (fun _ hstep hun => hun.step htwo hholds halive hne (LockMove.of_lockStep hstep)) ?_
      rw [Option.mem_def] at htext
      subst htext
      exact ⟨rfl, rfl, fun _ => Or.inl rfl⟩
    have hpoint := huntouched.points who
    simp [hreturned] at hpoint

/-! ## Examples of runs -/

/-- Process 50 is gone; 100 and 200 start. -/
def restartEnv : LockEnv where
  pid := fun who => if who = .first then 100 else 200
  ppid := fun _ => 1
  alive := fun pid => decide (pid = 1 ∨ pid = 100 ∨ pid = 200)
  shutdownUps := fun _ => false
  apcNet := fun _ => false
  noLockpath := false

/-- A list of processes whose next system call does what it is for. -/
def callsOf (order : List Daemon) : List LockLabel :=
  order.map fun who => ⟨who, .done []⟩

theorem twoDaemons_restart : TwoDaemons restartEnv (some (pidText 50)) := by
  refine ⟨by decide, fun who => ?_, fun who => ?_, fun who => ?_, fun _ => ⟨rfl, rfl⟩, rfl, ?_⟩
  · cases who <;> decide
  · cases who <;> decide
  · cases who <;> decide
  · rintro text ⟨⟩
    refine ⟨50, sscanfInt_pidText (by decide), fun who => ?_⟩
    cases who <;> decide

theorem notParent_restart : NotParent restartEnv (some (pidText 50)) := by
  rintro text ⟨⟩ who hholds
  have hsame : some (50 : Int) = some 1 :=
    (sscanfInt_pidText (show 50 < 2 ^ 31 by decide) []).symm.trans (hholds [])
  revert hsame
  decide

/-- Both processes find the recorded one gone before the first of them removes the file;
the second one then removes the lock of the first. -/
theorem takenOver_twice :
    TwoDaemons restartEnv (some (pidText 50)) ∧ NotParent restartEnv (some (pidText 50)) ∧
      ∃ s, Reaches (lockStep restartEnv) (fun _ _ => True) (lockInit (some (pidText 50))) s ∧
        s.pc .first = .returned true ∧ s.pc .second = .returned true := by
  have hexec : (execute (lockStep restartEnv) (fun _ _ => True) (lockInit (some (pidText 50)))
      (callsOf [.first, .first, .first, .first, .second, .second, .second, .second,
        .first, .first, .first, .second, .second, .second])).map
        (fun s => (s.pc .first, s.pc .second)) = some (.returned true, .returned true) := by
    decide +kernel
  rcases Option.map_eq_some_iff.mp hexec with ⟨s, hs, hpcs⟩
  exact ⟨twoDaemons_restart, notParent_restart, s, reaches_of_execute hs,
    congrArg Prod.fst hpcs, congrArg Prod.snd hpcs⟩

/-- The theorem at work: one process takes the file over before the other one opens it. -/
theorem lockfile_excludes_restart :
    ∃ s, Reaches (lockStep restartEnv) UnlinksExamined (lockInit (some (pidText 50))) s ∧
      s.pc .first = .returned true ∧
      ¬ (s.pc .first = .returned true ∧ s.pc .second = .returned true) := by
  have hexec : (execute (lockStep restartEnv) UnlinksExamined (lockInit (some (pidText 50)))
      (callsOf [.first, .first, .first, .first, .first, .first, .first,
        .second, .second, .second, .second])).map
        (fun s => (s.pc .first, s.pc .second)) = some (.returned true, .returned false) := by
    decide +kernel
  rcases Option.map_eq_some_iff.mp hexec with ⟨s, hs, hpcs⟩
  have hrun := reaches_of_execute hs
  exact ⟨s, hrun, congrArg Prod.fst hpcs,
    (lockfile_excludes twoDaemons_restart notParent_restart hrun).1⟩

end Apcupsd
