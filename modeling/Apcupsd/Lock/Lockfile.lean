import Apcupsd.Foundations.CStrings
import Apcupsd.Foundations.Execution

/-!
# The lock file

{lit}`check_stale_lockfile` and {lit}`create_lockfile` from {lit}`lib/apclock.c`, as two
processes run them on one path: one step of the model is one system call.  A file keeps
its contents while it is open, also after its name has been removed, so the name and the
files are two parts of the state.

Main results:

- Definition {lit}`lockStep`: a system call of one of the processes, with its outcome.
- Theorem {lit}`LockMove.of_lockStep`: what a system call can be.
- Theorem {lit}`sscanfInt_pidText`: the process id that {lit}`create_lockfile` writes is the
  one that {lit}`check_stale_lockfile` reads.
-/

namespace Apcupsd

open CStrings

/-! ## The two processes and the files -/

/-- The two processes. -/
inductive Daemon where
  | first | second
deriving DecidableEq, Repr

def Daemon.other : Daemon → Daemon
  | .first => .second
  | .second => .first

@[simp]
theorem Daemon.other_other (who : Daemon) : who.other.other = who := by
  cases who <;> rfl

theorem Daemon.eq_other_of_ne {who x : Daemon} (hne : x ≠ who) : x = who.other := by
  cases who <;> cases x <;> first | rfl | exact absurd rfl hne

theorem Daemon.ne_other (who : Daemon) : who ≠ who.other := by
  cases who <;> decide

/-- What the processes find in the system and in their configuration. -/
structure LockEnv where
  /-- {lit}`getpid` -/
  pid : Daemon → ℕ
  /-- {lit}`getppid` -/
  ppid : Daemon → Int
  /-- {lit}`kill(pid, 0)` does not fail with {lit}`ESRCH`. -/
  alive : Int → Bool
  /-- {lit}`hibernate_ups || shutdown_ups` -/
  shutdownUps : Daemon → Bool
  /-- {lit}`ups->cable.type == APC_NET` -/
  apcNet : Daemon → Bool
  /-- {lit}`ups->lockpath[0] == '\0'` -/
  noLockpath : Bool

/-- Where a process is: the next system call, with the file that is open. -/
inductive LockPc where
  | start
  | openFile
  | readFile (file : ℕ)
  | kill (file : ℕ) (stalepid : Int)
  | unlink (file : ℕ)
  | create
  | writeFile (file : ℕ)
  /-- {lit}`LCKSUCCESS` or {lit}`LCKERROR`. -/
  | returned (success : Bool)
deriving DecidableEq, Repr

/-- The file at {lit}`lockpath`, the contents of all files that were ever created, and the
processes. -/
structure LockState where
  entry : Option ℕ
  contents : ℕ → List Char
  created : ℕ
  pc : Daemon → LockPc

/-- {lit}`"%010ld"` of the process id, with its terminator. -/
def pidText (pid : ℕ) : List Char :=
  padLeft '0' 10 (decimal pid) ++ [nul]

/-! ## One system call -/

/-- The outcome of a system call, as far as the state leaves it open. -/
inductive SysOutcome where
  /-- The call does what it is for; the list is what the stack holds behind the bytes
  that a read delivers. -/
  | done (junk : List Char)
  /-- The call fails for some reason of the system. -/
  | fails
  /-- A write stores only some bytes. -/
  | short (count : ℕ)
deriving DecidableEq, Repr

structure LockLabel where
  who : Daemon
  outcome : SysOutcome
deriving DecidableEq, Repr

namespace LockState

def setPc (s : LockState) (who : Daemon) (pc : LockPc) : LockState :=
  { s with pc := fun x => if x = who then pc else s.pc x }

@[simp]
theorem setPc_pc_self (s : LockState) (who : Daemon) (pc : LockPc) :
    (s.setPc who pc).pc who = pc :=
  if_pos rfl

@[simp]
theorem setPc_pc_other (s : LockState) (who : Daemon) (pc : LockPc) :
    (s.setPc who pc).pc who.other = s.pc who.other :=
  if_neg who.ne_other.symm

@[simp]
theorem setPc_entry (s : LockState) (who : Daemon) (pc : LockPc) :
    (s.setPc who pc).entry = s.entry :=
  rfl

@[simp]
theorem setPc_contents (s : LockState) (who : Daemon) (pc : LockPc) :
    (s.setPc who pc).contents = s.contents :=
  rfl

@[simp]
theorem setPc_created (s : LockState) (who : Daemon) (pc : LockPc) :
    (s.setPc who pc).created = s.created :=
  rfl

/-- Store the contents of a file. -/
def store (s : LockState) (file : ℕ) (text : List Char) : LockState :=
  { s with contents := fun i => if i = file then text else s.contents i }

end LockState

variable (env : LockEnv)

/-- {lit}`create_lockfile` and {lit}`check_stale_lockfile` before the first system call. -/
def lockStart (who : Daemon) : LockPc :=
  if env.shutdownUps who then .returned true
  else if env.apcNet who then .returned true
  else if env.noLockpath then .returned false
  else .openFile

/-- What {lit}`check_stale_lockfile` makes of the bytes it has read. -/
def judgePid (who : Daemon) (file : ℕ) (text junk : List Char) : LockPc :=
  if text = [] then .returned false
  else
    match sscanfInt (text ++ junk) with
    | none => .returned false
    | some stalepid =>
        -- our own pid or that of our parent
        if stalepid = env.pid who ∨ stalepid = env.ppid who then .returned true
        else .kill file stalepid

/-- One system call of a process. -/
def lockStep (s : LockState) (label : LockLabel) : Option LockState :=
  let who := label.who
  match s.pc who, label.outcome with
  | .start, .done _ => some (s.setPc who (lockStart env who))
  | .openFile, .done _ =>
      match s.entry with
      | none => some (s.setPc who .create)
      | some file => some (s.setPc who (.readFile file))
  | .readFile file, .done junk =>
      some (s.setPc who (judgePid env who file ((s.contents file).take 11) junk))
  | .kill file stalepid, .done _ =>
      some (s.setPc who (if env.alive stalepid then .returned false else .unlink file))
  | .unlink _, .done _ =>
      if s.entry = none then some (s.setPc who (.returned false))
      else some ({ s with entry := none }.setPc who .create)
  | .create, .done _ =>
      if s.entry = none then
        some ({ s with
          entry := some s.created
          contents := fun i => if i = s.created then [] else s.contents i
          created := s.created + 1 }.setPc who (.writeFile s.created))
      else some (s.setPc who (.returned false))
  | .writeFile file, .done _ =>
      some ((s.store file (pidText (env.pid who))).setPc who (.returned true))
  | .writeFile file, .short count =>
      if count < (pidText (env.pid who)).length then
        some ((s.store file ((pidText (env.pid who)).take count)).setPc who (.returned false))
      else none
  | .openFile, .fails | .readFile _, .fails | .unlink _, .fails | .create, .fails =>
      some (s.setPc who (.returned false))
  | .writeFile _, .fails => some (s.setPc who (.returned false))
  | _, _ => none

/-- What a system call can be. -/
inductive LockMove (s t : LockState) (who : Daemon) : Prop where
  | start (hpc : s.pc who = .start) (ht : t = s.setPc who (lockStart env who))
  | absent (hpc : s.pc who = .openFile) (hentry : s.entry = none) (ht : t = s.setPc who .create)
  | found {file : ℕ} (hpc : s.pc who = .openFile) (hentry : s.entry = some file)
      (ht : t = s.setPc who (.readFile file))
  | read {file : ℕ} (junk : List Char) (hpc : s.pc who = .readFile file)
      (ht : t = s.setPc who (judgePid env who file ((s.contents file).take 11) junk))
  | stale {file : ℕ} {stalepid : Int} (hpc : s.pc who = .kill file stalepid)
      (hdead : env.alive stalepid = false) (ht : t = s.setPc who (.unlink file))
  | unlink {file : ℕ} (hpc : s.pc who = .unlink file)
      (ht : t = { s with entry := none }.setPc who .create)
  | create (hpc : s.pc who = .create) (hentry : s.entry = none)
      (ht : t = { s with
          entry := some s.created
          contents := fun i => if i = s.created then [] else s.contents i
          created := s.created + 1 }.setPc who (.writeFile s.created))
  | write {file : ℕ} (hpc : s.pc who = .writeFile file)
      (ht : t = (s.store file (pidText (env.pid who))).setPc who (.returned true))
  | cut {file : ℕ} (count : ℕ) (hpc : s.pc who = .writeFile file)
      (ht : t = (s.store file ((pidText (env.pid who)).take count)).setPc who (.returned false))
  | error (hpc : ∀ success, s.pc who ≠ .returned success)
      (ht : t = s.setPc who (.returned false))

variable {env} in
theorem LockMove.of_lockStep {s t : LockState} {label : LockLabel}
    (hstep : lockStep env s label = some t) : LockMove env s t label.who := by
  unfold lockStep at hstep
  dsimp only at hstep
  split at hstep
  case h_1 hpc _ => exact .start hpc (Option.some.inj hstep).symm
  case h_2 hpc _ =>
      split at hstep
      case h_1 hentry => exact .absent hpc hentry (Option.some.inj hstep).symm
      case h_2 hentry => exact .found hpc hentry (Option.some.inj hstep).symm
  case h_3 hpc _ => exact .read _ hpc (Option.some.inj hstep).symm
  case h_4 hpc _ =>
      split_ifs at hstep with halive
      · exact .error (by simp [hpc]) (Option.some.inj hstep).symm
      · exact .stale hpc (Bool.eq_false_iff.mpr halive) (Option.some.inj hstep).symm
  case h_5 hpc _ =>
      split_ifs at hstep
      · exact .error (by simp [hpc]) (Option.some.inj hstep).symm
      · exact .unlink hpc (Option.some.inj hstep).symm
  case h_6 hpc _ =>
      split_ifs at hstep with hentry
      · exact .create hpc hentry (Option.some.inj hstep).symm
      · exact .error (by simp [hpc]) (Option.some.inj hstep).symm
  case h_7 hpc _ => exact .write hpc (Option.some.inj hstep).symm
  case h_8 hpc _ =>
      split_ifs at hstep
      exact .cut _ hpc (Option.some.inj hstep).symm
  case h_14 => cases hstep
  all_goals
    next hpc _ => exact .error (by simp [hpc]) (Option.some.inj hstep).symm

namespace LockMove

variable {env} {s t : LockState} {who : Daemon} (hmove : LockMove env s t who)
include hmove

/-- A process that has returned makes no more calls. -/
theorem not_returned (success : Bool) : s.pc who ≠ .returned success := by
  intro hreturned
  cases hmove with
  | error hpc _ => exact hpc success hreturned
  | start hpc _ | absent hpc _ _ | found hpc _ _ | read _ hpc _ | stale hpc _ _ | unlink hpc _
  | create hpc _ _ | write hpc _ | cut _ hpc _ =>
      rw [hpc] at hreturned
      cases hreturned

theorem pc_other : t.pc who.other = s.pc who.other := by
  cases hmove with
  | start _ ht | absent _ _ ht | found _ _ ht | read _ _ ht | stale _ _ ht | unlink _ ht
  | create _ _ ht | write _ ht | cut _ _ ht | error _ ht =>
      rw [ht]
      exact LockState.setPc_pc_other _ _ _

theorem returned {x : Daemon} {success : Bool} (hx : s.pc x = .returned success) :
    t.pc x = .returned success := by
  have hne : x ≠ who := by
    rintro rfl
    exact hmove.not_returned success hx
  obtain rfl := Daemon.eq_other_of_ne hne
  exact hmove.pc_other.trans hx

end LockMove

/-- What becomes of the bytes that were read. -/
theorem judgePid_cases (who : Daemon) (file : ℕ) (text junk : List Char) :
    judgePid env who file text junk = .returned false ∨
      text ≠ [] ∧ ∃ stalepid, sscanfInt (text ++ junk) = some stalepid ∧
        ((stalepid = env.pid who ∨ stalepid = env.ppid who) ∧
            judgePid env who file text junk = .returned true ∨
          judgePid env who file text junk = .kill file stalepid) := by
  unfold judgePid
  split_ifs with htext
  · exact Or.inl rfl
  · cases hscan : sscanfInt (text ++ junk) with
    | none => exact Or.inl rfl
    | some stalepid =>
        refine Or.inr ⟨htext, stalepid, rfl, ?_⟩
        dsimp only
        split_ifs with hkin
        · exact Or.inl ⟨hkin, rfl⟩
        · exact Or.inr rfl

/-- Both processes at the beginning, with a file at the path or without. -/
def lockInit (found : Option (List Char)) : LockState where
  entry := found.map fun _ => 0
  contents := fun _ => found.getD []
  created := 1
  pc := fun _ => .start

/-- The contents of a file that hold a process id: it is read whatever is on the stack. -/
def HoldsPid (text : List Char) (pid : Int) : Prop :=
  ∀ junk, sscanfInt (text.take 11 ++ junk) = some pid

theorem length_pidText {pid : ℕ} (hpid : pid < 2 ^ 31) : (pidText pid).length = 11 := by
  have hdigits : (decimal pid).length ≤ 10 := by
    have hdecimal : decimal pid = Nat.toDigits 10 pid := by simp [decimal]
    rw [hdecimal, Nat.length_toDigits_le_iff (by decide) (by decide)]
    omega
  simp only [pidText, padLeft, List.length_append, List.length_replicate, List.length_cons,
    List.length_nil]
  omega

/-- The process id that is written is the one that is read. -/
theorem sscanfInt_pidText {pid : ℕ} (hpid : pid < 2 ^ 31) : HoldsPid (pidText pid) pid := by
  intro junk
  rw [List.take_of_length_le (length_pidText hpid).le, pidText, List.append_assoc]
  exact sscanfInt_printed hpid 10 junk

end Apcupsd
