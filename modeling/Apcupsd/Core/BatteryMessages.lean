import Apcupsd.Core.RunHistory
import Apcupsd.Foundations.PairedEvents

/-!
# The messages of an outage

{lit}`CMDONBATTERY` tells the users that the outage is real, {lit}`CMDOFFBATTERY` that it is
over.  The flag {lit}`onbatt_msg` says which of the two comes next.

Main results:

- Theorem {lit}`CoreRun.batteryMessages_open`: the flag is what the messages leave open.
- Theorem {lit}`CoreRun.batteryMessages_alternate`: the two events alternate.
-/

namespace Apcupsd

open BitFlags Apcupsd.Core

/-- The two events as the begin and the end of an announced outage. -/
def batteryMessage : Effect → Option (Boundary Unit)
  | .executeCommand .cmdOnbattery => some (.opens ())
  | .executeCommand .cmdOffbattery => some (.closes ())
  | _ => none

theorem batteryMessage_readsOutage : ReadsOutage batteryMessage := by
  intro effect hother
  cases effect with
  | executeCommand cmd =>
      cases cmd with
      | cmdOnbattery | cmdOffbattery => cases hother
      | _ => rfl
  | _ => rfl

/-- The messages of a branch, given the flag. -/
def PassBranch.messages (branch : PassBranch) (announced : Bool) : List (Boundary Unit) :=
  match branch with
  | .announce => [.opens ()]
  | .mainsBack => if announced then [.closes ()] else []
  | _ => []

theorem outageCommands_messages (env : PassEnv) (branch : PassBranch) (ups : UpsInfo) :
    ((outageCommands env branch ups).filterMap fun cmd => batteryMessage (.executeCommand cmd)) =
      branch.messages ups.isOnbattMsg := by
  cases branch with
  | powerFailure =>
      unfold outageCommands failureEvent
      dsimp only
      split <;> rfl
  | mainsBack =>
      unfold outageCommands returnEvents PassBranch.messages
      dsimp only
      split_ifs <;> rfl
  | _ => rfl

/-- What the flag says is open. -/
def UpsInfo.announced (ups : UpsInfo) : Option Unit :=
  if ups.isOnbattMsg then some () else none

/-- An arm announces an outage only if none is announced. -/
theorem isOnbattMsg_of_announce {env : PassEnv} {ups : UpsInfo}
    (hbranch : passBranch env ups = .announce) : ups.isOnbattMsg = false := by
  have harm : batteryBranch env ups = passBranch env ups :=
    batteryBranch_of_passBranch (by rw [hbranch]; rfl)
  have hdue := batteryBranch_tests.1 (harm.trans hbranch)
  unfold announceDue at hdue
  rw [Bool.and_eq_true, Bool.not_eq_true'] at hdue
  exact hdue.1

namespace CoreRun

variable (run : CoreRun) {n : ℕ}

/-- Only the arms that announce and withdraw an outage change the flag. -/
theorem isOnbattMsg_succ (hruns : run.runs n) :
    (run.core (n + 1)).ups.isOnbattMsg =
      (run.branch n).announces (run.core n).ups.isOnbattMsg := by
  have hhead : (run.head n).isOnbattMsg = (run.core n).ups.isOnbattMsg :=
    run.head_test_core (by decide) (by decide) n
  rw [← hhead, ← branchUpdate_isOnbattMsg]
  exact (run.after_frame hruns).test_eq (by decide)

theorem armed_isOnbattMsg (n : ℕ) :
    (run.armed n).ups.isOnbattMsg = (run.core n).ups.isOnbattMsg := by
  have hhead : (run.head n).isOnbattMsg = (run.core n).ups.isOnbattMsg :=
    run.head_test_core (by decide) (by decide) n
  rw [← hhead]
  exact congrArg (testMask · upsOnbattMsg) (run.armed_ups n).1

/-- One pass keeps the flag in step with the messages. -/
theorem batteryMessages_step (hruns : run.runs n)
    (hopen : LeavesOpen (run.picked batteryMessage n) (run.core n).ups.announced) :
    LeavesOpen (run.picked batteryMessage (n + 1)) (run.core (n + 1)).ups.announced := by
  rw [run.outagePicked_succ batteryMessage_readsOutage hruns, outageCommands_messages,
    run.armed_isOnbattMsg]
  unfold UpsInfo.announced at hopen ⊢
  rw [run.isOnbattMsg_succ hruns]
  cases hbranch : run.branch n with
  | announce =>
      have hclear : (run.core n).ups.isOnbattMsg = false :=
        (run.head_test_core (by decide) (by decide) n).symm.trans (isOnbattMsg_of_announce hbranch)
      rw [hclear] at hopen
      exact hopen.opens
  | mainsBack =>
      cases hmsg : (run.core n).ups.isOnbattMsg with
      | true =>
          rw [hmsg] at hopen
          exact hopen.closes
      | false =>
          rw [hmsg] at hopen
          exact (List.append_nil _).symm ▸ hopen
  | _ => exact (List.append_nil _).symm ▸ hopen

/-- The flag is what the messages so far leave open. -/
theorem batteryMessages_open (n : ℕ) :
    LeavesOpen (run.picked batteryMessage n) (run.core n).ups.announced := by
  induction n with
  | zero =>
      have hclear : (run.core 0).ups.isOnbattMsg = false := run.test_zero (by decide) (by decide)
      unfold UpsInfo.announced
      rw [hclear]
      exact LeavesOpen.nil
  | succ n ih =>
      by_cases hruns : run.runs n
      · exact run.batteryMessages_step hruns ih
      · rw [run.picked_succ_of_exited hruns, run.step n, doPass,
          if_pos (Bool.eq_true_of_not_eq_false hruns)]
        exact ih

/-- In every run the events {lit}`CMDONBATTERY` and {lit}`CMDOFFBATTERY` alternate, and
the first of them is {lit}`CMDONBATTERY`. -/
theorem batteryMessages_alternate (n : ℕ) : Paired (run.picked batteryMessage n) :=
  (run.batteryMessages_open n).paired

end CoreRun

end Apcupsd
