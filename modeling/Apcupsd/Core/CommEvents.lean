import Apcupsd.Core.EventSpec
import Apcupsd.Foundations.PairedEvents

/-!
# Events of the connection

The scripts that announce the loss of the connection to the UPS and its return, as boundaries
of an interval.

Main results:

- Theorem {lit}`commEvents_generateEvent`: an event adds its own boundary and no other.
-/

namespace Apcupsd

open Apcupsd.Core

/-- The boundary of a loss that an effect announces. -/
def commBoundary : Effect → Option (Boundary Unit)
  | .executeCommand .cmdCommfailure => some (.opens ())
  | .executeCommand .cmdCommok => some (.closes ())
  | _ => none

/-- The events of the connection in the log. -/
def commEvents (core : Core) : List (Boundary Unit) :=
  core.log.filterMap commBoundary

theorem commEvents_emit (core : Core) (effect : Effect) :
    commEvents (core.emit effect) = commEvents core ++ (commBoundary effect).toList := by
  unfold commEvents emit
  rw [List.filterMap_append]
  cases hboundary : commBoundary effect <;> simp [hboundary]

@[simp]
theorem commEvents_mapUps (core : Core) (change : UpsInfo → UpsInfo) :
    commEvents (core.mapUps change) = commEvents core :=
  rfl

@[simp]
theorem commEvents_logEvent (core : Core) (level : LogLevel) (msg : String) :
    commEvents (logEvent core level msg) = commEvents core := by
  simp [logEvent, commEvents_emit, commBoundary]

/-- An event of the connection is the only one that its call adds. -/
theorem commEvents_generateEvent (env : PassEnv) (core : Core) {event : Command}
    (hcause : event.isShutdownCause = false) :
    commEvents (generateEvent env core event) =
      commEvents core ++ (commBoundary (.executeCommand event)).toList := by
  unfold generateEvent executeCommand
  dsimp only
  rw [hcause, if_neg Bool.false_ne_true]
  split_ifs <;> simp [commEvents_emit]

theorem commEvents_of_log {core : Core} (hlog : core.log = []) : commEvents core = [] := by
  simp [commEvents, hlog]

theorem commEvents_executeCommand (env : PassEnv) (core : Core) (cmd : Command) :
    commEvents (executeCommand env core cmd) =
      commEvents core ++ (commBoundary (.executeCommand cmd)).toList := by
  unfold executeCommand
  dsimp only
  split_ifs <;> simp [commEvents_emit]

end Apcupsd
