import Apcupsd.Core.PassRule

/-!
# Polls inside a pass

{lit}`initiate_hibernate` polls a dumb UPS, with the lock of the pass held.  No other
statement of a pass reads the polled data.

Main results:

- Definition {lit}`Unpolled`: the UPS is no dumb UPS, and the log shows no poll.
- Theorem {lit}`Unpolled.generateEvent`, {lit}`Unpolled.doAction`: events and passes keep
  this.
-/

namespace Apcupsd

open Apcupsd.Core

/-- The UPS is no dumb UPS, and the log shows no poll of the data. -/
structure Unpolled (core : Core) : Prop where
  mode : core.ups.modeType ≠ .dumbUps
  log : Effect.readVolatileData ∉ core.log

namespace Unpolled

variable {env : PassEnv} {core : Core} (hcore : Unpolled core)

include hcore

theorem emit {effect : Effect} (heffect : effect ≠ .readVolatileData) :
    Unpolled (core.emit effect) := by
  refine ⟨hcore.mode, fun hmem => ?_⟩
  rcases List.mem_append.mp hmem with hold | hnew
  · exact hcore.log hold
  · exact heffect (List.mem_singleton.mp hnew).symm

theorem logEvent {level : LogLevel} {msg : String} : Unpolled (logEvent core level msg) :=
  hcore.emit (by simp)

theorem mapUps {change : UpsInfo → UpsInfo}
    (hmode : (change core.ups).modeType = core.ups.modeType) : Unpolled (core.mapUps change) :=
  ⟨fun hdumb => hcore.mode (hmode.symm.trans hdumb), hcore.log⟩

omit hcore in
/-- The statements of a pass past the reminder keep the mode and poll nothing. -/
theorem rule (env : PassEnv) : PassRule env Unpolled where
  emit := by
    intro core effect hcore heffect
    refine hcore.emit fun hpoll => ?_
    rw [hpoll] at heffect
    cases heffect
  mapUps := fun hcore hreserved =>
    hcore.mapUps (congrArg (fun reserved => reserved.1.modeType) hreserved)
  poll := by
    intro core hcore
    rw [pollDumbUps, if_neg hcore.mode]
    exact hcore
  exit := fun hcore => ⟨hcore.mode, hcore.log⟩
  logoff := fun hcore => ⟨hcore.mode, hcore.log⟩

theorem executeCommand {cmd : Command} : Unpolled (executeCommand env core cmd) := by
  have hcalled : Unpolled (core.emit (.executeCommand cmd)) := hcore.emit (by simp)
  unfold Apcupsd.executeCommand
  split
  · exact hcalled.logEvent
  · exact hcalled.mapUps rfl

theorem generateEvent {event : Command} : Unpolled (generateEvent env core event) := by
  have hannounced : Unpolled (Apcupsd.executeCommand env
      (Apcupsd.logEvent core (eventMsg event).1 (eventMsg event).2) event) :=
    hcore.logEvent.executeCommand
  unfold Apcupsd.generateEvent
  dsimp only
  split
  · exact (rule env).doShutdown hannounced.logEvent (by simp)
  · exact hannounced

theorem passHead : Unpolled (passHead env core) := by
  have hfirst : Unpolled (firstCall env core) := by
    unfold firstCall
    split
    · exact ⟨hcore.mode, hcore.log⟩
    · exact hcore
  unfold Apcupsd.passHead replaceBattery
  split_ifs
  · exact hfirst.mapUps rfl
  · exact hfirst.generateEvent.mapUps rfl
  · exact hfirst
  · exact hfirst

/-- A pass over a UPS that is no dumb UPS polls nothing. -/
theorem doAction : Unpolled (doAction env core) :=
  (rule env).doAction hcore.passHead

end Unpolled

end Apcupsd
