import Mathlib.Order.Bounds.Basic
import Mathlib.Order.Lattice
import PhysicalAiStudio.Robots.SetupWorker

/-! What a calibration that is written to the motors was measured from.

A homing moves the zero of every position, so the positions read before it say nothing
about the ranges after it. An observer keeps the positions that were read since the last
recording began, and forgets them at a homing.
-/

set_option autoImplicit false

namespace PhysicalAiStudio.Robots

open Concurrency

structure Observed where
  /-- The last homing that wrote to the motors succeeded. -/
  homed : Bool
  /-- The raw positions read since the recording that followed it began. -/
  positions : Option (List Registers)

def Observed.note (observed : Observed) : SetupEvent → Observed
  | .homed _ => ⟨true, none⟩
  | .homingFailed _ _ => ⟨false, none⟩
  | .seeded positions => { observed with positions := some [positions] }
  | .tickRead positions => { observed with positions := observed.positions.map (positions :: ·) }
  | _ => observed

structure RangesOf (read : List Registers) (mins maxes : Registers) : Prop where
  least : ∀ motor, IsLeast {position | ∃ positions ∈ read, positions motor = position} (mins motor)
  greatest : ∀ motor, IsGreatest {position | ∃ positions ∈ read, positions motor = position} (maxes motor)

/-- A calibration in effect on the motors, with the ranges of what was read since its recording began. -/
structure Measured (calibration : MotorCalibration) (inEffect : Registers) (observed : Observed) : Prop where
  offsets : calibration.homingOffset = inEffect
  ordered : ∀ motor, calibration.rangeMin motor < calibration.rangeMax motor
  ranges : ∃ read, observed.positions = some read ∧ RangesOf read calibration.rangeMin calibration.rangeMax

/-- A `stop_recording` that gets to write ends a recording under way, after a homing that succeeded, while no read is
in flight; and no tick that was started before a recording reads after its beginning. -/
def Careful (state : SetupWorker × Observed) : SetupEvent → Prop
  | .command .stopRecording =>
    state.1.calibration.isSome → state.1.phase = .calibrationRecording ∧ state.1.tick = none ∧ state.2.homed = true
  | .seeded _ => state.1.tick ≠ some .raw
  | _ => True

instance (state : SetupWorker × Observed) : (event : SetupEvent) → Decidable (Careful state event)
  | .command .stopRecording => inferInstanceAs (Decidable (_ → _ ∧ _ ∧ _))
  | .seeded _ => inferInstanceAs (Decidable (_ ≠ _))
  | .command .startHoming | .command .startRecording | .command .enterCalibration | .command .enterVerification
  | .command .reProbe | .locked | .failed | .homed _ | .homingFailed _ _ | .calibrationWritten | .writeFailed _
  | .configured | .torqueDisabled | .calibrationLoaded | .shown | .probeRead | .probeAdvanced | .probed | .tickStarted
  | .tickLocked | .tickRead _ | .tickReadNormalized | .tickFailed => inferInstanceAs (Decidable True)

theorem rangesOf_singleton (positions : Registers) : RangesOf [positions] positions positions where
  least motor := by simp [IsLeast, lowerBounds]
  greatest motor := by simp [IsGreatest, upperBounds]

theorem RangesOf.cons {read : List Registers} {mins maxes : Registers} (ranges : RangesOf read mins maxes)
    (positions : Registers) :
    RangesOf (positions :: read) (fun motor => min (mins motor) (positions motor))
      (fun motor => max (maxes motor) (positions motor)) := by
  have split (motor : Motor) : {position | ∃ row ∈ positions :: read, row motor = position} =
      insert (positions motor) {position | ∃ row ∈ read, row motor = position} := by
    ext position
    simp [eq_comm]
  constructor
  · intro motor
    rw [split, min_comm]
    exact (ranges.least motor).insert (positions motor)
  · intro motor
    rw [split, max_comm]
    exact (ranges.greatest motor).insert (positions motor)

theorem RangesOf.ordered {read : List Registers} {mins maxes : Registers} (ranges : RangesOf read mins maxes)
    (motor : Motor) : mins motor ≤ maxes motor :=
  (ranges.least motor).2 (ranges.greatest motor).1

namespace SetupWorker

variable {worker next : SetupWorker} {observed : Observed} {event : SetupEvent}

structure Inv (worker : SetupWorker) (observed : Observed) : Prop where
  homing : worker.task = some .homing → worker.phase = .calibrationHoming
  /-- During a recording the ranges are those of what was read, and every tick tracks. -/
  recording : worker.phase = .calibrationRecording → ∃ read mins maxes, observed.positions = some read ∧
    worker.rangeMins = some mins ∧ worker.rangeMaxes = some maxes ∧ RangesOf read mins maxes
  tracked : worker.phase = .calibrationRecording → worker.tick ≠ some .raw
  homed : observed.homed = true → worker.homingOffsets = some worker.offsets
  stopping : ∀ calibration, worker.task = some (.stopping calibration) →
    Measured calibration worker.offsets observed ∧ worker.phase = .configure ∧ worker.tick = none

theorem Inv.initial (offsets : Registers) (calibrated : Bool) :
    Inv (setupWorker offsets calibrated).initial ⟨false, none⟩ := by
  constructor <;> simp [setupWorker]

theorem calibration_eq_some {calibration : MotorCalibration} (built : worker.calibration = some calibration) :
    worker.homingOffsets = some calibration.homingOffset ∧ worker.rangeMins = some calibration.rangeMin ∧
      worker.rangeMaxes = some calibration.rangeMax ∧
      ∀ motor, calibration.rangeMin motor ≠ calibration.rangeMax motor := by
  revert built
  fun_cases SetupWorker.calibration worker with
  | case1 offsets mins maxes atMaxes atMins atOffsets differ =>
    intro built
    cases built
    refine ⟨atOffsets, atMins, atMaxes, fun motor same => ?_⟩
    have listed : motor ∈ worker.sameMinMax := by
      simpa [sameMinMax, mem_motorNames, atMins, atMaxes, get] using same
    rw [differ] at listed
    cases listed
  | case2 => intro built; cases built
  | case3 => intro built; cases built

theorem Inv.measured (inv : worker.Inv observed) {calibration : MotorCalibration}
    (built : worker.calibration = some calibration) (recording : worker.phase = .calibrationRecording)
    (homed : observed.homed = true) : Measured calibration worker.offsets observed := by
  obtain ⟨atOffsets, atMins, atMaxes, differ⟩ := calibration_eq_some built
  obtain ⟨read, mins, maxes, known, readMins, readMaxes, ranges⟩ := inv.recording recording
  cases readMins.symm.trans atMins
  cases readMaxes.symm.trans atMaxes
  refine ⟨?_, fun motor => ?_, read, known, ranges⟩
  · exact Option.some.inj (atOffsets.symm.trans (inv.homed homed))
  · exact lt_of_le_of_ne (ranges.ordered motor) (differ motor)

theorem Inv.move (inv : worker.Inv observed) (mins : next.rangeMins = worker.rangeMins)
    (maxes : next.rangeMaxes = worker.rangeMaxes) (offsets : next.offsets = worker.offsets)
    (homing : next.homingOffsets = worker.homingOffsets) (tick : next.tick = worker.tick)
    (phase : next.phase = worker.phase ∨ next.phase ≠ .calibrationRecording)
    (task : ∀ task ∈ next.task, task ≠ .homing ∧ ∀ calibration, task ≠ .stopping calibration) :
    next.Inv observed where
  homing started := absurd rfl (task _ started).1
  recording now := by
    rw [mins, maxes]
    exact inv.recording (phase.elim (fun same => same ▸ now) (absurd now))
  tracked now := by
    rw [tick]
    exact inv.tracked (phase.elim (fun same => same ▸ now) (absurd now))
  homed intact := by
    rw [homing, offsets]
    exact inv.homed intact
  stopping calibration started := absurd rfl ((task _ started).2 calibration)

theorem Inv.handle (inv : worker.Inv observed) (command : Command) (idle : worker.task = none)
    (careful : Careful (worker, observed) (.command command)) : (worker.handle command).Inv observed := by
  cases command with
  | startHoming =>
    exact ⟨fun _ => rfl, (fun recording => by cases recording), (fun recording => by cases recording), inv.homed,
      (fun _ stops => by cases stops)⟩
  | startRecording =>
    by_cases recording : worker.phase = .calibrationRecording
    · rw [SetupWorker.handle, if_pos recording]
      exact inv
    · rw [SetupWorker.handle, if_neg recording]
      exact inv.move rfl rfl rfl rfl rfl (.inl rfl) (by simp)
  | stopRecording =>
    cases built : worker.calibration with
    | none =>
      rw [SetupWorker.handle, built]
      exact inv.move rfl rfl rfl rfl rfl (.inr (by simp)) (by simp)
    | some calibration =>
      obtain ⟨phase, tick, homed⟩ := careful (by simp [built])
      -- The ranges are those read since the recording began, as the condition asks for this phase.
      have measured := inv.measured built phase homed
      rw [SetupWorker.handle, built]
      refine ⟨(fun homing => by cases homing), (fun recording => by cases recording), (fun recording => by cases recording),
        inv.homed, fun other stops => ?_⟩
      cases stops
      exact ⟨measured, rfl, tick⟩
  | enterCalibration => exact inv.move rfl rfl rfl rfl rfl (.inl rfl) (by simp [SetupWorker.handle])
  | enterVerification =>
    by_cases calibrated : worker.calibrated
    · rw [SetupWorker.handle, if_pos calibrated]
      exact inv.move rfl rfl rfl rfl rfl (.inr (by simp)) (by simp [idle])
    · rw [SetupWorker.handle, if_neg calibrated]
      exact inv.move rfl rfl rfl rfl rfl (.inl rfl) (by simp)
  | reProbe => exact inv.move rfl rfl rfl rfl rfl (.inr (by simp [SetupWorker.handle])) (by simp [SetupWorker.handle])

/-- New offsets are known once a homing has succeeded, and nobody counts on them when it has not. -/
theorem Inv.homedBy (inv : worker.Inv observed) (homing : worker.task = some .homing) (offsets : Registers)
    (known : Option Registers) (calibrated homed : Bool) (same : homed = true → known = some offsets) :
    Inv { worker.finish with offsets := offsets, homingOffsets := known, calibrated := calibrated } ⟨homed, none⟩ := by
  have phase : worker.phase ≠ .calibrationRecording := by
    rw [inv.homing homing]
    decide
  exact ⟨(fun started => by cases started), (fun now => absurd now phase), (fun now => absurd now phase), same,
    (fun _ started => by cases started)⟩

theorem Inv.seeded (inv : worker.Inv observed) (positions : Registers) (tick : worker.tick ≠ some .raw) :
    Inv { worker.finish with
      rangeMins := some positions, rangeMaxes := some positions, phase := .calibrationRecording }
      (observed.note (.seeded positions)) where
  homing started := by cases started
  recording _ := ⟨[positions], positions, positions, rfl, rfl, rfl, rangesOf_singleton positions⟩
  tracked _ := tick
  homed := inv.homed
  stopping _ started := by cases started

theorem Inv.command (inv : worker.Inv observed) (careful : Careful (worker, observed) event)
    (stepped : worker.stepCommand event = some next) : next.Inv (observed.note event) := by
  revert stepped
  fun_cases stepCommand worker event <;> intro stepped <;> cases stepped
  · next command idle => exact inv.handle command idle careful
  · exact ⟨inv.homing, inv.recording, inv.tracked, inv.homed, inv.stopping⟩
  · exact inv.move rfl rfl rfl rfl rfl (.inl rfl) (by simp [finish])
  · next offsets _ homing => exact inv.homedBy homing offsets (some offsets) false true fun _ => rfl
  · next offsets reset _ homing =>
    exact inv.homedBy homing offsets worker.homingOffsets _ false fun intact => by cases intact
  · next positions _ _ => exact inv.seeded positions careful
  · next calibration _ stops =>
    have same : calibration.homingOffset = worker.offsets := (inv.stopping calibration stops).1.offsets
    rw [same]
    exact inv.move rfl rfl rfl rfl rfl (.inl rfl) (by simp)
  · next offsets calibration _ stops partly =>
    -- Every motor keeps its offset, since the calibration has the offsets in effect.
    have same : offsets = worker.offsets := by
      funext motor
      rcases partly motor (mem_motorNames motor) with old | new
      · exact old
      · rw [new, (inv.stopping calibration stops).1.offsets]
    rw [same]
    exact inv.move rfl rfl rfl rfl rfl (.inl rfl) (by simp [finish])
  · exact inv.move rfl rfl rfl rfl rfl (.inr (by simp)) (by simp [finish])
  · exact inv.move rfl rfl rfl rfl rfl (.inr (by simp)) (by simp [finish])
  · exact inv.move rfl rfl rfl rfl rfl (.inl rfl) (by simp)
  · exact inv.move rfl rfl rfl rfl rfl (.inr (by simp)) (by simp [finish])
  · exact ⟨inv.homing, inv.recording, inv.tracked, inv.homed, inv.stopping⟩
  · next probing => exact inv.move rfl rfl rfl rfl rfl (.inr (by simp)) (by simp [probing])
  · exact inv.move rfl rfl rfl rfl rfl (.inl rfl) (by simp [finish])

theorem Inv.tick (inv : worker.Inv observed) (stepped : worker.stepTick event = some next) :
    next.Inv (observed.note event) := by
  revert stepped
  fun_cases stepTick worker event <;> intro stepped <;> cases stepped
  · next tick started idle =>
    refine ⟨inv.homing, inv.recording, fun now => ?_, inv.homed, fun calibration stops => ?_⟩
    · rw [show worker.phase = .calibrationRecording from now] at started
      cases started
      simp
    · rw [(inv.stopping calibration stops).2.1] at started
      cases started
  · exact ⟨inv.homing, inv.recording, inv.tracked, inv.homed, inv.stopping⟩
  · next positions _ tracked =>
    refine ⟨inv.homing, fun now => ?_, (fun _ => by simp [track, endTick]), inv.homed, fun calibration stops => ?_⟩
    · -- The positions of this tick join the ranges read so far.
      obtain ⟨read, mins, maxes, known, readMins, readMaxes, ranges⟩ := inv.recording now
      refine ⟨positions :: read, _, _, ?_, ?_, ?_, ranges.cons positions⟩
      · simp [Observed.note, known]
      · simp [track, endTick, readMins]
      · simp [track, endTick, readMaxes]
    · have none := (inv.stopping calibration stops).2.2
      rw [none] at tracked
      cases tracked
  · next positions _ raw =>
    refine ⟨inv.homing, fun now => ?_, (fun _ => by simp [endTick]), inv.homed, fun calibration stops => ?_⟩
    · exact absurd raw (inv.tracked now)
    · have none := (inv.stopping calibration stops).2.2
      rw [none] at raw
      cases raw
  · exact ⟨inv.homing, inv.recording, (fun _ => by simp [endTick]), inv.homed,
      fun calibration stops => ⟨(inv.stopping calibration stops).1, (inv.stopping calibration stops).2.1, rfl⟩⟩
  · exact ⟨inv.homing, inv.recording, (fun _ => by simp [endTick]), inv.homed,
      fun calibration stops => ⟨(inv.stopping calibration stops).1, (inv.stopping calibration stops).2.1, rfl⟩⟩

theorem Inv.step (inv : worker.Inv observed) (careful : Careful (worker, observed) event)
    (stepped : worker.step event = some next) : next.Inv (observed.note event) := by
  rcases step_cases stepped with command | tick
  · exact inv.command careful command
  · exact inv.tick tick

end SetupWorker

def observedSetup (offsets : Registers) (calibrated : Bool) : System (SetupWorker × Observed) SetupEvent :=
  (setupWorker offsets calibrated).observed ⟨false, none⟩ Observed.note

def observedBy (history : List SetupEvent) : Observed :=
  history.foldr (fun event observed => observed.note event) ⟨false, none⟩

/-- In careful runs, a calibration that is being written to the motors has the homing offsets in effect, and the ranges
of the positions read since its recording began. -/
theorem written_calibrations_measured {offsets : Registers} {calibrated : Bool} {history : List SetupEvent}
    {worker : SetupWorker} (careful : (observedSetup offsets calibrated).Throughout Careful history)
    (reached : (setupWorker offsets calibrated).reached history = some worker) {calibration : MotorCalibration}
    (writing : worker.task = some (.stopping calibration) ∧ worker.held = true) :
    Measured calibration worker.offsets (observedBy history) := by
  have observed : (observedSetup offsets calibrated).reached history = some (worker, observedBy history) :=
    System.observed_reached.mpr ⟨reached, rfl⟩
  have inv : worker.Inv (observedBy history) := by
    refine System.invariant (P := fun state => state.1.Inv state.2) (SetupWorker.Inv.initial offsets calibrated)
      (fun before event next inv careful stepped => ?_) careful observed
    obtain ⟨worker, moved, rfl⟩ := Option.map_eq_some_iff.mp stepped
    exact inv.step careful moved
  exact (inv.stopping calibration writing.1).1

def calibratedRun : List SetupEvent :=
  [.locked, .command .stopRecording, .tickRead fun _ => 3000, .tickLocked, .tickStarted, .seeded fun _ => 1000, .locked,
    .command .startRecording, .homed fun _ => 17, .locked, .command .startHoming, .torqueDisabled, .locked,
    .command .enterCalibration]

theorem calibrated_run_measured :
    ∃ worker, (setupWorker (fun _ => 0) true).reached calibratedRun = some worker ∧
      Measured ⟨fun _ => 17, fun _ => 1000, fun _ => 3000⟩ worker.offsets (observedBy calibratedRun) := by
  have careful : (observedSetup (fun _ => 0) true).Throughout Careful calibratedRun := by
    decide +kernel
  exact ⟨_, rfl, written_calibrations_measured careful rfl ⟨rfl, rfl⟩⟩

/-- After a recording the arm is homed again, and the recording is stopped: the ranges are of the earlier frame. -/
theorem stale_ranges_written :
    ¬∀ (offsets : Registers) (calibrated : Bool) (history : List SetupEvent) (worker : SetupWorker)
      (calibration : MotorCalibration), (setupWorker offsets calibrated).reached history = some worker →
      worker.task = some (.stopping calibration) ∧ worker.held = true →
      Measured calibration worker.offsets (observedBy history) := by
  intro every
  obtain ⟨-, -, read, known, -⟩ := every (fun _ => 0) true
    ([.locked, .command .stopRecording, .homed fun _ => 900, .locked, .command .startHoming] ++
      calibratedRun.drop 2) _ ⟨fun _ => 900, fun _ => 1000, fun _ => 3000⟩ rfl ⟨rfl, rfl⟩
  cases known

end PhysicalAiStudio.Robots
