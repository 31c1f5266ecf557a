import PhysicalAiStudio.Concurrency.Transition

/-! The setup worker of an SO101 arm.

A command loop handles one command at a time, and a broadcast loop reads the motors beside
it. Both take the lock of the motor bus for what they do on it. The events are what
happens between two awaits; every await of a handler can raise, which ends its command.
-/

set_option autoImplicit false

namespace PhysicalAiStudio.Robots

open Concurrency

inductive Motor where
  | shoulderPan
  | shoulderLift
  | elbowFlex
  | wristFlex
  | wristRoll
  | gripper
  deriving DecidableEq

def motorNames : List Motor := [.shoulderPan, .shoulderLift, .elbowFlex, .wristFlex, .wristRoll, .gripper]

abbrev Registers := Motor → Int

inductive SetupPhase where
  | connecting
  | voltageCheck
  | motorProbe
  | motorSetup
  | calibrationInstructions
  | calibrationHoming
  | calibrationRecording
  | configure
  | verification
  deriving DecidableEq

/-- What `write_calibration` writes; the motor ids and the drive mode are fixed. -/
structure MotorCalibration where
  homingOffset : Registers
  rangeMin : Registers
  rangeMax : Registers

inductive Command where
  | startHoming
  | startRecording
  | stopRecording
  | enterCalibration
  | enterVerification
  | reProbe
  deriving DecidableEq

/-- What the command loop is doing. -/
inductive Task where
  | homing
  | seeding
  | stopping (calibration : MotorCalibration)
  | configuring
  | entering
  | loading
  | showing
  | probing

/-- What a tick of the broadcast loop reads: raw positions, raw positions for the ranges, or normalized ones. -/
inductive Tick where
  | raw
  | tracked
  | normalized
  deriving DecidableEq

structure SetupWorker where
  phase : SetupPhase
  homingOffsets : Option Registers
  rangeMins : Option Registers
  rangeMaxes : Option Registers
  calibrated : Bool
  /-- The homing offsets in effect on the motors. -/
  offsets : Registers
  task : Option Task
  /-- The command handler holds the lock of the bus. -/
  held : Bool
  tick : Option Tick
  /-- The tick holds the lock and reads. -/
  reading : Bool

inductive SetupEvent where
  | command (command : Command)
  | locked
  | failed
  | homed (offsets : Registers)
  /-- `set_half_turn_homings` has raised, before or after it reset `bus.calibration`. -/
  | homingFailed (offsets : Registers) (reset : Bool)
  | seeded (positions : Registers)
  | calibrationWritten
  | writeFailed (offsets : Registers)
  | configured
  | torqueDisabled
  | calibrationLoaded
  | shown
  | probeRead
  | probeAdvanced
  | probed
  | tickStarted
  | tickLocked
  | tickRead (positions : Registers)
  | tickReadNormalized
  | tickFailed

namespace SetupWorker

/-- `dict.get(motor, 0)` of a dictionary that has every motor or none. -/
def get (dict : Option Registers) (motor : Motor) : Int := dict.elim 0 fun registers => registers motor

def sameMinMax (worker : SetupWorker) : List Motor :=
  motorNames.filter fun motor => get worker.rangeMins motor = get worker.rangeMaxes motor

/-- The calibration that `stop_recording` builds, unless it raises or reports an error. -/
def calibration (worker : SetupWorker) : Option MotorCalibration :=
  match worker.homingOffsets, worker.rangeMins, worker.rangeMaxes with
  | some offsets, some mins, some maxes => if worker.sameMinMax = [] then some ⟨offsets, mins, maxes⟩ else none
  | _, _, _ => none

/-- The part of a command's handler before its first await. -/
def handle (worker : SetupWorker) : Command → SetupWorker
  | .startHoming => { worker with phase := .calibrationHoming, task := some .homing }
  | .startRecording => if worker.phase = .calibrationRecording then worker else { worker with task := some .seeding }
  | .stopRecording => { worker with phase := .configure, task := worker.calibration.map .stopping }
  | .enterCalibration => { worker with task := some .entering }
  | .enterVerification =>
    if worker.calibrated then { worker with phase := .verification } else { worker with task := some .loading }
  | .reProbe => { worker with phase := .voltageCheck, task := some .probing }

def finish (worker : SetupWorker) : SetupWorker := { worker with task := none, held := false }

/-- The offsets that a broken `write_calibration` can leave: each motor's old one or its new one. -/
def PartlyWritten (worker : SetupWorker) (calibration : MotorCalibration) (offsets : Registers) : Prop :=
  ∀ motor ∈ motorNames, offsets motor = worker.offsets motor ∨ offsets motor = calibration.homingOffset motor

instance (worker : SetupWorker) (calibration : MotorCalibration) (offsets : Registers) :
    Decidable (worker.PartlyWritten calibration offsets) :=
  inferInstanceAs (Decidable (∀ motor ∈ motorNames, _ ∨ _))

def stepCommand (worker : SetupWorker) : SetupEvent → Option SetupWorker
  | .command command => match worker.task with
    | none => some (worker.handle command)
    | some _ => none
  | .locked => match worker.task with
    | some _ => if worker.held = false ∧ worker.reading = false then some { worker with held := true } else none
    | none => none
  | .failed => match worker.task with
    | some _ => some worker.finish
    | none => none
  | .homed offsets => match worker.task, worker.held with
    | some .homing, true =>
      -- `set_half_turn_homings` begins with a reset of the calibration
      some { worker.finish with offsets := offsets, homingOffsets := some offsets, calibrated := false }
    | _, _ => none
  | .homingFailed offsets reset => match worker.task, worker.held with
    | some .homing, true =>
      some { worker.finish with offsets := offsets, calibrated := worker.calibrated && !reset }
    | _, _ => none
  | .seeded positions => match worker.task, worker.held with
    | some .seeding, true =>
      some { worker.finish with
        rangeMins := some positions, rangeMaxes := some positions, phase := .calibrationRecording }
    | _, _ => none
  | .calibrationWritten => match worker.task, worker.held with
    | some (.stopping calibration), true =>
      some { worker with
        offsets := calibration.homingOffset, calibrated := true, task := some .configuring, held := false }
    | _, _ => none
  | .writeFailed offsets => match worker.task, worker.held with
    | some (.stopping calibration), true =>
      if worker.PartlyWritten calibration offsets then some { worker.finish with offsets := offsets } else none
    | _, _ => none
  | .configured => match worker.task, worker.held with
    | some .configuring, true => some { worker.finish with phase := .verification }
    | _, _ => none
  | .torqueDisabled => match worker.task, worker.held with
    | some .entering, true => some { worker.finish with phase := .calibrationInstructions }
    | _, _ => none
  | .calibrationLoaded => match worker.task, worker.held with
    | some .loading, true => some { worker with calibrated := true, task := some .showing, held := false }
    | _, _ => none
  | .shown => match worker.task, worker.held with
    | some .showing, false => some { worker.finish with phase := .verification }
    | _, _ => none
  | .probeRead => match worker.task, worker.held with
    | some .probing, true => some { worker with held := false }
    | _, _ => none
  | .probeAdvanced => match worker.task, worker.held with
    | some .probing, false => some { worker with phase := .motorProbe }
    | _, _ => none
  | .probed => match worker.task, worker.held with
    | some .probing, false => some worker.finish
    | _, _ => none
  | _ => none

def tickOf : SetupPhase → Option Tick
  | .calibrationInstructions | .calibrationHoming => some .raw
  | .calibrationRecording => some .tracked
  | .verification => some .normalized
  | _ => none

def track (worker : SetupWorker) (positions : Registers) : SetupWorker :=
  { worker with
    rangeMins := worker.rangeMins.map fun mins motor => min (mins motor) (positions motor)
    rangeMaxes := worker.rangeMaxes.map fun maxes motor => max (maxes motor) (positions motor) }

def endTick (worker : SetupWorker) : SetupWorker := { worker with tick := none, reading := false }

def stepTick (worker : SetupWorker) : SetupEvent → Option SetupWorker
  | .tickStarted => match worker.tick, tickOf worker.phase with
    | none, some tick => some { worker with tick := some tick }
    | _, _ => none
  | .tickLocked => match worker.tick with
    | some _ => if worker.held = false ∧ worker.reading = false then some { worker with reading := true } else none
    | none => none
  -- Only a tick of the recording keeps what it has read.
  | .tickRead positions => match worker.tick, worker.reading with
    | some .tracked, true => some (worker.endTick.track positions)
    | some .raw, true => some worker.endTick
    | _, _ => none
  | .tickReadNormalized => match worker.tick, worker.reading with
    | some .normalized, true => some worker.endTick
    | _, _ => none
  | .tickFailed => match worker.tick with
    | some _ => some worker.endTick
    | none => none
  | _ => none

def step (worker : SetupWorker) (event : SetupEvent) : Option SetupWorker :=
  (worker.stepCommand event).or (worker.stepTick event)

variable {worker next : SetupWorker} {event : SetupEvent}

theorem step_cases (stepped : worker.step event = some next) :
    worker.stepCommand event = some next ∨ worker.stepTick event = some next :=
  (Option.or_eq_some_iff.mp stepped).imp_right And.right

theorem mem_motorNames (motor : Motor) : motor ∈ motorNames := by
  cases motor <;> decide

end SetupWorker

def setupWorker (offsets : Registers) (calibrated : Bool) : System SetupWorker SetupEvent where
  initial :=
    { phase := .motorProbe, homingOffsets := none, rangeMins := none, rangeMaxes := none, calibrated := calibrated
      offsets := offsets, task := none, held := false, tick := none, reading := false }
  step := SetupWorker.step

end PhysicalAiStudio.Robots
