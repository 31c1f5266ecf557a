import PhysicalAiStudio.Concurrency.Program
import PhysicalAiStudio.Runtime.SourceState

/-! `StudioActionSource`: selects the action sent to the follower on every tick.

Each definition follows the method of the same name. Calls into code outside the
repository (the leader, the policy) are inputs: a tick carries the outcome of
every call it may make.
-/

set_option autoImplicit false

namespace PhysicalAiStudio.Runtime

open Concurrency

/-- The daemon threads of an action source. -/
inductive Job where
  | control
  | load (generation : Nat) (command : LoadModelCommand)
  | arm (generation : Nat) (source : PolicySource)
  deriving DecidableEq, Repr

abbrev Task (Value : Type) := Program Job Fault SourceState Value

inductive LeaderReading where
  | raised (fault : Fault)
  | observed (jointPositions : Joints) (timestamp : Rat)
  deriving DecidableEq, Repr

/-- A drained command, with the outcomes of the policy calls its handler makes and
whether `RecordingState.start` accepts. -/
structure Drained where
  command : Command
  setTask : PolicySource → Option Fault := fun _ => none
  reset : PolicySource → Option Fault := fun _ => none
  recordingStarted : Bool := false

structure Tick where
  jointPositions : Joints
  commands : List Drained := []
  leader : LeaderReading := .raised (.other "no leader")
  policyUpdate : PolicySource → Except Fault Joints := fun _ => .ok []

namespace ActionSource

def emitError (message errorCode : String) : Task Unit :=
  .modify (·.emit (.error message errorCode))

def emitState : Task Unit := .modify (·.emitState)

def cancelArming (cause : CancelCause) : Task Unit := .modify (·.cancelArming cause)

/-! ## Handing over a policy, on a loader thread or at teardown -/

/-- `policy.disconnect()`, which may raise after it released the worker. -/
def disconnect (own : Key) (source : PolicySource) (raises : Option Fault) : Task Unit :=
  .modify (·.log (.disconnected own source)) >>= fun _ =>
    match raises with
    | none => pure ()
    | some fault => do
      .modify (·.log (.disconnectRaised own))
      .raise fault

/-- The lock section of `_set_policy`: whether the policy is stale, and the one it replaces. -/
def setPolicyLocked (source : PolicySource) (generation : Nat) (identity : ModelIdentity) (s : SourceState) :
    (Bool × Option PolicySource) × SourceState :=
  if generation < s.attachedGeneration then ((true, none), s.log (.dropped source))
  else ((false, s.policy), s.attach source generation identity)

def setPolicy (own : Key) (source : PolicySource) (generation : Nat) (identity : ModelIdentity)
    (disconnectRaises previousRaises : Option Fault) : Task Unit := do
  let (stale, previous) ← .act (setPolicyLocked source generation identity)
  if stale then
    disconnect own source disconnectRaises
  else
    emitState
    match previous with
    | some old => if old ≠ source then disconnect own old previousRaises else pure ()
    | none => pure ()

def shutdownPolicy (raises : Option Fault) : Task Unit := do
  .modify (·.invalidateLoads)
  let policy ← .act fun s => (s.policy, s.detach)
  match policy with
  | some old => disconnect .control old raises
  | none => pure ()

/-! ## Arming -/

/-- How the lock section of `_arm_policy` ends. -/
inductive Armed where
  | refused
  | died (fault : Fault)
  | ready (generation : Nat) (source : PolicySource)

/-- The lock section of `_arm_policy`. Anything but a `RuntimeError` leaves it raised. -/
def armLocked (drained : Drained) (task : Option String) (s : SourceState) : Armed × SourceState :=
  match s.policy with
  | none => (.refused, s.emit (.error "No policy is loaded." "policy_not_loaded"))
  | some source =>
    match (if task.isSome then drained.setTask source else none) <|> drained.reset source with
    | some (.runtimeError message) =>
        (.refused, s.emit (.error (if message = "" then "Failed to arm the policy." else message) "policy_reset_failed"))
    | some fault => (.died fault, s)
    | none => (.ready (s.armGeneration + 1) source, s.arm source task)

def Armed.jobs (snapshot : Bool) : Armed → List Job
  | .ready generation source => if snapshot then [.arm generation source] else []
  | _ => []

def switchLocked (generation : Nat) (source : PolicySource) (s : SourceState) : Bool × SourceState :=
  if generation ≠ s.armGeneration ∨ s.policy ≠ some source then (false, s)
  else (true, s.switchToPolicy generation)

def failArmingLocked (generation : Nat) (s : SourceState) : Bool × SourceState :=
  if generation ≠ s.armGeneration then (false, s) else (true, s.failArming generation)

/-- The thread is started in the lock section that arms: between the two the source
touches nothing another thread can see. -/
def armPolicy (drained : Drained) (task : Option String) : Task Bool := do
  let armed ← .start (armLocked drained task) fun s =>
    (armLocked drained task s).1.jobs s.lastRobotState.isSome
  match armed with
  | .refused => pure false
  | .died fault => .raise fault
  | .ready generation source => do
    let snapshot ← .read (·.lastRobotState)
    if snapshot.isSome then pure false else .act (switchLocked generation source)

def finishArm (source : PolicySource) (generation : Nat) (warmup : Option Fault) : Task Unit :=
  match warmup with
  | some fault => do
    let current ← .act (failArmingLocked generation)
    if current then emitError (fault.textOr "Failed to warm up the policy.") "policy_warmup_failed"
    else pure ()
  | none => do
    let current ← .act (switchLocked generation source)
    if current then emitState else pure ()

/-! ## Commands, on the control thread -/

def skipLoad (command : LoadModelCommand) (s : SourceState) : Bool × SourceState :=
  if !command.force ∧ s.loadedIdentity = some (modelIdentity command) then (true, s.log (.skipped command))
  else (false, s)

def handleLoadModel (rig : Rig) (command : LoadModelCommand) : Task Unit := do
  let skip ← .act (skipLoad command)
  if skip then pure ()
  else
    -- The old model goes before the connection is looked at, so a refused load leaves none.
    .modify (·.clearIdentity command)
    cancelArming .loadModel
    .modify (·.unsetModel)
    emitState
    if !rig.connected then
      emitError "Cannot load a model before the runtime session is connected." "model_load_failed"
    else
      .start (fun s => ((), s.requestLoad command)) fun s => [.load (s.loaderGeneration + 1) command]

def handleStartTask (drained : Drained) (task : String) : Task Unit := do
  let armed ← armPolicy drained (some task)
  if armed then emitState else pure ()

def handleStopTask (jointPositions : Joints) : Task Unit := do
  cancelArming .stopTask
  let source ← .read (·.followerSource)
  if source = .hold then pure ()
  else
    .modify (·.enterHold .command jointPositions)
    emitState

def handleStartRecording (drained : Drained) : Task Unit :=
  if drained.recordingStarted then emitState
  else emitError "Load a dataset before starting a recording." "dataset_not_loaded"

def handleSetFollowerSource (rig : Rig) (drained : Drained) (requested : FollowerSource)
    (jointPositions : Joints) : Task Unit := do
  let readsEnabled ← .read (·.leaderReadsEnabled)
  if requested = .teleop ∧ !rig.hasLeader then
    emitError "Teleoperation requires a leader robot." "leader_required"
  else if requested = .teleop ∧ !readsEnabled then
    emitError "The leader robot is not responding. Reconnect before resuming teleoperation." "leader_connection_lost"
  else if requested = .policy then
    let task ← .read (·.task)
    let armed ← armPolicy drained task
    if armed then emitState else pure ()
  else
    -- An arming is taken back also where the source stays as it is.
    cancelArming (.setFollowerSource requested)
    let source ← .read (·.followerSource)
    if requested = source then pure ()
    else
      .modify (if requested = .hold then (·.enterHold .command jointPositions) else (·.enterTeleop))
      emitState

/-- Commands that are not for the control thread are drained and ignored. -/
def handle (rig : Rig) (jointPositions : Joints) (drained : Drained) : Task Unit :=
  match drained.command with
  | .loadModel command => handleLoadModel rig command
  | .startTask task => handleStartTask drained task
  | .stopTask => handleStopTask jointPositions
  | .setFollowerSource requested => handleSetFollowerSource rig drained requested jointPositions
  | .startRecording _ => handleStartRecording drained
  | _ => pure ()

def drainCommands (rig : Rig) (jointPositions : Joints) : List Drained → Task Unit
  | [] => pure ()
  | drained :: rest => do
    handle rig jointPositions drained
    drainCommands rig jointPositions rest

/-! ## One tick -/

/-- A reading that does not advance, or has another shape than the follower, counts
as a failure. -/
def LeaderReading.valid (jointPositions : Joints) (last : Option Rat) : LeaderReading → Option (Joints × Rat)
  | .raised _ => none
  | .observed action timestamp =>
    if last.any (timestamp ≤ ·) then none
    else if action.length ≠ jointPositions.length then none
    else some (action, timestamp)

def disableFailedLeader (jointPositions : Joints) : Task Unit := do
  let changed ← .read (decide <| ·.followerSource ≠ .hold)
  .modify (·.disableLeader jointPositions)
  if changed then emitState else pure ()
  emitError "The leader robot stopped responding. The follower switched to hold." "leader_connection_lost"

def takeReading (tick : Tick) (s : SourceState) : Option Joints × SourceState :=
  match LeaderReading.valid tick.jointPositions s.lastLeaderTimestamp tick.leader with
  | some (action, timestamp) => (some action, s.leaderSucceeded action timestamp)
  | none => (none, s.leaderFailed)

def readLeader (rig : Rig) (tick : Tick) : Task (Option Sent) :=
  if !rig.hasLeader then pure none
  else do
    let reading ← .act (takeReading tick)
    match reading with
    | some action => pure (some (.leader action))
    | none => do
      let failures ← .read (·.leaderFailures)
      if rig.maxLeaderFailures ≤ failures then disableFailedLeader tick.jointPositions else pure ()
      .read fun s => (s.lastLeaderAction.map .leader) <|> (s.holdTarget.map .leaderHold)

def leaderAction (rig : Rig) (tick : Tick) : Task (Option Sent) := do
  let readsEnabled ← .read (·.leaderReadsEnabled)
  if readsEnabled then readLeader rig tick else .read (·.lastLeaderAction.map .leader)

/-- The policy runs under the lock in every mode, and whatever it raises short of a
dead worker drops the source to hold. -/
def policyActionLocked (tick : Tick) (s : SourceState) : Except Fault (Option Sent) × SourceState :=
  match s.policy with
  | none => (.ok none, s.log .inferenceSkipped)
  | some source =>
    if s.arming then (.ok none, s.log .inferenceSkipped)
    else match tick.policyUpdate source with
      | .ok action => (.ok (some (.policy source action)), s.log (.inferred source action))
      | .error (.workerDied message) => (.error (.workerDied message), s)
      | .error fault =>
        (.ok none, s.dropPolicyToHold source tick.jointPositions (fault.textOr "Policy inference failed."))

def policyAction (tick : Tick) : Task (Option Sent) := do
  let outcome ← .act (policyActionLocked tick)
  match outcome with
  | .ok action => pure action
  | .error fault => .raise fault

def chooseLeader (leaderAction : Option Sent) (s : SourceState) : Option Sent × SourceState :=
  match leaderAction with
  | some sent => if s.followerSource = .teleop then (some sent, s.log (.returned sent .teleop)) else (none, s)
  | none => (none, s)

def chooseHold (s : SourceState) : Option Sent × SourceState :=
  match s.holdTarget with
  | some target => (some (.hold target), s.log (.returned (.hold target) s.followerSource))
  | none => (none, s)

def choosePolicy (policyAction : Option Sent) (s : SourceState) : Option Sent × SourceState :=
  match policyAction with
  | some sent =>
    if s.followerSource = .policy then (some sent, s.log (.returned sent .policy)) else chooseHold s
  | none => chooseHold s

/-- The follower source is read twice: once for teleoperation and once for the policy. -/
def choose (leaderAction policyAction : Option Sent) : Task Sent := do
  let teleop ← .act (chooseLeader leaderAction)
  match teleop with
  | some sent => pure sent
  | none => do
    let chosen ← .act (choosePolicy policyAction)
    match chosen with
    | some sent => pure sent
    | none => .raise (.other "'NoneType' object has no attribute 'copy'")

def update (rig : Rig) (tick : Tick) : Task Sent := do
  .modify (·.observe tick.jointPositions)
  drainCommands rig tick.jointPositions tick.commands
  .modify fun s => if s.holdTarget.isNone then s.latchFirst tick.jointPositions else s
  let leaderAction ← leaderAction rig tick
  let policyAction ← policyAction tick
  choose leaderAction policyAction

def updates (rig : Rig) : List Tick → Task Unit
  | [] => pure ()
  | tick :: rest => do
    let _ ← update rig tick
    updates rig rest

/-- The control thread of a session: ticks until the run ends or a tick raises, and
then, in any case, the teardown of the policy. -/
def control (rig : Rig) (ticks : List Tick) (shutdownRaises : Option Fault) : Task Unit :=
  .ensuring (shutdownPolicy shutdownRaises) (updates rig ticks)

end ActionSource

end PhysicalAiStudio.Runtime
