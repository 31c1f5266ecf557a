import PhysicalAiStudio.Runtime.Contract

/-! The memory shared by the control thread, the policy loader's threads and the
arming threads of one action source.

The fields are those of `StudioActionSource` and of its `PolicyLoader`. The
history records, newest first, what the threads did: it takes no part in any
decision and is what statements about a run are about.
-/

set_option autoImplicit false

namespace PhysicalAiStudio.Runtime

/-- A loaded policy. Every load builds one object, so the generation of the load
that built it tells two objects apart. -/
structure PolicySource where
  generation : Nat
  identity : ModelIdentity
  deriving DecidableEq, Repr

inductive Key where
  | control
  | loader (generation : Nat)
  | arming (generation : Nat)
  deriving DecidableEq, Repr

/-- What makes a live arming void. -/
inductive CancelCause where
  | loadModel
  | stopTask
  | setFollowerSource (requested : FollowerSource)
  deriving DecidableEq, Repr

/-- What writes the hold target. -/
inductive LatchCause where
  | firstTick
  | command
  | policyFailure
  | leaderFailure
  deriving DecidableEq, Repr

/-- What `update` returns, with where it came from. -/
inductive Sent where
  | leader (action : Joints)
  | leaderHold (target : Joints)
  | policy (source : PolicySource) (action : Joints)
  | hold (target : Joints)
  deriving DecidableEq, Repr

def Sent.joints : Sent → Joints
  | .leader joints | .leaderHold joints | .policy _ joints | .hold joints => joints

inductive Event where
  | ticked (jointPositions : Joints)
  | emitted (event : RuntimeEvent)
  | skipped (command : LoadModelCommand)
  | cleared (command : LoadModelCommand)
  | requested (generation : Nat) (command : LoadModelCommand)
  | cancelled (cause : CancelCause) (mode : FollowerSource) (live : Bool)
  | armed (generation : Nat) (source : PolicySource) (task : Option String) (background : Bool)
  | switched (generation : Nat) (previous : FollowerSource)
  | warmupFailed (generation : Nat) (mode : FollowerSource)
  | enteredTeleop
  | latched (cause : LatchCause) (target : Joints) (previous : FollowerSource)
  | leaderRead (succeeded : Bool)
  | inferred (source : PolicySource) (action : Joints)
  | inferenceFailed (source : PolicySource) (mode : FollowerSource)
  | inferenceSkipped
  | returned (sent : Sent) (mode : FollowerSource)
  | built (source : PolicySource)
  | connected (source : PolicySource)
  | passed (source : PolicySource)
  | attached (source : PolicySource) (previous : Option PolicySource) (mode : FollowerSource)
  | dropped (source : PolicySource)
  | loadFailed (generation : Nat)
  | disconnected (own : Key) (source : PolicySource)
  | disconnectRaised (own : Key)
  | invalidated
  | detached (previous : Option PolicySource)
  deriving DecidableEq, Repr

structure Rig where
  hasLeader : Bool
  fps : Rat
  /-- The bus and the session id are set. -/
  connected : Bool

def Rig.maxLeaderFailures (rig : Rig) : Nat := max 1 (3 * rig.fps).floor.toNat

structure SourceState where
  followerSource : FollowerSource := .hold
  holdTarget : Option Joints := none
  lastLeaderAction : Option Joints := none
  lastLeaderTimestamp : Option Rat := none
  leaderFailures : Nat := 0
  leaderReadsEnabled : Bool
  failureLogged : Bool := false
  policy : Option PolicySource := none
  attachedGeneration : Nat := 0
  armGeneration : Nat := 0
  arming : Bool := false
  modelLoaded : Bool := false
  loadedIdentity : Option ModelIdentity := none
  task : Option String := none
  policyErrorEmitted : Bool := false
  lastRobotState : Option Joints := none
  loaderGeneration : Nat := 0
  history : List Event := []
  deriving DecidableEq

namespace SourceState

def initial (rig : Rig) : SourceState := { leaderReadsEnabled := rig.hasLeader }

def log (event : Event) (s : SourceState) : SourceState := { s with history := event :: s.history }

def stateData (s : SourceState) : StateData where
  followerSource := s.followerSource
  hasLeader := s.leaderReadsEnabled
  modelLoaded := s.modelLoaded
  task := s.task

def emit (event : RuntimeEvent) (s : SourceState) : SourceState := s.log (.emitted event)

def emitState (s : SourceState) : SourceState := s.emit (.state s.stateData)

/-! ## What one lock section, or one write to an unprotected field, does

Fields that only the control thread touches are written together with the
shared field next to them in the source. -/

def observe (jointPositions : Joints) (s : SourceState) : SourceState :=
  { s with lastRobotState := some jointPositions }.log (.ticked jointPositions)

def clearIdentity (command : LoadModelCommand) (s : SourceState) : SourceState :=
  { s with loadedIdentity := none }.log (.cleared command)

def cancelArmingLocked (s : SourceState) : SourceState :=
  { s with armGeneration := s.armGeneration + 1, arming := false }

def cancelArming (cause : CancelCause) (s : SourceState) : SourceState :=
  s.cancelArmingLocked.log (.cancelled cause s.followerSource s.arming)

def unsetModel (s : SourceState) : SourceState := { s with modelLoaded := false }

def requestLoad (command : LoadModelCommand) (s : SourceState) : SourceState :=
  { s with loaderGeneration := s.loaderGeneration + 1 }.log (.requested (s.loaderGeneration + 1) command)

def arm (source : PolicySource) (task : Option String) (s : SourceState) : SourceState :=
  { s with
    task := task
    policyErrorEmitted := false
    armGeneration := s.armGeneration + 1
    arming := true }.log (.armed (s.armGeneration + 1) source task s.lastRobotState.isSome)

def switchToPolicy (generation : Nat) (s : SourceState) : SourceState :=
  { s with arming := false, followerSource := .policy }.log (.switched generation s.followerSource)

def failArming (generation : Nat) (s : SourceState) : SourceState :=
  { s with arming := false }.log (.warmupFailed generation s.followerSource)

def enterTeleop (s : SourceState) : SourceState :=
  { s with followerSource := .teleop }.log .enteredTeleop

def enterHold (cause : LatchCause) (target : Joints) (s : SourceState) : SourceState :=
  { s with followerSource := .hold, holdTarget := some target }.log (.latched cause target s.followerSource)

def latchFirst (target : Joints) (s : SourceState) : SourceState :=
  { s with holdTarget := some target }.log (.latched .firstTick target s.followerSource)

def leaderSucceeded (action : Joints) (timestamp : Rat) (s : SourceState) : SourceState :=
  { s with
    leaderFailures := 0
    failureLogged := false
    lastLeaderTimestamp := some timestamp
    lastLeaderAction := some action }.log (.leaderRead true)

def leaderFailed (s : SourceState) : SourceState :=
  { s with leaderFailures := s.leaderFailures + 1, failureLogged := true }.log (.leaderRead false)

def disableLeader (target : Joints) (s : SourceState) : SourceState :=
  { s with leaderReadsEnabled := false }.enterHold .leaderFailure target

def attach (source : PolicySource) (generation : Nat) (identity : ModelIdentity) (s : SourceState) : SourceState :=
  { s.cancelArmingLocked with
    policy := some source
    attachedGeneration := generation
    modelLoaded := true
    loadedIdentity := some identity
    policyErrorEmitted := false }.log (.attached source s.policy s.followerSource)

def invalidateLoads (s : SourceState) : SourceState :=
  { s with loaderGeneration := s.loaderGeneration + 1 }.log .invalidated

def detach (s : SourceState) : SourceState :=
  { s.cancelArmingLocked with
    policy := none
    modelLoaded := false
    loadedIdentity := none }.log (.detached s.policy)

def failInference (source : PolicySource) (s : SourceState) : SourceState :=
  { s with loadedIdentity := none }.log (.inferenceFailed source s.followerSource)

def reportInference (message : String) (s : SourceState) : SourceState :=
  { s with policyErrorEmitted := true }.emit (.error message "policy_inference_failed")

def dropPolicyToHold (source : PolicySource) (target : Joints) (message : String) (s : SourceState) : SourceState :=
  let dropped := (s.failInference source).enterHold .policyFailure target
  let reported := if dropped.policyErrorEmitted then dropped else dropped.reportInference message
  if s.followerSource = .hold then reported else reported.emitState

end SourceState

end PhysicalAiStudio.Runtime
