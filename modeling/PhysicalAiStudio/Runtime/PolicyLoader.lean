import PhysicalAiStudio.Runtime.ActionSource

/-! `PolicyLoader`: builds a policy off the control thread and hands it over.

The calls into the policy library are inputs: a script carries, for each load,
what every call on the way raises.
-/

set_option autoImplicit false

namespace PhysicalAiStudio.Runtime

open Concurrency

structure LoadScript where
  build : Option Fault := none
  connect : Option Fault := none
  requiresTask : Bool := false
  setTask : Option Fault := none
  warmup : Option Fault := none
  disconnect : Option Fault := none
  disconnectPrevious : Option Fault := none

/-- What the threads of a session meet outside the repository. -/
structure Script where
  load : Nat → LoadScript := fun _ => {}
  armWarmup : Nat → Option Fault := fun _ => none

namespace PolicyLoader

open ActionSource

def emitLoadError : Fault → Task Unit
  | .fileNotFound path => emitError s!"Model export not found at {path}." "model_not_found"
  | .app message errorCode => emitError message errorCode
  | fault => emitError (fault.textOr "Failed to load the model.") "model_load_failed"

/-- A call that raises or leaves its mark in the history. -/
def call (raises : Option Fault) (event : Event) : Task Unit := do
  .check raises
  .modify (·.log event)

def handoverLocked (source : PolicySource) (generation : Nat) (s : SourceState) : Bool × SourceState :=
  if generation ≠ s.loaderGeneration then (false, s.log (.disconnected (.loader generation) source))
  else (true, s.log (.passed source))

def handover (script : LoadScript) (generation : Nat) (source : PolicySource) (identity : ModelIdentity) :
    Task Unit := do
  let current ← .act (handoverLocked source generation)
  if current then
    setPolicy (.loader generation) source generation identity script.disconnect script.disconnectPrevious
  else
    match script.disconnect with
    | none => pure ()
    | some fault => do
      .modify (·.log (.disconnectRaised (.loader generation)))
      .raise fault

/-- The body of the `try` in `_load`, once the policy is built. -/
def loadBuilt (script : LoadScript) (generation : Nat) (source : PolicySource) (identity : ModelIdentity) :
    Task Unit := do
  call script.connect (.connected source)
  if script.requiresTask then .check script.setTask else pure ()
  let snapshot ← .read (·.lastRobotState)
  if snapshot.isSome then .check script.warmup else pure ()
  handover script generation source identity

/-- The `except` of `_load`. What the last `disconnect` raises is swallowed. -/
def loadFailed (generation : Nat) (source : Option PolicySource) (fault : Fault) : Task Unit := do
  .modify (·.log (.loadFailed generation))
  match source with
  | some built => .modify (·.log (.disconnected (.loader generation) built))
  | none => pure ()
  let stale ← .read (decide <| generation ≠ ·.loaderGeneration)
  if stale then pure () else emitLoadError fault

def load (script : LoadScript) (generation : Nat) (command : LoadModelCommand) : Task Unit :=
  let source : PolicySource := ⟨generation, modelIdentity command⟩
  match script.build with
  | some fault => loadFailed generation none fault
  | none => do
    .modify (·.log (.built source))
    .attempt (loadFailed generation (some source))
      (loadBuilt script generation source (modelIdentity command))

end PolicyLoader

/-- The code of the daemon threads. The control thread starts with the session. -/
def code (script : Script) : Job → Task Unit
  | .control => pure ()
  | .load generation command => PolicyLoader.load (script.load generation) generation command
  | .arm generation source => ActionSource.finishArm source generation (script.armWarmup generation)

def session (rig : Rig) (ticks : List Tick) (shutdownRaises : Option Fault) :
    Pool Job Fault SourceState where
  memory := .initial rig
  threads := [⟨.control, ActionSource.control rig ticks shutdownRaises⟩]

@[irreducible] def run (rig : Rig) (script : Script) (ticks : List Tick) (shutdownRaises : Option Fault)
    (schedule : List Nat) : Pool Job Fault SourceState :=
  (session rig ticks shutdownRaises).run (code script) schedule

/-! ## A small session -/

def sampleLoad : LoadModelCommand where
  modelId := 1
  inferenceDevice := ⟨.torch, "cpu"⟩

def loadThenHold (policyUpdate : PolicySource → Except Fault Joints) : List Tick := [
  { jointPositions := [0], commands := [{ command := .loadModel sampleLoad }] },
  { jointPositions := [1], policyUpdate := policyUpdate }]

def loadBetweenTicks : List Nat := List.replicate 13 0 ++ List.replicate 8 1 ++ List.replicate 7 0

def aloneRig : Rig where
  hasLeader := false
  fps := 30
  connected := true

end PhysicalAiStudio.Runtime
