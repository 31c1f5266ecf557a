import Mathlib.Data.Rat.Defs
import Mathlib.Data.Rat.Floor

/-! The commands a runtime session takes and the events it publishes.

Joint vectors are lists of rationals: the runtime copies and compares them but
never computes with them. Camera frames only pass through to the policy and are
left out.
-/

set_option autoImplicit false

namespace PhysicalAiStudio.Runtime

abbrev Uuid := BitVec 128

abbrev Joints := List Rat

inductive FollowerSource where
  | hold
  | teleop
  | policy
  deriving DecidableEq, Repr

inductive InferenceBackend where
  | openvino
  | torch
  deriving DecidableEq, Repr

structure InferenceDevice where
  backend : InferenceBackend
  device : String
  deriving DecidableEq, Repr

structure LoadModelCommand where
  modelId : Uuid
  inferenceDevice : InferenceDevice
  force : Bool := false
  deriving DecidableEq, Repr

inductive Command where
  | setFollowerSource (followerSource : FollowerSource)
  | disconnect
  | loadModel (command : LoadModelCommand)
  | loadDataset (datasetId : Uuid)
  | startTask (task : String)
  | stopTask
  | startRecording (task : String)
  | saveEpisode (requestId : String)
  | discardEpisode (requestId : String)
  deriving DecidableEq, Repr

/-- The model, backend and device that determine the policy a load builds. -/
structure ModelIdentity where
  modelId : Uuid
  backend : InferenceBackend
  device : String
  deriving DecidableEq, Repr

def modelIdentity (command : LoadModelCommand) : ModelIdentity :=
  ⟨command.modelId, command.inferenceDevice.backend, command.inferenceDevice.device⟩

/-- The part of a state event that the action source owns. -/
structure StateData where
  connected : Bool := true
  followerSource : FollowerSource
  hasLeader : Bool
  modelLoaded : Bool
  task : Option String
  deriving DecidableEq, Repr

inductive RuntimeEvent where
  | state (data : StateData)
  | error (message errorCode : String)
  deriving DecidableEq, Repr

/-- The exceptions the runtime tells apart. -/
inductive Fault where
  | workerDied (message : String)
  | runtimeError (message : String)
  | fileNotFound (path : String)
  | app (message errorCode : String)
  | other (message : String)
  deriving DecidableEq, Repr

def Fault.text : Fault → String
  | .workerDied message | .runtimeError message | .app message _ | .other message => message
  | .fileNotFound path => path

def Fault.textOr (fault : Fault) (fallback : String) : String :=
  if fault.text = "" then fallback else fault.text

end PhysicalAiStudio.Runtime
