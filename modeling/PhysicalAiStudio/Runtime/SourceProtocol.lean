import PhysicalAiStudio.Concurrency.RelyGuarantee
import PhysicalAiStudio.Concurrency.History
import PhysicalAiStudio.Runtime.PolicyLoader

/-! What each thread of an action source can do in one action.

The three step relations list every change with the guard under which the code
reaches it. An action of the control thread may make several of them. They are
the only link to the code: whatever is said about runs follows from them.
-/

set_option autoImplicit false

namespace PhysicalAiStudio.Runtime

open Concurrency

/-! ## Reading the history -/

def Event.job : Event → Option Job
  | .requested generation command => some (.load generation command)
  | .armed generation source _ true => some (.arm generation source)
  | _ => none

def startedJobs (history : List Event) : List Job := history.filterMap Event.job ++ [.control]

def Event.loader : Event → Option Nat
  | .built source | .connected source | .passed source | .attached source _ _ | .dropped source =>
      some source.generation
  | .loadFailed generation | .disconnected (.loader generation) _ | .disconnectRaised (.loader generation) =>
      some generation
  | _ => none

def Event.arm : Event → Option Nat
  | .switched generation _ | .warmupFailed generation _ => some generation
  | _ => none

def Event.ofPool : Event → Bool
  | .emitted _ => true
  | event => event.loader.isSome || event.arm.isSome

def Event.loading : Event → Option (Option (Nat × LoadModelCommand))
  | .requested generation command => some (some (generation, command))
  | .cleared _ => some none
  | _ => none

/-- The newest `load_model` that was not skipped, or nothing while it is being handled. -/
def lastLoad (history : List Event) : Option (Nat × LoadModelCommand) :=
  (history.findSome? Event.loading).join

def Event.arming : Event → Option (Option (Nat × PolicySource × Option String))
  | .armed generation source task _ => some (some (generation, source, task))
  | .cancelled _ _ _ | .warmupFailed _ _ | .attached _ _ _ | .detached _ => some none
  | _ => none

/-- The newest arming, completed or not, unless it failed or was cancelled. -/
def liveArming (history : List Event) : Option (Nat × PolicySource × Option String) :=
  (history.findSome? Event.arming).join

def Event.task : Event → Option (Option String)
  | .armed _ _ task _ => some task
  | _ => none

def publishedTask (history : List Event) : Option String := (history.findSome? Event.task).join

/-- A command for another mode withdraws the arming, a newer arming replaces it. -/
def Event.withdraws : Event → Option Bool
  | .cancelled .loadModel _ _ => none
  | .cancelled _ _ _ => some true
  | .armed _ _ _ _ => some false
  | _ => none

def withdrawn (history : List Event) : Bool := (history.findSome? Event.withdraws).getD false

def Event.attaches : Event → Option Nat
  | .attached source _ _ => some source.generation
  | _ => none

def lastAttached (history : List Event) : Nat := (history.findSome? Event.attaches).getD 0

def Event.settles : Event → Option PolicySource
  | .attached source _ _ | .dropped source => some source
  | _ => none

def Event.measures : Event → Option Joints
  | .ticked jointPositions => some jointPositions
  | _ => none

/-- What happened since the newest tick began. -/
def currentTick (history : List Event) : List Event := history.takeWhile (·.measures.isNone)

inductive Holder where
  | held (own : Key)
  | attached
  | released
  deriving DecidableEq, Repr

def holder (source : PolicySource) : List Event → Option Holder
  | [] => none
  | .built other :: older =>
    if other = source then some (.held (.loader source.generation)) else holder source older
  | .attached other previous _ :: older =>
    if other = source then some .attached
    -- What an attachment replaces goes to the loader that attached, which disconnects it.
    else if previous = some source then some (.held (.loader other.generation))
    else holder source older
  | .detached previous :: older =>
    if previous = some source then some (.held .control) else holder source older
  | .disconnected _ other :: older =>
    if other = source ∧ holder source older ≠ some .attached then some .released else holder source older
  | _ :: older => holder source older

def WasAttached (source : PolicySource) (history : List Event) : Prop :=
  ∃ previous mode, .attached source previous mode ∈ history

def Raised (history : List Event) : Prop := ∃ generation, .disconnectRaised (.loader generation) ∈ history

/-- A loader that found its policy current and has not yet entered the policy lock with it. -/
structure InWindow (source : PolicySource) (history : List Event) : Prop where
  passed : .passed source ∈ history
  unsettled : ∀ event ∈ history, event.settles ≠ some source

def BuiltBy (source : PolicySource) (history : List Event) : Prop :=
  ∃ command, .requested source.generation command ∈ history ∧ source.identity = modelIdentity command

/-- A thread disconnects what it holds. Once a loader's `disconnect` has raised, its
`except` branch disconnects again whatever it had. -/
def Disconnectable (own : Key) (source : PolicySource) (history : List Event) : Prop :=
  holder source history = some (.held own) ∨
    Raised history ∧ (WasAttached source history ∨ holder source history = some .released)

/-! ## Steps -/

inductive LoaderStep (own : PolicySource) : SourceState → SourceState → Prop
  | emit (s : SourceState) (event : RuntimeEvent) : LoaderStep own s (s.emit event)
  | build (s : SourceState) : holder own s.history = none → LoaderStep own s (s.log (.built own))
  | connect (s : SourceState) : holder own s.history = some (.held (.loader own.generation)) →
      LoaderStep own s (s.log (.connected own))
  | pass (s : SourceState) : own.generation = s.loaderGeneration →
      holder own s.history = some (.held (.loader own.generation)) →
      LoaderStep own s (s.log (.passed own))
  | attach (s : SourceState) : InWindow own s.history →
      holder own s.history = some (.held (.loader own.generation)) → s.attachedGeneration ≤ own.generation →
      LoaderStep own s (s.attach own own.generation own.identity)
  | drop (s : SourceState) : InWindow own s.history → own.generation < s.attachedGeneration →
      LoaderStep own s (s.log (.dropped own))
  | fail (s : SourceState) : LoaderStep own s (s.log (.loadFailed own.generation))
  | disconnect (s : SourceState) (source : PolicySource) :
      Disconnectable (.loader own.generation) source s.history →
      LoaderStep own s (s.log (.disconnected (.loader own.generation) source))
  | disconnectRaise (s : SourceState) : LoaderStep own s (s.log (.disconnectRaised (.loader own.generation)))

inductive ArmStep (generation : Nat) : SourceState → SourceState → Prop
  | emit (s : SourceState) (event : RuntimeEvent) : ArmStep generation s (s.emit event)
  | switch (s : SourceState) : s.arming → generation = s.armGeneration →
      ArmStep generation s (s.switchToPolicy generation)
  | fail (s : SourceState) : s.arming → generation = s.armGeneration →
      ArmStep generation s (s.failArming generation)

inductive Sends (s : SourceState) : Sent → Prop
  | leader (action : Joints) : s.followerSource = .teleop → s.lastLeaderAction.isSome → Sends s (.leader action)
  | leaderHold (target : Joints) : s.followerSource = .teleop → s.holdTarget = some target →
      s.lastLeaderAction = none → Sends s (.leaderHold target)
  | policy (source : PolicySource) (action : Joints) : s.followerSource = .policy →
      .inferred source action ∈ currentTick s.history → .inferenceSkipped ∉ currentTick s.history →
      Sends s (.policy source action)
  | hold (target : Joints) : s.holdTarget = some target → s.followerSource ≠ .teleop →
      (s.followerSource = .policy → .inferenceSkipped ∈ currentTick s.history) → Sends s (.hold target)

/-- In policy mode, no command for another mode came after the newest arming. -/
def Settled (s : SourceState) : Prop := s.followerSource = .policy → withdrawn s.history = false

inductive ControlStep (rig : Rig) : SourceState → SourceState → Prop
  | emit (s : SourceState) (event : RuntimeEvent) : ControlStep rig s (s.emit event)
  | observe (s : SourceState) (jointPositions : Joints) : ControlStep rig s (s.observe jointPositions)
  | skip (s : SourceState) (command : LoadModelCommand) : s.loadedIdentity = some (modelIdentity command) →
      ControlStep rig s (s.log (.skipped command))
  | clear (s : SourceState) (command : LoadModelCommand) : ControlStep rig s (s.clearIdentity command)
  | cancel (s : SourceState) (cause : CancelCause) : ControlStep rig s (s.cancelArming cause)
  | unset (s : SourceState) : lastLoad s.history = none → ControlStep rig s s.unsetModel
  | request (s : SourceState) (command : LoadModelCommand) : lastLoad s.history = none →
      .invalidated ∉ s.history → ControlStep rig s (s.requestLoad command)
  | arm (s : SourceState) (source : PolicySource) (task : Option String) : s.policy = some source →
      .invalidated ∉ s.history → s.lastRobotState.isSome → (∀ source action, .inferred source action ∉ currentTick s.history) →
      ControlStep rig s (s.arm source task)
  | enterTeleop (s : SourceState) : rig.hasLeader → s.leaderReadsEnabled → s.followerSource ≠ .teleop →
      ControlStep rig s s.enterTeleop
  | enterHold (s : SourceState) (cause : LatchCause) (target : Joints) : cause ≠ .firstTick →
      (cause = .command → s.followerSource ≠ .hold) → s.lastRobotState = some target →
      ControlStep rig s (s.enterHold cause target)
  | latchFirst (s : SourceState) (target : Joints) : s.holdTarget = none → s.lastRobotState = some target →
      ControlStep rig s (s.latchFirst target)
  | leaderSucceed (s : SourceState) (action : Joints) (timestamp : Rat) :
      ControlStep rig s (s.leaderSucceeded action timestamp)
  | leaderFail (s : SourceState) : ControlStep rig s s.leaderFailed
  | disableLeader (s : SourceState) (target : Joints) : s.lastRobotState = some target →
      ControlStep rig s (s.disableLeader target)
  | skipInference (s : SourceState) : s.policy = none ∨ s.arming → ControlStep rig s (s.log .inferenceSkipped)
  | infer (s : SourceState) (source : PolicySource) (action : Joints) : s.policy = some source →
      s.arming = false → Settled s → ControlStep rig s (s.log (.inferred source action))
  | failInference (s : SourceState) (source : PolicySource) : s.policy = some source → s.arming = false →
      ControlStep rig s (s.failInference source)
  | reportInference (s : SourceState) (message : String) : ControlStep rig s (s.reportInference message)
  | send (s : SourceState) (sent : Sent) : Sends s sent →
      ControlStep rig s (s.log (.returned sent s.followerSource))
  | invalidate (s : SourceState) : ControlStep rig s s.invalidateLoads
  | detach (s : SourceState) : .invalidated ∈ s.history → ControlStep rig s s.detach
  | disconnect (s : SourceState) (source : PolicySource) : Disconnectable .control source s.history →
      ControlStep rig s (s.log (.disconnected .control source))
  | disconnectRaise (s : SourceState) : ControlStep rig s (s.log (.disconnectRaised .control))

def SourceStep (rig : Rig) : Key → SourceState → SourceState → Prop
  | .control => Relation.ReflTransGen (ControlStep rig)
  | .loader generation => fun s t => ∃ own, own.generation = generation ∧ BuiltBy own s.history ∧ LoaderStep own s t
  | .arming generation => fun s t => (∃ source task background, .armed generation source task background ∈ s.history) ∧
      ArmStep generation s t

end PhysicalAiStudio.Runtime
