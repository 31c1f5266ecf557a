import PhysicalAiStudio.Collections.Deque

/-! The frame history of a video policy, and the actions it is rolled out with.

At every step of an episode the policy records the frames of its views. When its action
queue is empty it predicts a chunk of actions from a window of the history and queues the
first of them. The tensor operations and the model itself are given.
-/

set_option autoImplicit false

namespace PhysicalAiStudio.Policies.Vtc

open Collections

variable {Key Frame Other Action : Type} [DecidableEq Key]

/-- A flat observation: the image of each view, in the order of the keys, and the rest. -/
structure Batch (Key Frame Other : Type) where
  views : List (Key × Frame)
  other : Other

/-- What the policy is made with: the conversion of an image, which some arrays do not have, `torch.stack`, which images
of different shapes do not have, whether an image has a temporal axis already, and the model between its processors. -/
structure Rldx1 (Key Frame Other Action : Type) where
  videoLength : Nat
  videoStride : Nat
  nActionSteps : Nat
  asFrameTensor : Frame → Option Frame
  stack : List Frame → Option Frame
  isMultiframe : Frame → Bool
  getAction : Batch Key Frame Other → List Action

structure History (Key Frame : Type) where
  keys : List Key
  ring : Key → Deque Frame

structure Rollout (Key Frame Action : Type) where
  history : Option (History Key Frame)
  queue : Deque Action

/-- What a call comes to. A key or an index that is missing raises. -/
inductive Outcome (Action : Type) where
  | action (action : Action)
  | chunk (actions : List Action)
  | hold
  | raised
  | cleared

variable (policy : Rldx1 Key Frame Other Action)

def Rldx1.windowSize : Nat := (policy.videoLength - 1) * policy.videoStride + 1

/-- No view is found, or the first one has a temporal axis. -/
def Rldx1.passes (batch : Batch Key Frame Other) : Bool :=
  match batch.views with
  | [] => true
  | view :: _ => policy.isMultiframe view.2

def Rldx1.fresh : Rollout Key Frame Action := ⟨none, Deque.empty policy.nActionSteps⟩

/-! ### The frame history -/

/-- The frame goes to the end of its view's deque, which an empty one is filled with. -/
def Rldx1.push (ring : Deque Frame) (frame : Frame) : Deque Frame :=
  if ring.items = [] then ring.extend (List.replicate policy.windowSize frame) else ring.append frame

/-- The loop of `record`, and whether it came to its end. -/
def Rldx1.recordViews : List (Key × Frame) → History Key Frame → History Key Frame × Bool
  | [], history => (history, true)
  | (key, frame) :: rest, history =>
    if key ∈ history.keys then
      match policy.asFrameTensor frame with
      | none => (history, false)
      | some tensor =>
        recordViews rest { history with ring := Function.update history.ring key (policy.push (history.ring key) tensor) }
    else (history, false)

def Rldx1.ensureHistory (history : Option (History Key Frame)) (keys : List Key) : History Key Frame :=
  history.getD ⟨keys, fun _ => Deque.empty policy.windowSize⟩

def Rldx1.record (history : Option (History Key Frame)) (batch : Batch Key Frame Other) :
    Option (History Key Frame) × Bool :=
  if policy.videoLength ≤ 1 then (history, true)
  else if policy.passes batch then (history, true)
  else
    let recorded := policy.recordViews batch.views (policy.ensureHistory history (batch.views.map Prod.fst))
    (some recorded.1, recorded.2)

def Rldx1.isWarmingUp : Option (History Key Frame) → Bool
  | none => false
  | some history => history.keys.any fun key => (history.ring key).items.length < policy.windowSize

/-- How far back the frames of a window are. -/
def Rldx1.offsets : List Nat :=
  (List.range policy.videoLength).map fun index => (policy.videoLength - 1 - index) * policy.videoStride

/-- The window of one view; `count - 1 + offset` is cut at zero. -/
def Rldx1.window (ring : Deque Frame) : Option Frame :=
  (policy.offsets.mapM fun back => ring.items[ring.items.length - 1 - back]?).bind policy.stack

def Rldx1.applyWindow (history : History Key Frame) (batch : Batch Key Frame Other) : Option (Batch Key Frame Other) :=
  (batch.views.mapM fun view =>
    if view.1 ∈ history.keys then (policy.window (history.ring view.1)).map fun frame => (view.1, frame) else none).map
    fun views => { batch with views }

def Rldx1.prepare (history : Option (History Key Frame)) (batch : Batch Key Frame Other) :
    Option (History Key Frame) × Option (Batch Key Frame Other) :=
  if policy.videoLength ≤ 1 then (history, some batch)
  else if policy.passes batch then (history, some batch)
  else
    let known := match history with
      | none => false
      | some history => batch.views.all fun view => view.1 ∈ history.keys
    let recorded := if known then (history, true) else policy.record history batch
    (recorded.1, if recorded.2 then recorded.1.bind fun history => policy.applyWindow history batch else none)

/-! ### The rollout -/

def Rldx1.predictActionChunk (rollout : Rollout Key Frame Action) (batch : Batch Key Frame Other) :
    Rollout Key Frame Action × Option (List Action) :=
  let prepared := policy.prepare rollout.history batch
  ({ rollout with history := prepared.1 }, prepared.2.map policy.getAction)

def Rldx1.queueActions (queue : Deque Action) (actions : List Action) : Option (Action × Deque Action) :=
  (queue.extend (actions.take policy.nActionSteps)).popleft

def Rldx1.selectQueued (rollout : Rollout Key Frame Action) (batch : Batch Key Frame Other) :
    Rollout Key Frame Action × Outcome Action :=
  match rollout.queue.popleft with
  | some (action, queue) => ({ rollout with queue }, .action action)
  | none =>
    match policy.predictActionChunk rollout batch with
    | (predicted, none) => (predicted, .raised)
    | (predicted, some actions) =>
      match policy.queueActions predicted.queue actions with
      | some (action, queue) => ({ predicted with queue }, .action action)
      | none => ({ predicted with queue := predicted.queue.extend (actions.take policy.nActionSteps) }, .raised)

def Rldx1.selectAction (rollout : Rollout Key Frame Action) (batch : Batch Key Frame Other) :
    Rollout Key Frame Action × Outcome Action :=
  match policy.record rollout.history batch with
  | (history, false) => ({ rollout with history }, .raised)
  | (history, true) =>
    if policy.isWarmingUp history then ({ rollout with history }, .hold)
    else policy.selectQueued { rollout with history } batch

def Rollout.reset (rollout : Rollout Key Frame Action) : Rollout Key Frame Action := ⟨none, rollout.queue.clear⟩

inductive Call (Key Frame Other : Type) where
  | reset
  | selectAction (batch : Batch Key Frame Other)
  | predictActionChunk (batch : Batch Key Frame Other)

def Rldx1.call (rollout : Rollout Key Frame Action) : Call Key Frame Other → Rollout Key Frame Action × Outcome Action
  | .reset => (rollout.reset, .cleared)
  | .selectAction batch => policy.selectAction rollout batch
  | .predictActionChunk batch =>
    let predicted := policy.predictActionChunk rollout batch
    (predicted.1, predicted.2.elim .raised .chunk)

def Rldx1.after (calls : List (Call Key Frame Other)) : Rollout Key Frame Action :=
  calls.foldl (fun rollout call => (policy.call rollout call).1) policy.fresh

end PhysicalAiStudio.Policies.Vtc
