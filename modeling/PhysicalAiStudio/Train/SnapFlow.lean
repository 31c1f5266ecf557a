import PhysicalAiStudio.Concurrency.Transition
import PhysicalAiStudio.Strings.Text
import Mathlib.Data.Rat.Defs

/-! The switch to SnapFlow distillation and what a resumed run restores: `train/callbacks.py` and
`policies/mixins/snapflow.py`.

Weights, the optimizer and the banner are left out: they are not part of the phase. The score of the
last save is left out of the tracking of a checkpoint callback, which writes it anew at each save.
-/

set_option autoImplicit false

namespace PhysicalAiStudio.Train.SnapFlow
open Concurrency Strings

/-! ### The policy -/

/-- The training objective of a policy, as its inner model and its config hold it. -/
structure Objective where
  snapflowEnabled : Bool
  snapflowAlpha : ℚ
  snapflowLambda : ℚ
  snapflowNumInferenceSteps : Int
  trainExpertOnly : Bool
  deriving DecidableEq

inductive Error where
  | typeError
  | valueError (message : Text)
  | isADirectoryError
  | loadError
  deriving DecidableEq

def Objective.freezeVlm (objective : Objective) : Objective := { objective with trainExpertOnly := true }

def Objective.enableSnapflow (objective : Objective) (alpha lambda : ℚ) (numInferenceSteps : Int) :
    Except Error Objective :=
  if ¬(0 ≤ alpha ∧ alpha ≤ 1) then .error (.valueError "alpha must be in [0, 1]".toList)
  else if numInferenceSteps < 1 then .error (.valueError "num_inference_steps must be >= 1".toList)
  else
    .ok { objective with snapflowEnabled := true, snapflowAlpha := alpha, snapflowLambda := lambda,
                         snapflowNumInferenceSteps := numInferenceSteps }.freezeVlm

/-! ### The checkpoint callbacks -/

inductive Mode where
  | min | max
  deriving DecidableEq

structure Tracking (Score : Type) where
  kthValue : Score
  bestKModels : List (Text × Score)
  kthBestModelPath : Text
  bestModelScore : Option Score
  bestModelPath : Text

structure ModelCheckpoint (Score : Type) where
  monitor : Option Text
  mode : Mode
  filename : Option Text
  tracking : Tracking Score
  lastModelPath : Text

inductive CheckpointCallback (Score : Type) where
  | model (callback : ModelCheckpoint Score)
  | other

/-- What the training framework does with a checkpoint callback: it writes the tracking at each save, embeds the
state of the callback in the checkpoint and restores it into a new callback. -/
structure Lightning (Score Metrics Saved : Type) where
  joinChar : Text
  worst : Mode → Score
  track : ModelCheckpoint Score → Metrics → Tracking Score × Text
  stateDict : ModelCheckpoint Score → Saved
  loadStateDict : ModelCheckpoint Score → Saved → ModelCheckpoint Score

variable {Score Metrics Saved : Type}

/-- The state of a checkpoint callback is its tracking and its last path; its template is not part of it. -/
def Lightning.Documented (lightning : Lightning Score Metrics Saved) : Prop :=
  ∀ fresh saved, lightning.loadStateDict fresh (lightning.stateDict saved) =
    { fresh with tracking := saved.tracking, lastModelPath := saved.lastModelPath }

/-! ### The phase callback -/

/-- The constructor takes exactly one of the two. -/
inductive Boundary where
  | startStep (step : Nat)
  | startEpoch (epoch : Nat)

structure Settings (Score : Type) where
  boundary : Boundary
  alpha : ℚ
  lambda : ℚ
  numInferenceSteps : Int
  checkpointPrefix : Option Text
  restoreBestTeacher : Bool
  bestTeacherMonitor : Option Text
  scopeBestToPhase : Bool
  /-- The policy has a method `enable_snapflow`. -/
  capable : Bool
  policy : Objective
  checkpointCallbacks : List (CheckpointCallback Score)

structure PhaseCallback where
  activated : Bool
  activatedAtStep : Option Nat
  restoredTeacherPath : Option Text
  deriving DecidableEq

structure State (Score : Type) where
  globalStep : Nat
  currentEpoch : Nat
  callback : PhaseCallback
  policy : Objective
  checkpointCallbacks : List (CheckpointCallback Score)
  switches : Nat

/-- The files a path names when the best teacher is restored. -/
structure Disk where
  isDir : Text → Bool
  loads : Text → Bool

/-- The template of a callback from the switch on; one that carries the prefix is left alone. -/
def renamed (lightning : Lightning Score Metrics Saved) (checkpointPrefix filename : Option Text) : Option Text :=
  match checkpointPrefix with
  | none | some [] => filename
  | some start =>
    let template :=
      match filename with
      | none | some [] => "{epoch}".toList ++ lightning.joinChar ++ "{step}".toList
      | some template => template
    if start.isPrefixOf template then filename else some (start ++ template)

def prefixed (lightning : Lightning Score Metrics Saved) (checkpointPrefix : Option Text)
    (callback : ModelCheckpoint Score) : ModelCheckpoint Score :=
  { callback with filename := renamed lightning checkpointPrefix callback.filename }

def CheckpointCallback.onModel (change : ModelCheckpoint Score → ModelCheckpoint Score) :
    CheckpointCallback Score → CheckpointCallback Score
  | .model callback => .model (change callback)
  | .other => .other

def prefixCheckpointFilenames (lightning : Lightning Score Metrics Saved) (settings : Settings Score)
    (callbacks : List (CheckpointCallback Score)) : List (CheckpointCallback Score) :=
  callbacks.map (.onModel (prefixed lightning settings.checkpointPrefix))

def resetTracking (lightning : Lightning Score Metrics Saved) (callback : ModelCheckpoint Score) :
    ModelCheckpoint Score :=
  if callback.monitor = none then callback
  else { callback with tracking := { kthValue := lightning.worst callback.mode, bestKModels := [], kthBestModelPath := [],
                                     bestModelScore := none, bestModelPath := [] } }

def resetBestTracking (lightning : Lightning Score Metrics Saved) (callbacks : List (CheckpointCallback Score)) :
    List (CheckpointCallback Score) :=
  callbacks.map (.onModel (resetTracking lightning))

def CheckpointCallback.monitored : CheckpointCallback Score → Option (ModelCheckpoint Score)
  | .model callback => if callback.monitor = none then none else some callback
  | .other => none

def resolveMonitoredCheckpoint (settings : Settings Score) (callbacks : List (CheckpointCallback Score)) :
    Except Error (Option (ModelCheckpoint Score)) :=
  let monitored := callbacks.filterMap CheckpointCallback.monitored
  let chosen :=
    match settings.bestTeacherMonitor with
    | none => monitored
    | some monitor => monitored.filter fun callback => decide (callback.monitor = some monitor)
  match chosen with
  | [] => .ok none
  | [callback] => .ok (some callback)
  | _ => .error (.valueError ("SnapFlowPhaseCallback found multiple monitored ModelCheckpoint callbacks; set " ++
      "best_teacher_monitor to disambiguate which one to restore the best teacher from.").toList)

def restoreBestTeacher (settings : Settings Score) (disk : Disk) (callbacks : List (CheckpointCallback Score)) :
    Except Error (Option Text) := do
  match ← resolveMonitoredCheckpoint settings callbacks with
  | none => pure none
  | some callback =>
    let bestPath := callback.tracking.bestModelPath
    if bestPath = [] then pure none
    else if disk.isDir bestPath then .error .isADirectoryError
    else if disk.loads bestPath then pure (some bestPath)
    else .error .loadError

def teacherPath (settings : Settings Score) (disk : Disk) (callbacks : List (CheckpointCallback Score)) :
    Except Error (Option Text) :=
  if settings.restoreBestTeacher then restoreBestTeacher settings disk callbacks else pure none

def activate (lightning : Lightning Score Metrics Saved) (settings : Settings Score) (disk : Disk)
    (state : State Score) : Except Error (State Score) :=
  if !settings.capable then .error .typeError
  else do
    -- The teacher's checkpoint is looked for first, and is among what can raise before the policy changes.
    let restoredTeacherPath ← teacherPath settings disk state.checkpointCallbacks
    let policy ← state.policy.enableSnapflow settings.alpha settings.lambda settings.numInferenceSteps
    let reset :=
      if settings.scopeBestToPhase then resetBestTracking lightning state.checkpointCallbacks
      else state.checkpointCallbacks
    pure { state with
      policy := policy
      callback := { activated := true, activatedAtStep := some state.globalStep,
                    restoredTeacherPath := restoredTeacherPath }
      checkpointCallbacks := prefixCheckpointFilenames lightning settings reset
      switches := state.switches + 1 }

/-- Whether a hook that runs at a boundary of steps or of epochs has reached it. -/
def reachedBoundary (settings : Settings Score) (state : State Score) (epochStart : Bool) : Bool :=
  match settings.boundary with
  | .startStep step => !epochStart && decide (step ≤ state.globalStep)
  | .startEpoch epoch => epochStart && decide (epoch ≤ state.currentEpoch)

/-- `on_train_epoch_start` and `on_train_batch_start`. -/
def onStart (lightning : Lightning Score Metrics Saved) (settings : Settings Score) (disk : Disk) (epochStart : Bool)
    (state : State Score) : Except Error (State Score) :=
  if state.callback.activated || !reachedBoundary settings state epochStart then .ok state
  else activate lightning settings disk state

/-! ### Resuming -/

structure Checkpoint (Saved : Type) where
  globalStep : Nat
  currentEpoch : Nat
  callback : PhaseCallback
  checkpointCallbacks : List (Option Saved)
  switches : Nat

def callbackState (lightning : Lightning Score Metrics Saved) : CheckpointCallback Score → Option Saved
  | .model callback => some (lightning.stateDict callback)
  | .other => none

def save (lightning : Lightning Score Metrics Saved) (state : State Score) : Checkpoint Saved where
  globalStep := state.globalStep
  currentEpoch := state.currentEpoch
  callback := state.callback
  checkpointCallbacks := state.checkpointCallbacks.map (callbackState lightning)
  switches := state.switches

def restoreCallback (lightning : Lightning Score Metrics Saved) :
    CheckpointCallback Score → Option Saved → CheckpointCallback Score
  | .model fresh, some saved => .model (lightning.loadStateDict fresh saved)
  | fresh, _ => fresh

/-- The policy and the checkpoint callbacks are built anew; `on_load_checkpoint` of a policy restores its weights
and nothing of its objective. -/
def resume (lightning : Lightning Score Metrics Saved) (settings : Settings Score) (checkpoint : Checkpoint Saved) :
    State Score where
  globalStep := checkpoint.globalStep
  currentEpoch := checkpoint.currentEpoch
  callback := checkpoint.callback
  policy := settings.policy
  checkpointCallbacks :=
    List.zipWith (restoreCallback lightning) settings.checkpointCallbacks checkpoint.checkpointCallbacks
  switches := checkpoint.switches

/-! ### Runs -/

inductive Event (Metrics : Type) where
  | epochStart (disk : Disk)
  | batchStart (disk : Disk)
  | optimizerStep
  | epochEnd
  | saved (metrics : Metrics)
  /-- A checkpoint is saved and the run goes on from it in new objects. -/
  | resumed

def tracked (lightning : Lightning Score Metrics Saved) (metrics : Metrics) (callback : ModelCheckpoint Score) :
    ModelCheckpoint Score :=
  { callback with tracking := (lightning.track callback metrics).1, lastModelPath := (lightning.track callback metrics).2 }

def step (lightning : Lightning Score Metrics Saved) (settings : Settings Score) (state : State Score) :
    Event Metrics → Option (State Score)
  | .epochStart disk => (onStart lightning settings disk true state).toOption
  | .batchStart disk => (onStart lightning settings disk false state).toOption
  | .optimizerStep => some { state with globalStep := state.globalStep + 1 }
  | .epochEnd => some { state with currentEpoch := state.currentEpoch + 1 }
  | .saved metrics =>
    some { state with checkpointCallbacks := state.checkpointCallbacks.map (.onModel (tracked lightning metrics)) }
  | .resumed => some (resume lightning settings (save lightning state))

def training (lightning : Lightning Score Metrics Saved) (settings : Settings Score) :
    System (State Score) (Event Metrics) where
  initial := { globalStep := 0, currentEpoch := 0, callback := ⟨false, none, none⟩, policy := settings.policy,
               checkpointCallbacks := settings.checkpointCallbacks, switches := 0 }
  step := step lightning settings

end PhysicalAiStudio.Train.SnapFlow
