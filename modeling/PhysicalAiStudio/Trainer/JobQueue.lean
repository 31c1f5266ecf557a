import Mathlib.Data.List.Sort
import PhysicalAiStudio.Trainer.DatasetUpload

/-! The trainer's job store and its queue manager.

The manager runs on one event loop, so a step here is what happens between two awaits: a turn
of the dispatch loop, the end of a job with its cleanup, or a request after its dependency has
loaded the job on another thread. Tokens, metrics and extra information decide nothing and are
left out; a job's files are the matter of another module.
-/

set_option autoImplicit false

namespace PhysicalAiStudio.Trainer

open Concurrency

structure TrainingDevice where
  type : String
  index : Nat
  deriving DecidableEq

structure TrainingJobSpec where
  deviceType : Option String := none
  deviceIndex : Option Nat := none
  deriving DecidableEq

/-- The device that a job reserves; without one it reserves the entire trainer. -/
def TrainingJobSpec.device (spec : TrainingJobSpec) : Option TrainingDevice :=
  match spec.deviceType with
  | some type => if type = "cuda" ∨ type = "xpu" then some ⟨type, spec.deviceIndex.getD 0⟩ else none
  | none => none

def TrainerJobStatus.Terminal (status : TrainerJobStatus) : Prop :=
  status = .completed ∨ status = .failed ∨ status = .canceled

instance (status : TrainerJobStatus) : Decidable status.Terminal := inferInstanceAs (Decidable (_ ∨ _ ∨ _))

structure JobRow where
  spec : TrainingJobSpec
  createdAt : Nat
  status : TrainerJobStatus := .awaitingDataset
  progress : Nat := 0
  message : String := "Awaiting dataset upload"
  artifact : Option String := none
  deriving DecidableEq

/-- The task of a job, in `_active`: created, or within the run. -/
inductive TaskPhase where
  | created
  | training
  deriving DecidableEq

structure ActiveJob where
  job : Nat
  device : Option TrainingDevice
  phase : TaskPhase := .created
  deriving DecidableEq

inductive RunOutcome where
  | archived (path : String)
  | canceled
  | raised (reason : String)
  deriving DecidableEq

inductive JobRequest where
  | absent
  | cancel (job : Nat) (loaded : TrainerJobStatus)
  | delete (job : Nat) (loaded : TrainerJobStatus)
  /-- The status in the answer, or `none` for `404`. -/
  | answered (status : Option TrainerJobStatus)
  deriving DecidableEq

structure QueueManager where
  store : Nat → Option JobRow := fun _ => none
  created : Nat := 0
  active : List ActiveJob := []
  cancelRequested : List Nat := []
  stopped : Bool := false
  requests : Nat → JobRequest := fun _ => .absent

inductive QueueEvent where
  | submitted (spec : TrainingJobSpec) (createdAt : Nat)
  | datasetReady (job : Nat)
  | dispatched (telemetry : List Nat)
  | refreshed (telemetry : List Nat)
  | started (job : Nat)
  | reported (job : Nat) (progress : Int) (message : Option String)
  | ended (job : Nat) (outcome : RunOutcome)
  | cancelLoaded (request job : Nat)
  | cancelHandled (request : Nat)
  | deleteLoaded (request job : Nat)
  | deleteHandled (request : Nat)
  | stopRequested
  | shutdown
  | restarted
  deriving DecidableEq

namespace QueueManager

def update (job : Nat) (change : JobRow → JobRow) (manager : QueueManager) : QueueManager :=
  { manager with store := Function.update manager.store job ((manager.store job).map change) }

def setStatus (status : TrainerJobStatus) (message : String) (row : JobRow) : JobRow :=
  { row with status := status, message := message }

def answer (request : Nat) (manager : QueueManager) (status : Option TrainerJobStatus) : QueueManager :=
  { manager with requests := Function.update manager.requests request (.answered status) }

def status (manager : QueueManager) (job : Nat) : Option TrainerJobStatus := (manager.store job).map JobRow.status

def createdAt (manager : QueueManager) (job : Nat) : Nat := ((manager.store job).map JobRow.createdAt).getD 0

def queued (manager : QueueManager) : List Nat :=
  ((List.range manager.created).filter fun job => manager.status job = some .queued).insertionSort fun a b =>
    manager.createdAt a ≤ manager.createdAt b

def markDatasetReady (job : Nat) (manager : QueueManager) : QueueManager :=
  manager.update job fun row => if row.status = .awaitingDataset then setStatus .queued "Queued" row else row

def requestCancel (job : Nat) (manager : QueueManager) : QueueManager :=
  let flagged := { manager with cancelRequested := job :: manager.cancelRequested }
  if manager.status job = some .queued ∨ manager.status job = some .awaitingDataset then
    flagged.update job (setStatus .canceled "Canceled before start")
  else flagged

def device (manager : QueueManager) (job : Nat) : Option TrainingDevice :=
  (manager.store job).bind fun row => row.spec.device

def Reserved (manager : QueueManager) (device : Option TrainingDevice) : Prop :=
  device = none ∧ manager.active ≠ [] ∨ ∃ other ∈ manager.active, other.device = none ∨ other.device = device

instance (manager : QueueManager) (device : Option TrainingDevice) : Decidable (manager.Reserved device) :=
  inferInstanceAs (Decidable (_ ∨ _))

def waitingMessage (device : Option TrainingDevice) (reserved busy : Bool) : String :=
  if busy then
    match device with
    | some device => "Waiting for " ++ device.type.toUpper ++ " " ++ toString device.index ++ " to become available"
    | none =>
      if reserved then "Waiting for a training slot to become available"
      else "Waiting for a GPU to become available"
  else "Queued"

/-- One turn of `_next_runnable`, for a job whose GPU is busy by the telemetry or is not. -/
def scan (telemetry : List Nat) (found : QueueManager × Option (Nat × Option TrainingDevice)) (job : Nat) :
    QueueManager × Option (Nat × Option TrainingDevice) :=
  let (manager, next) := found
  let device := manager.device job
  let reserved : Bool := manager.Reserved device
  let busy : Bool := reserved ∨ job ∈ telemetry
  (manager.update job fun row =>
      if row.status = .queued then { row with message := waitingMessage device reserved busy } else row,
    if busy = false ∧ next = none then some (job, device) else next)

def nextRunnable (telemetry : List Nat) (manager : QueueManager) :
    QueueManager × Option (Nat × Option TrainingDevice) :=
  manager.queued.foldl (scan telemetry) (manager, none)

/-- A job is taken off the queue and its task is created. -/
def start (job : Nat) (device : Option TrainingDevice) (manager : QueueManager) : QueueManager :=
  let running := manager.update job fun row => { setStatus .running "Starting" row with progress := 0 }
  { running with active := running.active ++ [{ job := job, device := device }] }

def finish (flagged : Bool) (outcome : RunOutcome) (row : JobRow) : JobRow :=
  match outcome with
  | .archived path =>
    if flagged then setStatus .canceled "Canceled" row
    else { setStatus .completed "Training finished" row with progress := 100, artifact := some path }
  | .canceled => setStatus .canceled "Canceled" row
  | .raised reason => setStatus (if flagged then .canceled else .failed) ("Training failed: " ++ reason) row

/-- The `finally` of a run. -/
def release (job : Nat) (manager : QueueManager) : QueueManager :=
  { manager with
    cancelRequested := manager.cancelRequested.filter (· ≠ job)
    active := manager.active.filter fun other => other.job ≠ job }

def finished (job : Nat) (outcome : RunOutcome) (manager : QueueManager) : QueueManager :=
  (manager.update job (finish (decide (job ∈ manager.cancelRequested)) outcome)).release job

def resetOrphan (row : JobRow) : JobRow :=
  match row.status with
  | .running => setStatus .failed "Aborted on trainer restart" row
  | .awaitingDataset => setStatus .failed "Dataset upload never completed" row
  | _ => row

def restart (manager : QueueManager) : QueueManager :=
  { manager with
    store := fun job => (manager.store job).map resetOrphan
    active := []
    cancelRequested := []
    stopped := false
    requests := fun request => if manager.requests request = .absent then .absent else .answered none }

/-- One step, where at most `limit` jobs may run at a time. -/
def step (limit : Nat) (manager : QueueManager) : QueueEvent → Option QueueManager
  | .submitted spec createdAt =>
    some { manager with
      store := Function.update manager.store manager.created (some { spec := spec, createdAt := createdAt })
      created := manager.created + 1 }
  | .datasetReady job => some (manager.markDatasetReady job)
  | .dispatched telemetry =>
    if manager.stopped = false ∧ manager.active.length < limit then
      match manager.nextRunnable telemetry with
      | (scanned, none) => some scanned
      | (scanned, some (job, device)) =>
        if scanned.status job = some .queued then some (scanned.start job device) else some scanned
    else none
  | .refreshed telemetry =>
    if manager.stopped = false ∧ limit ≤ manager.active.length then some (manager.nextRunnable telemetry).1 else none
  | .started job =>
    match manager.active.find? fun other => other.job = job ∧ other.phase = .created with
    | some _ =>
      match manager.store job with
      | none => some (manager.release job)
      | some _ =>
        some { manager with
          active := manager.active.map fun other => if other.job = job then { other with phase := .training } else other }
    | none => none
  | .reported job progress message =>
    if ∃ other ∈ manager.active, other.job = job ∧ other.phase = .training then
      some (manager.update job fun row =>
        { row with progress := (max 0 (min 100 progress)).toNat, message := message.getD row.message })
    else none
  | .ended job outcome =>
    if (∃ other ∈ manager.active, other.job = job ∧ other.phase = .training) ∧
        (outcome = .canceled → job ∈ manager.cancelRequested ∨ manager.stopped = true) then
      some (manager.finished job outcome)
    else none
  | .cancelLoaded request job =>
    if manager.requests request = .absent then
      match manager.status job with
      | none => some (manager.answer request none)
      | some loaded => some { manager with requests := Function.update manager.requests request (.cancel job loaded) }
    else none
  -- The handler goes by the status it loaded, `request_cancel` by the row.
  | .cancelHandled request =>
    match manager.requests request with
    | .cancel job loaded =>
      let canceled := if loaded.Terminal then manager else manager.requestCancel job
      some (canceled.answer request (canceled.status job))
    | _ => none
  | .deleteLoaded request job =>
    if manager.requests request = .absent then
      match manager.status job with
      | none => some (manager.answer request none)
      | some loaded => some { manager with requests := Function.update manager.requests request (.delete job loaded) }
    else none
  | .deleteHandled request =>
    match manager.requests request with
    | .delete job loaded =>
      if loaded.Terminal then
        some ({ manager with store := Function.update manager.store job none }.answer request (some loaded))
      else some (manager.answer request (some loaded))
    | _ => none
  | .stopRequested => some { manager with stopped := true }
  | .shutdown =>
    if manager.stopped = true then
      some { manager with cancelRequested := manager.active.map ActiveJob.job ++ manager.cancelRequested }
    else none
  | .restarted => some manager.restart

/-- A run that has ended leaves a status in which the job has ended. -/
theorem finish_terminal {flagged : Bool} {outcome : RunOutcome} {row : JobRow} :
    (finish flagged outcome row).status.Terminal := by
  cases outcome <;> cases flagged <;> simp [finish, setStatus, TrainerJobStatus.Terminal]

theorem resetOrphan_status {row : JobRow} : (resetOrphan row).status =
    if row.status = .running ∨ row.status = .awaitingDataset then .failed else row.status := by
  cases status : row.status <;> simp [resetOrphan, status, setStatus]

end QueueManager

/-- The queue of a trainer without jobs. -/
def jobQueue (limit : Nat) : System QueueManager QueueEvent where
  initial := {}
  step := QueueManager.step limit

end PhysicalAiStudio.Trainer
