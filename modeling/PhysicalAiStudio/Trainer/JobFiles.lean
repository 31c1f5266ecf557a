import PhysicalAiStudio.Trainer.JobQueue

/-! What the trainer has on disk for one job.

Five paths belong to a job. The handlers of its uploads write the partial ZIP and the dataset,
the runner the cache, the model and the archive, and each removes the paths that it knows. A removal
can fail, which is logged or ignored. Only whether a path exists is told here; what an upload makes
of its body is told where uploads are.
-/

set_option autoImplicit false

namespace PhysicalAiStudio.Trainer

open Concurrency

structure JobFiles where
  /-- `datasets/<id>.zip.part` -/
  upload : Bool := false
  dataset : Bool := false
  model : Bool := false
  cache : Bool := false
  /-- `archives/<id>.zip` -/
  archive : Bool := false
  deriving DecidableEq

inductive JobPath where
  | upload
  | dataset
  | model
  | cache
  | archive
  deriving DecidableEq

namespace JobFiles

def removePath (files : JobFiles) : JobPath → JobFiles
  | .upload => { files with upload := false }
  | .dataset => { files with dataset := false }
  | .model => { files with model := false }
  | .cache => { files with cache := false }
  | .archive => { files with archive := false }

def remove (failing : List JobPath) (files : JobFiles) (path : JobPath) : JobFiles :=
  if path ∈ failing then files else files.removePath path

def cleanupUpload (failing : List JobPath) (files : JobFiles) : JobFiles :=
  [.upload, .dataset].foldl (remove failing) files

def cleanupJobOutputs (failing : List JobPath) (files : JobFiles) : JobFiles :=
  [.model, .cache].foldl (remove failing) files

end JobFiles

inductive PutPhase where
  | absent
  | admitted
  | streaming
  /-- `validate_and_extract` is on its thread, before and after it has made the directory. -/
  | validating
  | extracting
  | answered
  deriving DecidableEq

inductive UploadEnd where
  | cleaned
  /-- Its dataset is extracted, and the job is queued. -/
  | queued
  | abandoned
  deriving DecidableEq

/-- How far a run has come that ends. -/
inductive RunStage where
  /-- It has not removed the dataset. -/
  | untrained
  | trained
  /-- It has opened the archive. -/
  | archiving
  deriving DecidableEq

/-- The task of the job, and its runner on a thread or in a process. -/
inductive RunPhase where
  | idle
  | created
  | preparing
  | training
  | archiving
  | zipping
  | finished (stage : RunStage) (outcome : RunOutcome)
  deriving DecidableEq

def RunPhase.stage : RunPhase → RunStage
  | .idle | .created | .preparing | .training => .untrained
  | .archiving => .trained
  | .zipping => .archiving
  | .finished stage _ => stage

inductive DeletePhase where
  | absent
  | removing (left : List JobPath)
  | answered
  deriving DecidableEq

inductive TrainingWrite where
  | logs
  | publish
  | export
  deriving DecidableEq

def JobFiles.train (files : JobFiles) : TrainingWrite → JobFiles
  | .logs => { files with cache := true }
  | .publish => { files with cache := false, model := true }
  | .export => { files with model := true }

structure JobDisk where
  row : Option JobRow
  files : JobFiles := {}
  puts : Nat → PutPhase := fun _ => .absent
  lastUpload : Option UploadEnd := none
  run : RunPhase := .idle
  deletes : Nat → DeletePhase := fun _ => .absent
  cancelRequested : Bool := false
  stopped : Bool := false

inductive FileEvent where
  | arrived (put : Nat)
  /-- A content type, a range or an offset that is refused. -/
  | refused (put : Nat)
  | noHeadroom (put : Nat) (failing : List JobPath)
  | opened (put : Nat)
  /-- The client is gone, the body does not fill its range, or more ranges are to come; the partial ZIP stays. -/
  | streamEnded (put : Nat)
  | received (put : Nat)
  | directoryMade (put : Nat)
  | memberExtracted (put : Nat)
  /-- `ZipBombDetectedError`, `InvalidArchiveError` or `InsufficientDiskSpaceError`. -/
  | rejected (put : Nat) (failing : List JobPath)
  /-- Any other exception, also of the unlink after the extraction. -/
  | extractionFailed (put : Nat)
  | extracted (put : Nat) (failing : List JobPath)
  | cancelRequested
  | stopRequested
  | dispatched
  | runBegan
  | cacheMade
  | preparationFailed (reason : String)
  | trained (write : TrainingWrite)
  | trainingSucceeded (failing : List JobPath)
  | trainingCanceled (failing : List JobPath)
  | trainingFailed (reason : String) (failing : List JobPath)
  | archiveOpened
  | archived (path : String)
  | archivingFailed (reason : String)
  | processDied (reason : String)
  | runEnded (failing : List JobPath)
  | deleteLoaded (delete : Nat)
  | pathRemoved (delete : Nat) (path : JobPath) (failing : List JobPath)
  | deleteEnded (delete : Nat)
  /-- The unlink of the archive has raised. -/
  | deleteFailed (delete : Nat)
  | restarted
  deriving DecidableEq

namespace JobDisk

def status (disk : JobDisk) : Option TrainerJobStatus := disk.row.map JobRow.status

def setPut (put : Nat) (phase : PutPhase) (disk : JobDisk) : JobDisk :=
  { disk with puts := Function.update disk.puts put phase }

def endUpload (put : Nat) (ended : UploadEnd) (disk : JobDisk) : JobDisk :=
  { disk with lastUpload := some ended }.setPut put .answered

def setDelete (delete : Nat) (phase : DeletePhase) (disk : JobDisk) : JobDisk :=
  { disk with deletes := Function.update disk.deletes delete phase }

def updateRow (change : JobRow → JobRow) (disk : JobDisk) : JobDisk := { disk with row := disk.row.map change }

/-- `mark_dataset_ready` -/
def queueAwaiting (row : JobRow) : JobRow :=
  if row.status = .awaitingDataset then QueueManager.setStatus .queued "Queued" row else row

/-- The end of an upload that was extracted: the ZIP is unlinked, and the job is queued if it still awaits its dataset. -/
def markDatasetReady (put : Nat) (failing : List JobPath) (disk : JobDisk) : JobDisk :=
  let ready := { disk with files := disk.files.removePath .upload }.updateRow queueAwaiting
  if ready.row = none then ready.endUpload put .abandoned
  else if ready.status = some .queued then ready.endUpload put .queued
  else { ready with files := ready.files.cleanupUpload failing }.endUpload put .cleaned

def requestCancel (disk : JobDisk) : JobDisk :=
  let flagged := { disk with cancelRequested := true }
  if disk.status = some .queued ∨ disk.status = some .awaitingDataset then
    flagged.updateRow (QueueManager.setStatus .canceled "Canceled before start")
  else flagged

/-- The end of a run: the row is written, and `_cleanup_if_not_completed` looks at it. -/
def endRun (outcome : RunOutcome) (failing : List JobPath) (disk : JobDisk) : JobDisk :=
  let ended := { disk with run := .idle, cancelRequested := false }.updateRow
    (QueueManager.finish disk.cancelRequested outcome)
  if ended.row ≠ none ∧ ended.status ≠ some .completed then { ended with files := ended.files.cleanupJobOutputs failing }
  else ended

def stepPut (disk : JobDisk) : FileEvent → Option JobDisk
  | .arrived put =>
    if disk.puts put = .absent then
      some (disk.setPut put (if disk.status = some .awaitingDataset then .admitted else .answered))
    else none
  | .refused put => if disk.puts put = .admitted then some (disk.setPut put .answered) else none
  -- Want of room and a rejected archive remove the upload; a broken stream and a failing extraction leave what is there.
  | .noHeadroom put failing =>
    if disk.puts put = .admitted then
      some ({ disk with files := disk.files.cleanupUpload failing }.endUpload put .cleaned)
    else none
  | .opened put =>
    if disk.puts put = .admitted then
      some ({ disk with files := { disk.files with upload := true } }.setPut put .streaming)
    else none
  | .streamEnded put => if disk.puts put = .streaming then some (disk.endUpload put .abandoned) else none
  | .received put => if disk.puts put = .streaming then some (disk.setPut put .validating) else none
  | .directoryMade put =>
    if disk.puts put = .validating then
      some ({ disk with files := { disk.files with dataset := true } }.setPut put .extracting)
    else none
  | .memberExtracted put =>
    if disk.puts put = .extracting then some { disk with files := { disk.files with dataset := true } } else none
  | .rejected put failing =>
    if disk.puts put = .validating ∨ disk.puts put = .extracting then
      some ({ disk with files := disk.files.cleanupUpload failing }.endUpload put .cleaned)
    else none
  | .extractionFailed put =>
    if disk.puts put = .validating ∨ disk.puts put = .extracting then some (disk.endUpload put .abandoned) else none
  | .extracted put failing =>
    if disk.puts put = .extracting then some (disk.markDatasetReady put failing) else none
  | _ => none

def stepRun (disk : JobDisk) : FileEvent → Option JobDisk
  | .cancelRequested => some disk.requestCancel
  | .stopRequested => some { disk with stopped := true }
  | .dispatched =>
    if disk.status = some .queued ∧ disk.stopped = false then
      some ({ disk with run := .created }.updateRow fun (row : JobRow) =>
        { QueueManager.setStatus .running "Starting" row with progress := 0 })
    else none
  | .runBegan =>
    if disk.run = .created then
      match disk.row with
      | none => some { disk with run := .idle, cancelRequested := false }
      | some _ => some { disk with run := .preparing }
    else none
  | .cacheMade =>
    if disk.run = .preparing then some { disk with run := .training, files := { disk.files with cache := true } }
    else none
  | .preparationFailed reason =>
    if disk.run = .preparing then some { disk with run := .finished .untrained (.raised reason) } else none
  | .trained write => if disk.run = .training then some { disk with files := disk.files.train write } else none
  -- The `finally` of the runner removes the dataset before anything is archived.
  | .trainingSucceeded failing =>
    if disk.run = .training then some { disk with run := .archiving, files := disk.files.remove failing .dataset }
    else none
  | .trainingCanceled failing =>
    if disk.run = .training ∧ (disk.cancelRequested = true ∨ disk.stopped = true) then
      some { disk with run := .finished .trained .canceled, files := disk.files.remove failing .dataset }
    else none
  | .trainingFailed reason failing =>
    if disk.run = .training then
      some { disk with run := .finished .trained (.raised reason), files := disk.files.remove failing .dataset }
    else none
  | .archiveOpened =>
    if disk.run = .archiving then some { disk with run := .zipping, files := { disk.files with archive := true } }
    else none
  | .archived path =>
    if disk.run = .zipping then some { disk with run := .finished .archiving (.archived path) } else none
  | .archivingFailed reason =>
    if disk.run = .archiving ∨ disk.run = .zipping then
      some { disk with run := .finished disk.run.stage (.raised reason) }
    else none
  | .processDied reason =>
    if disk.run = .preparing ∨ disk.run = .training ∨ disk.run = .archiving ∨ disk.run = .zipping then
      some { disk with run := .finished disk.run.stage (.raised reason) }
    else none
  | .runEnded failing =>
    match disk.run with
    | .finished _ outcome => some (disk.endRun outcome failing)
    | _ => none
  | _ => none

/-- One step of a deletion, or the restart of the service, which fails the jobs that it finds unfinished. -/
def stepDelete (disk : JobDisk) : FileEvent → Option JobDisk
  | .deleteLoaded delete =>
    if disk.deletes delete = .absent then
      if ∃ loaded ∈ disk.status, loaded.Terminal then
        some (disk.setDelete delete (.removing [.model, .cache, .dataset, .archive]))
      else some (disk.setDelete delete .answered)
    else none
  -- The four paths are removed side by side.
  | .pathRemoved delete path failing =>
    match disk.deletes delete with
    | .removing left =>
      if path ∈ left then
        some ({ disk with files := disk.files.remove failing path }.setDelete delete (.removing (left.erase path)))
      else none
    | _ => none
  | .deleteEnded delete =>
    if disk.deletes delete = .removing [] then some ({ disk with row := none }.setDelete delete .answered) else none
  | .deleteFailed delete =>
    if disk.deletes delete = .removing [] then some (disk.setDelete delete .answered) else none
  -- `reset_orphans` writes the row and removes nothing.
  | .restarted =>
    some { disk with
      row := disk.row.map QueueManager.resetOrphan
      puts := fun put => if disk.puts put = .absent then .absent else .answered
      run := .idle
      deletes := fun delete => if disk.deletes delete = .absent then .absent else .answered
      cancelRequested := false
      stopped := false }
  | _ => none

def step (disk : JobDisk) (event : FileEvent) : Option JobDisk :=
  (disk.stepPut event).or ((disk.stepRun event).or (disk.stepDelete event))

end JobDisk

def jobDisk (spec : TrainingJobSpec) (createdAt : Nat) : System JobDisk FileEvent where
  initial := { row := some { spec := spec, createdAt := createdAt } }
  step := JobDisk.step

end PhysicalAiStudio.Trainer
