import PhysicalAiStudio.Concurrency.Transition
import PhysicalAiStudio.Jobs.Repository

/-! One dataset import job: its row, its staged archive, the requests on it, the scheduler and its workers.

An upload stores the archive and queues the job for detection, whose worker ends before the
user's review. The review finalizes the job, which queues it again, or cancels it. A worker
takes its step from the row that it loads, and writes its payload at each turn.
-/

set_option autoImplicit false

namespace PhysicalAiStudio.Jobs

open Concurrency

inductive ImportStep where
  | awaitingArchiveUpload
  | queuedForDetection
  | detectingFormat
  | buildingManifestDraft
  | awaitingUserReview
  | queuedForImport
  | importingDataset
  | completed
  deriving DecidableEq

/-- The steps in which a pending job is claimed. -/
def ImportStep.Queued (step : ImportStep) : Prop := step = .queuedForDetection ∨ step = .queuedForImport

instance (step : ImportStep) : Decidable step.Queued := inferInstanceAs (Decidable (_ ∨ _))

structure ImportPayload where
  step : ImportStep := .awaitingArchiveUpload
  uploadedArchiveName : Option Nat := none
  manifestDraft : Option Nat := none
  validationReport : Option Nat := none
  finalizeInput : Option Nat := none
  resultDatasetId : Option Nat := none
  deriving DecidableEq

inductive ImportWrite where
  | detecting
  | drafting
  | reviewing
  | importing
  | completed
  | failed
  deriving DecidableEq

namespace ImportWrite

def status : ImportWrite → JobStatus
  | .detecting | .drafting | .importing => .running
  | .reviewing => .pending
  | .completed => .completed
  | .failed => .failed

def Follows (step : ImportStep) : ImportWrite → Prop
  | .detecting => step = .queuedForDetection
  | .drafting => step = .detectingFormat
  | .reviewing => step = .buildingManifestDraft
  | .importing => step = .queuedForImport
  | .completed => step = .importingDataset
  | .failed => step ≠ .importingDataset

instance (step : ImportStep) : (write : ImportWrite) → Decidable (write.Follows step)
  | .detecting | .drafting | .reviewing | .importing | .completed => inferInstanceAs (Decidable (_ = _))
  | .failed => inferInstanceAs (Decidable (_ ≠ _))

def prepare (content : Nat) (report : Option Nat) (payload : ImportPayload) : ImportWrite → ImportPayload
  | .detecting => { payload with step := .detectingFormat }
  | .drafting => { payload with step := .buildingManifestDraft }
  | .reviewing =>
    { payload with step := .awaitingUserReview, manifestDraft := some content, validationReport := report }
  | .importing => { payload with step := .importingDataset }
  | .completed => { payload with step := .completed, resultDatasetId := some content }
  | .failed => { payload with validationReport := report }

/-- The commit deletes the archive whatever becomes of these writes. -/
def InCommit (write : ImportWrite) : Prop := write = .importing ∨ write = .completed

instance (write : ImportWrite) : Decidable write.InCommit := inferInstanceAs (Decidable (_ ∨ _))

end ImportWrite

inductive ImportWorkerPhase where
  | absent
  | spawned
  | working
  | writing (write : ImportWrite)
  | writingRead (write : ImportWrite) (read : Row ImportPayload)
  /-- It deletes the archive, after the commit has failed or after its last write. -/
  | cleaning (commitFailed : Bool)
  | concluded
  | dead
  deriving DecidableEq

def ImportWrite.phaseAfter : ImportWrite → ImportWorkerPhase
  | .detecting | .drafting | .importing => .working
  | .reviewing => .concluded
  | .completed | .failed => .cleaning false

structure ImportWorker where
  phase : ImportWorkerPhase := .absent
  payload : ImportPayload := {}

inductive ImportSchedulerPhase where
  | idle
  | selected
  | claimed
  | recovering
  deriving DecidableEq

/-- The requests that write back the job they have loaded. -/
inductive MergeKind where
  | attach
  | finalize
  | cancel
  deriving DecidableEq

def MergeKind.status : MergeKind → JobStatus
  | .attach | .finalize => .pending
  | .cancel => .canceled

inductive ImportRequest where
  | absent
  | uploading
  | stored
  | merging (kind : MergeKind) (loaded : Row ImportPayload) (payload : ImportPayload)
  | mergingRead (kind : MergeKind) (loaded : Row ImportPayload) (payload : ImportPayload) (read : Row ImportPayload)
  | cleaning
  | interrupting
  | concluded
  deriving DecidableEq

/-- An upload that has been admitted and has not ended. -/
def ImportRequest.Uploads : ImportRequest → Prop
  | .uploading | .stored => True
  | .merging kind _ _ | .mergingRead kind _ _ _ => kind = .attach
  | .absent | .cleaning | .interrupting | .concluded => False

instance : (request : ImportRequest) → Decidable request.Uploads
  | .uploading | .stored => inferInstanceAs (Decidable True)
  | .merging _ _ _ | .mergingRead _ _ _ _ => inferInstanceAs (Decidable (_ = _))
  | .absent | .cleaning | .interrupting | .concluded => inferInstanceAs (Decidable False)

/-- What a request does after it has written the job back. -/
def MergeKind.requestAfter : MergeKind → ImportRequest
  | .attach | .finalize => .concluded
  | .cancel => .cleaning

structure ImportJob where
  row : Row ImportPayload
  archive : Option Nat := none
  /-- The upload that was admitted last. -/
  admitted : Option Nat := none
  workers : Nat → ImportWorker := fun _ => {}
  requests : Nat → ImportRequest := fun _ => .absent
  scheduler : ImportSchedulerPhase := .idle
  /-- The worker in the scheduler's process table. -/
  process : Option Nat := none
  stopping : Bool := false

inductive ImportEvent where
  | claimSelected
  | claimUpdated
  | claimDropped
  | started (worker : Nat)
  | startFailed (worker : Nat)
  | reaped
  | recoverLoaded
  | recoverWritten
  | stopRequested
  | shutdown
  | restarted
  | stoppedEarly (worker : Nat)
  | loaded (worker : Nat)
  | turned (worker : Nat) (write : ImportWrite) (content : Nat) (report : Option Nat)
  | commitFailed (worker : Nat)
  | workerRead (worker : Nat)
  | workerWritten (worker : Nat)
  | writeFailed (worker : Nat) (report : Option Nat)
  | archiveCleaned (worker : Nat) (report : Option Nat)
  | died (worker : Nat)
  | uploadLoaded (request : Nat)
  | archiveStored (request : Nat)
  | archiveRejected (request : Nat)
  | uploadFailed (request : Nat)
  | attachLoaded (request name : Nat)
  | finalizeLoaded (request input : Nat)
  | cancelLoaded (request : Nat)
  | requestRead (request : Nat)
  | requestWritten (request : Nat)
  | requestCleaned (request : Nat)
  | interruptLoaded (request : Nat)
  | interruptWritten (request : Nat)
  deriving DecidableEq

namespace ImportJob

def setWorker (position : Nat) (worker : ImportWorker) (job : ImportJob) : ImportJob :=
  { job with workers := Function.update job.workers position worker }

def setRequest (position : Nat) (request : ImportRequest) (job : ImportJob) : ImportJob :=
  { job with requests := Function.update job.requests position request }

def updateJobStatus (status : JobStatus) (job : ImportJob) : ImportJob :=
  { job with row := { job.row with status := status } }

/-- `claim_pending_dataset_import_job` selects and updates such a job. -/
def Claimable (row : Row ImportPayload) : Prop := row.status = .pending ∧ row.payload.step.Queued

instance (row : Row ImportPayload) : Decidable (Claimable row) := inferInstanceAs (Decidable (_ ∧ _))

def stepScheduler (job : ImportJob) : ImportEvent → Option ImportJob
  -- `claim_pending_dataset_import_job`: the job is selected, and updated only if it is claimable still.
  | .claimSelected =>
    if job.scheduler = .idle ∧ job.process = none ∧ job.stopping = false ∧ Claimable job.row then
      some { job with scheduler := .selected }
    else none
  | .claimUpdated =>
    if job.scheduler = .selected then
      if Claimable job.row then some ({ job with scheduler := .claimed }.updateJobStatus .running)
      else some { job with scheduler := .claimed }
    else none
  -- The claim raises, or the stop event is set before the worker is started.
  | .claimDropped =>
    if job.scheduler = .selected ∨ job.scheduler = .claimed then some { job with scheduler := .idle } else none
  | .started position =>
    if job.scheduler = .claimed ∧ job.stopping = false ∧ (job.workers position).phase = .absent then
      some ({ job with process := some position, scheduler := .idle }.setWorker position { phase := .spawned })
    else none
  -- The reservation stays when the start fails, so that the next reap finds the process dead.
  | .startFailed position =>
    if job.scheduler = .claimed ∧ job.stopping = false ∧ (job.workers position).phase = .absent then
      some ({ job with process := some position, scheduler := .idle }.setWorker position { phase := .dead })
    else none
  | .reaped =>
    match job.process with
    | some position =>
      if job.scheduler = .idle ∧ (job.workers position).phase = .dead then some { job with process := none } else none
    | none => none
  -- `_recover_jobs` lists the running imports without a process, and fails them afterwards.
  | .recoverLoaded =>
    if job.scheduler = .idle ∧ job.process = none ∧ job.row.status = .running then
      some { job with scheduler := .recovering }
    else none
  | .recoverWritten =>
    if job.scheduler = .recovering then some ({ job with scheduler := .idle }.updateJobStatus .failed) else none
  | .stopRequested => some { job with stopping := true }
  | .shutdown =>
    if job.scheduler = .idle ∧ job.stopping = true then
      some { job with
        process := none
        workers := fun position => match (job.workers position).phase with
          | .absent => job.workers position
          | _ => { job.workers position with phase := .dead } }
    else none
  | .restarted =>
    if job.scheduler = .idle ∧ job.stopping = true ∧ job.process = none then
      some { job with
        stopping := false
        requests := fun request => if job.requests request = .absent then .absent else .concluded }
    else none
  | _ => none

def stepWorker (job : ImportJob) : ImportEvent → Option ImportJob
  | .stoppedEarly position =>
    let worker := job.workers position
    if worker.phase = .spawned ∧ job.stopping = true then some (job.setWorker position { worker with phase := .concluded })
    else none
  | .loaded position =>
    let worker := job.workers position
    if worker.phase = .spawned then
      if job.row.status = .running ∧ job.row.payload.step.Queued then
        some (job.setWorker position { phase := .working, payload := job.row.payload })
      else some (job.setWorker position { worker with phase := .concluded })
    else none
  -- A turn ends with an update of the row, which is a read and a write of its own.
  | .turned position write content report =>
    let worker := job.workers position
    if worker.phase = .working ∧ write.Follows worker.payload.step then
      some (job.setWorker position { phase := .writing write, payload := write.prepare content report worker.payload })
    else none
  | .commitFailed position =>
    let worker := job.workers position
    if worker.phase = .working ∧ worker.payload.step = .importingDataset then
      some (job.setWorker position { worker with phase := .cleaning true })
    else none
  -- `BaseRepository.update` reads the row, and writes back what it has merged into it.
  | .workerRead position =>
    let worker := job.workers position
    match worker.phase with
    | .writing write => some (job.setWorker position { worker with phase := .writingRead write job.row })
    | _ => none
  | .workerWritten position =>
    let worker := job.workers position
    match worker.phase with
    | .writingRead write read =>
      some ({ job with row := Row.merge read ⟨write.status, worker.payload⟩ job.row }.setWorker position
        { worker with phase := write.phaseAfter })
    | _ => none
  -- Within the commit its `finally` deletes the archive before the job is failed.
  | .writeFailed position report =>
    let worker := job.workers position
    match worker.phase with
    | .writing write | .writingRead write _ =>
      if write.InCommit then some (job.setWorker position { worker with phase := .cleaning true })
      else some (job.setWorker position
        { phase := .writing .failed, payload := { worker.payload with validationReport := report } })
    | _ => none
  | .archiveCleaned position report =>
    let worker := job.workers position
    match worker.phase with
    | .cleaning true =>
      some ({ job with archive := none }.setWorker position
        { phase := .writing .failed, payload := { worker.payload with validationReport := report } })
    | .cleaning false => some ({ job with archive := none }.setWorker position { worker with phase := .concluded })
    | _ => none
  | .died position =>
    let worker := job.workers position
    if worker.phase = .absent then none
    else some (job.setWorker position { worker with phase := .dead })
  | _ => none

def stepRequest (job : ImportJob) : ImportEvent → Option ImportJob
  | .uploadLoaded request =>
    if job.requests request = .absent then
      if job.row.payload.step = .awaitingArchiveUpload then
        some ({ job with admitted := some request }.setRequest request .uploading)
      else some (job.setRequest request .concluded)
    else none
  | .archiveStored request =>
    if job.requests request = .uploading then some ({ job with archive := some request }.setRequest request .stored)
    else none
  | .archiveRejected request =>
    if job.requests request = .stored then some ({ job with archive := none }.setRequest request .concluded) else none
  -- any other error leaves the archive as it is
  | .uploadFailed request =>
    if (job.requests request).Uploads then some (job.setRequest request .concluded) else none
  | .attachLoaded request name =>
    if job.requests request = .stored then
      if job.row.payload.step = .awaitingArchiveUpload then
        some (job.setRequest request (.merging .attach job.row
          { job.row.payload with uploadedArchiveName := some name, step := .queuedForDetection }))
      else some (job.setRequest request .concluded)
    else none
  | .finalizeLoaded request input =>
    if job.requests request = .absent then
      if job.row.payload.step = .awaitingUserReview then
        some (job.setRequest request (.merging .finalize job.row
          { job.row.payload with finalizeInput := some input, step := .queuedForImport }))
      else some (job.setRequest request .concluded)
    else none
  | .cancelLoaded request =>
    if job.requests request = .absent then
      if job.row.payload.step = .awaitingUserReview then
        some (job.setRequest request (.merging .cancel job.row job.row.payload))
      else some (job.setRequest request .concluded)
    else none
  | .requestRead request =>
    match job.requests request with
    | .merging kind loaded payload => some (job.setRequest request (.mergingRead kind loaded payload job.row))
    | _ => none
  | .requestWritten request =>
    match job.requests request with
    | .mergingRead kind _ payload read =>
      some ({ job with row := Row.merge read ⟨kind.status, payload⟩ job.row }.setRequest request
        kind.requestAfter)
    | _ => none
  | .requestCleaned request =>
    if job.requests request = .cleaning then some ({ job with archive := none }.setRequest request .concluded) else none
  | .interruptLoaded request =>
    if job.requests request = .absent then
      if job.row.status.Finished then some (job.setRequest request .concluded)
      else some (job.setRequest request .interrupting)
    else none
  | .interruptWritten request =>
    if job.requests request = .interrupting then some ((job.updateJobStatus .canceled).setRequest request .concluded)
    else none
  | _ => none

def step (job : ImportJob) (event : ImportEvent) : Option ImportJob :=
  (job.stepScheduler event).or ((job.stepWorker event).or (job.stepRequest event))

variable {job next : ImportJob} {event : ImportEvent} {position request i : Nat} {worker : ImportWorker}
  {other : ImportRequest} {status : JobStatus}

theorem step_cases (stepped : job.step event = some next) :
    job.stepScheduler event = some next ∨ job.stepWorker event = some next ∨ job.stepRequest event = some next := by
  rcases Option.or_eq_some_iff.mp stepped with scheduler | ⟨-, stepped⟩
  · exact .inl scheduler
  · exact .inr ((Option.or_eq_some_iff.mp stepped).imp_right And.right)

@[grind =]
theorem setWorker_workers :
    (job.setWorker position worker).workers i = if i = position then worker else job.workers i := by
  simp only [setWorker, Function.update_apply]

@[grind =]
theorem setRequest_requests :
    (job.setRequest request other).requests i = if i = request then other else job.requests i := by
  simp only [setRequest, Function.update_apply]

@[simp, grind =]
theorem setWorker_row : (job.setWorker position worker).row = job.row := rfl

@[simp, grind =]
theorem setWorker_archive : (job.setWorker position worker).archive = job.archive := rfl

@[simp, grind =]
theorem setWorker_admitted : (job.setWorker position worker).admitted = job.admitted := rfl

@[simp, grind =]
theorem setWorker_requests : (job.setWorker position worker).requests i = job.requests i := rfl

@[simp, grind =]
theorem setWorker_scheduler : (job.setWorker position worker).scheduler = job.scheduler := rfl

@[simp, grind =]
theorem setWorker_process : (job.setWorker position worker).process = job.process := rfl

@[simp, grind =]
theorem setRequest_row : (job.setRequest request other).row = job.row := rfl

@[simp, grind =]
theorem setRequest_archive : (job.setRequest request other).archive = job.archive := rfl

@[simp, grind =]
theorem setRequest_admitted : (job.setRequest request other).admitted = job.admitted := rfl

@[simp, grind =]
theorem updateJobStatus_row : (job.updateJobStatus status).row = { job.row with status := status } := rfl

@[simp, grind =]
theorem updateJobStatus_archive : (job.updateJobStatus status).archive = job.archive := rfl

@[simp, grind =]
theorem updateJobStatus_admitted : (job.updateJobStatus status).admitted = job.admitted := rfl

@[simp, grind =]
theorem updateJobStatus_workers : (job.updateJobStatus status).workers i = job.workers i := rfl

@[simp, grind =]
theorem updateJobStatus_requests : (job.updateJobStatus status).requests i = job.requests i := rfl

@[simp, grind =]
theorem updateJobStatus_scheduler : (job.updateJobStatus status).scheduler = job.scheduler := rfl

/-- The scheduler starts and ends workers, and writes nothing but the status. -/
theorem stepScheduler_frame (stepped : job.stepScheduler event = some next) :
    next.row.payload = job.row.payload ∧
      (∀ i, next.workers i = job.workers i ∨ (next.workers i).phase = .spawned ∨ (next.workers i).phase = .dead) ∧
      (∀ i, next.requests i = job.requests i ∨ next.requests i = .concluded) ∧ next.admitted = job.admitted := by
  cases event with
  | stopRequested =>
    cases stepped
    exact ⟨rfl, fun _ => .inl rfl, fun _ => .inl rfl, rfl⟩
  | claimSelected | claimUpdated | claimDropped | started _ | startFailed _ | reaped | recoverLoaded | recoverWritten
  | shutdown | restarted =>
    simp only [stepScheduler] at stepped
    grind -linarith
  | _ => cases stepped

/-- A worker moves neither the scheduler nor a request. -/
theorem stepWorker_frame (stepped : job.stepWorker event = some next) :
    next.requests = job.requests ∧ next.scheduler = job.scheduler ∧ next.process = job.process ∧
      next.admitted = job.admitted := by
  cases event <;> simp only [stepWorker] at stepped <;> grind -linarith [setWorker]

/-- A request moves neither the scheduler nor a worker. -/
theorem stepRequest_frame (stepped : job.stepRequest event = some next) :
    next.workers = job.workers ∧ next.scheduler = job.scheduler ∧ next.process = job.process := by
  cases event <;> simp only [stepRequest] at stepped <;> grind -linarith [setRequest, updateJobStatus]

end ImportJob

def importJob : System ImportJob ImportEvent where
  initial := { row := ⟨.pending, {}⟩ }
  step := ImportJob.step

end PhysicalAiStudio.Jobs
