import PhysicalAiStudio.Concurrency.Transition
import PhysicalAiStudio.Jobs.Repository

/-! One training job: its row, the requests to interrupt it, the scheduler and its workers.

The scheduler thread starts a process for the job, reaps it when it is dead, and reconciles
the row of a job without a process. A process claims the job, prepares and trains it, and
writes how it ended; a dispatcher thread writes the progress beside it. The processes of an
API process have ended when the next one starts.
-/

set_option autoImplicit false

namespace PhysicalAiStudio.Jobs

open Concurrency

inductive TrainingTarget where
  | local
  | remote
  deriving DecidableEq

structure TrainPayload where
  trainingTarget : TrainingTarget := .local
  /-- `remote_trainer_url` starts with `aws-batch://`. -/
  awsBatch : Bool := false
  remoteJobId : Option Nat := none
  snapshotId : Option Nat := none
  authenticationIssue : Option Nat := none
  cancelRequested : Option Bool := none
  deriving DecidableEq

/-- Why a worker cancels its job. -/
inductive Cause where
  | event
  | requested
  | reported
  /-- Training has returned while the application stops. -/
  | stopped
  deriving DecidableEq

inductive Outcome where
  | completed
  | failed
  | suspended
  | canceled (cause : Cause)
  deriving DecidableEq

/-- The status that a worker writes at its end. -/
def Outcome.status : Outcome → JobStatus
  | .completed => .completed
  | .failed => .failed
  | .suspended => .pending
  | .canceled _ => .canceled

inductive WorkerPhase where
  | absent
  | spawned
  | claimed
  | loaded (reattaching : Bool)
  | prepared
  | starting (read : Row TrainPayload)
  | training
  | persisting (copied : JobStatus)
  | persistingRead (copied : JobStatus) (read : Row TrainPayload)
  | finishing (outcome : Outcome)
  | concluded
  | dead
  deriving DecidableEq

structure Worker where
  phase : WorkerPhase := .absent
  /-- The cancel event that the scheduler has given it. -/
  event : Nat := 0
  payload : TrainPayload := {}
  /-- Its dispatcher thread is alive. -/
  dispatching : Bool := false

inductive SchedulerPhase where
  | idle
  | listed
  | reaping (reattaching fails : Bool)
  | recovering (requeue : Bool)
  | sweeping
  deriving DecidableEq

/-- How far a call of `interrupt_job` is. -/
inductive Interrupt where
  | absent
  | loaded (job : Row TrainPayload)
  | transitioning
  | signalling
  | signalled (event : Nat)
  | concluded
  deriving DecidableEq

structure TrainingJob where
  row : Row TrainPayload
  workers : Nat → Worker := fun _ => {}
  interrupts : Nat → Interrupt := fun _ => .absent
  scheduler : SchedulerPhase := .idle
  process : Option Nat := none
  /-- The job's entry in `_cancel_events`, and the events that are set. -/
  cancelEvent : Option Nat := none
  events : Nat → Bool := fun _ => false
  eventCount : Nat := 0
  stopping : Bool := false

inductive TrainingEvent where
  | listed
  | listEnded
  | started (worker : Nat)
  | startFailed (worker : Nat)
  | reapLoaded
  | reapFailed
  | reaped
  | recoverLoaded
  | recoverWritten
  | sweepLoaded
  | swept
  | stopRequested
  | shutdown
  | restarted
  | stoppedEarly (worker : Nat)
  | claimed (worker : Nat)
  | loaded (worker : Nat)
  | prepared (worker snapshot : Nat)
  | startRead (worker : Nat)
  | startWritten (worker : Nat)
  | progressed (worker : Nat)
  | authenticationReported (worker : Nat) (issue : Option Nat)
  | remoteJobPersisted (worker remoteJob : Nat)
  | persistCopied (worker remoteJob : Nat)
  | persistRead (worker : Nat)
  | persistWritten (worker : Nat)
  | trained (worker : Nat) (outcome : Outcome)
  | finalWritten (worker : Nat)
  | dispatcherEnded (worker : Nat)
  | died (worker : Nat)
  | interruptLoaded (request : Nat)
  | cancelPersisted (request : Nat)
  | interruptChecked (request : Nat)
  | cancelTransitioned (request : Nat)
  | eventFetched (request : Nat)
  | eventSet (request : Nat)
  deriving DecidableEq

namespace TrainPayload

/-- A remote job whose trainer job is known, which a worker can join again. -/
def Reattachable (payload : TrainPayload) : Prop :=
  payload.trainingTarget = .remote ∧ payload.remoteJobId ≠ none

instance (payload : TrainPayload) : Decidable payload.Reattachable :=
  inferInstanceAs (Decidable (_ ∧ _))

/-- The jobs whose cancellation is also kept in the payload. -/
def KeepsRequest (payload : TrainPayload) : Prop :=
  payload.trainingTarget = .remote ∧ payload.awsBatch = true

instance (payload : TrainPayload) : Decidable payload.KeepsRequest :=
  inferInstanceAs (Decidable (_ ∧ _))

end TrainPayload

namespace TrainingJob

def setWorker (position : Nat) (worker : Worker) (job : TrainingJob) : TrainingJob :=
  { job with workers := Function.update job.workers position worker }

def setInterrupt (position : Nat) (request : Interrupt) (job : TrainingJob) : TrainingJob :=
  { job with interrupts := Function.update job.interrupts position request }

def updateJobStatus (status : JobStatus) (job : TrainingJob) : TrainingJob :=
  { job with row := { job.row with status := status } }

def updatePayload (payload : TrainPayload) (job : TrainingJob) : TrainingJob :=
  { job with row := { job.row with payload := payload } }

def setdefaultEvent (job : TrainingJob) : TrainingJob × Nat :=
  match job.cancelEvent with
  | some event => (job, event)
  | none => ({ job with cancelEvent := some job.eventCount, eventCount := job.eventCount + 1 }, job.eventCount)

def EndsWith (job : TrainingJob) (worker : Worker) : Outcome → Prop
  | .completed => job.stopping = false ∧ job.events worker.event = false
  | .failed => True
  | .suspended => worker.payload.trainingTarget = .remote ∧ job.stopping = true
  | .canceled .event => job.events worker.event = true
  | .canceled .requested => worker.payload.cancelRequested = some true
  | .canceled .reported => worker.payload.trainingTarget = .remote
  | .canceled .stopped => job.stopping = true

instance (job : TrainingJob) (worker : Worker) : (outcome : Outcome) → Decidable (job.EndsWith worker outcome)
  | .completed => inferInstanceAs (Decidable (_ ∧ _))
  | .failed => inferInstanceAs (Decidable True)
  | .suspended => inferInstanceAs (Decidable (_ ∧ _))
  | .canceled .event | .canceled .requested | .canceled .reported | .canceled .stopped =>
    inferInstanceAs (Decidable (_ = _))

/-- The conditional update of `transition_pending_train_job` to canceled. -/
def CancelsPending (row : Row TrainPayload) : Prop :=
  row.status = .pending ∧ (row.payload.trainingTarget ≠ .remote ∨ row.payload.remoteJobId = none)

instance (row : Row TrainPayload) : Decidable (CancelsPending row) :=
  inferInstanceAs (Decidable (_ ∧ (_ ∨ _)))

def stepScheduler (job : TrainingJob) : TrainingEvent → Option TrainingJob
  -- `_schedule_jobs` starts what it has listed before, whatever became of it since.
  | .listed =>
    if job.scheduler = .idle ∧ job.row.status = .pending then some { job with scheduler := .listed } else none
  | .listEnded => if job.scheduler = .listed then some { job with scheduler := .idle } else none
  | .started position =>
    if job.scheduler = .listed ∧ job.process = none ∧ job.stopping = false ∧
        (job.workers position).phase = .absent then
      let (fetched, event) := job.setdefaultEvent
      some ({ fetched with process := some position, scheduler := .idle }.setWorker position
        { phase := .spawned, event := event })
    else none
  -- The reservation stays when the start fails, so that the next reap finds the process dead.
  | .startFailed position =>
    if job.scheduler = .listed ∧ job.process = none ∧ job.stopping = false ∧
        (job.workers position).phase = .absent then
      let (fetched, event) := job.setdefaultEvent
      some ({ fetched with process := some position, scheduler := .idle }.setWorker position
        { phase := .dead, event := event })
    else none
  -- One read of the row settles all that `_reap_processes` does with the job.
  | .reapLoaded =>
    match job.process with
    | some position =>
      if job.scheduler = .idle ∧ (job.workers position).phase = .dead then
        let reattaching : Bool :=
          (job.row.status = .pending ∨ job.row.status = .running) ∧ job.row.payload.Reattachable
        let fails : Bool := job.row.status = .pending ∧ reattaching = false ∧ job.stopping = false
        some { job with scheduler := .reaping reattaching fails }
      else none
    | none => none
  | .reapFailed =>
    match job.scheduler with
    | .reaping reattaching true =>
      some ({ job with scheduler := .reaping reattaching false }.updateJobStatus .failed)
    | _ => none
  | .reaped =>
    match job.scheduler with
    | .reaping reattaching false =>
      some { job with
        cancelEvent := if reattaching then job.cancelEvent else none
        process := none
        scheduler := .idle }
    | _ => none
  -- `abort_orphan_jobs`: a job whose trainer job is known waits again, any other one fails.
  | .recoverLoaded =>
    if job.scheduler = .idle ∧ job.process = none ∧ job.row.status = .running then
      some { job with scheduler := .recovering (decide job.row.payload.Reattachable) }
    else none
  | .recoverWritten =>
    match job.scheduler with
    | .recovering requeue =>
      some ({ job with scheduler := .idle }.updateJobStatus (if requeue then .pending else .failed))
    | _ => none
  -- The end of `_reap_processes` drops the cancel events of jobs that are over.
  | .sweepLoaded =>
    if job.scheduler = .idle ∧ job.process = none ∧ job.cancelEvent ≠ none ∧ job.row.status.Finished then
      some { job with scheduler := .sweeping }
    else none
  | .swept => if job.scheduler = .sweeping then some { job with scheduler := .idle, cancelEvent := none } else none
  | .stopRequested => some { job with stopping := true }
  | .shutdown =>
    if job.scheduler = .idle ∧ job.stopping = true then
      some { job with
        process := none
        cancelEvent := none
        workers := fun position => match (job.workers position).phase with
          | .absent => job.workers position
          | _ => { job.workers position with phase := .dead, dispatching := false } }
    else none
  | .restarted =>
    if job.scheduler = .idle ∧ job.stopping = true ∧ job.process = none then
      some { job with
        stopping := false
        cancelEvent := none
        interrupts := fun request => if job.interrupts request = .absent then .absent else .concluded }
    else none
  | _ => none

def stepWorker (job : TrainingJob) : TrainingEvent → Option TrainingJob
  | .stoppedEarly position =>
    let worker := job.workers position
    if worker.phase = .spawned ∧ job.stopping = true then some (job.setWorker position { worker with phase := .concluded })
    else none
  -- `transition_pending_train_job`, one conditional update.
  | .claimed position =>
    let worker := job.workers position
    if worker.phase = .spawned then
      if job.row.status = .pending then
        some ((job.updateJobStatus .running).setWorker position { worker with phase := .claimed })
      else some (job.setWorker position { worker with phase := .concluded })
    else none
  | .loaded position =>
    let worker := job.workers position
    if worker.phase = .claimed then
      some (job.setWorker position { worker with
        payload := job.row.payload
        phase := .loaded (decide job.row.payload.Reattachable) })
    else none
  | .prepared position snapshot =>
    let worker := job.workers position
    match worker.phase with
    | .loaded true => some (job.setWorker position { worker with phase := .prepared })
    | .loaded false =>
      some (job.setWorker position { worker with
        phase := .prepared
        payload := { worker.payload with snapshotId := some snapshot } })
    | _ => none
  -- The update to RUNNING merges the copy loaded at the claim into the row.
  | .startRead position =>
    let worker := job.workers position
    if worker.phase = .prepared then some (job.setWorker position { worker with phase := .starting job.row }) else none
  | .startWritten position =>
    let worker := job.workers position
    match worker.phase with
    | .starting read =>
      some ({ job with row := Row.merge read ⟨.running, worker.payload⟩ job.row }.setWorker position
        { worker with phase := .training, dispatching := true })
    | _ => none
  -- The dispatcher sets RUNNING whatever the row says.
  | .progressed position =>
    if (job.workers position).dispatching then some (job.updateJobStatus .running) else none
  -- `json_set` on the row itself: nothing read before is written back.
  | .authenticationReported position issue =>
    let worker := job.workers position
    if worker.phase = .training ∧ worker.payload.trainingTarget = .remote then
      some ((job.updatePayload { job.row.payload with authenticationIssue := issue }).setWorker position
        { worker with payload := { worker.payload with authenticationIssue := issue } })
    else none
  | .remoteJobPersisted position remoteJob =>
    let worker := job.workers position
    if worker.phase = .training ∧ worker.payload.KeepsRequest then
      some ((job.updatePayload { job.row.payload with
          remoteJobId := some remoteJob
          snapshotId := worker.payload.snapshotId.or job.row.payload.snapshotId }).setWorker position
        { worker with payload := { worker.payload with remoteJobId := some remoteJob } })
    else none
  -- Off AWS Batch the id of the trainer job is written with the whole payload of the worker.
  | .persistCopied position remoteJob =>
    let worker := job.workers position
    if worker.phase = .training ∧ worker.payload.trainingTarget = .remote ∧ worker.payload.awsBatch = false then
      some (job.setWorker position { worker with
        phase := .persisting job.row.status
        payload := { worker.payload with remoteJobId := some remoteJob } })
    else none
  | .persistRead position =>
    let worker := job.workers position
    match worker.phase with
    | .persisting copied => some (job.setWorker position { worker with phase := .persistingRead copied job.row })
    | _ => none
  | .persistWritten position =>
    let worker := job.workers position
    match worker.phase with
    | .persistingRead copied read =>
      some ({ job with row := Row.merge read ⟨copied, worker.payload⟩ job.row }.setWorker position
        { worker with phase := .training })
    | _ => none
  | .trained position outcome =>
    let worker := job.workers position
    if worker.phase = .training ∧ job.EndsWith worker outcome then
      some (job.setWorker position { worker with phase := .finishing outcome })
    else none
  | .finalWritten position =>
    let worker := job.workers position
    match worker.phase with
    | .finishing outcome =>
      some ((job.updateJobStatus outcome.status).setWorker position { worker with phase := .concluded })
    | _ => none
  | .dispatcherEnded position =>
    let worker := job.workers position
    match worker.phase with
    | .finishing _ | .concluded => some (job.setWorker position { worker with dispatching := false })
    | _ => none
  -- A process takes its dispatcher with it.
  | .died position =>
    let worker := job.workers position
    if worker.phase = .absent then none
    else some (job.setWorker position { worker with phase := .dead, dispatching := false })
  | _ => none

def stepInterrupt (job : TrainingJob) : TrainingEvent → Option TrainingJob
  | .interruptLoaded request =>
    if job.interrupts request = .absent then some (job.setInterrupt request (.loaded job.row)) else none
  -- A job on AWS Batch keeps the request in its payload, and is left to its worker if it has one.
  | .cancelPersisted request =>
    match job.interrupts request with
    | .loaded loaded =>
      if (loaded.status = .pending ∨ loaded.status = .running) ∧ loaded.payload.KeepsRequest then
        let persisted := job.updatePayload { job.row.payload with cancelRequested := some true }
        if loaded.payload.remoteJobId ≠ none ∨ loaded.status = .running then
          some (persisted.setInterrupt request .signalling)
        else some (persisted.setInterrupt request .transitioning)
      else none
    | _ => none
  | .interruptChecked request =>
    match job.interrupts request with
    | .loaded loaded =>
      if (loaded.status = .pending ∨ loaded.status = .running) ∧ loaded.payload.KeepsRequest then none
      else if loaded.status.Finished then some (job.setInterrupt request .concluded)
      else some (job.setInterrupt request .transitioning)
    | _ => none
  -- `cancel_pending_train_job`; a job that is claimed, or has a trainer job, is left to its worker.
  | .cancelTransitioned request =>
    if job.interrupts request = .transitioning then
      if CancelsPending job.row then some ((job.updateJobStatus .canceled).setInterrupt request .concluded)
      else some (job.setInterrupt request .signalling)
    else none
  | .eventFetched request =>
    if job.interrupts request = .signalling then
      let (fetched, event) := job.setdefaultEvent
      some (fetched.setInterrupt request (.signalled event))
    else none
  | .eventSet request =>
    match job.interrupts request with
    | .signalled event =>
      some ({ job with events := Function.update job.events event true }.setInterrupt request .concluded)
    | _ => none
  | _ => none

def step (job : TrainingJob) (event : TrainingEvent) : Option TrainingJob :=
  (job.stepScheduler event).or ((job.stepWorker event).or (job.stepInterrupt event))

variable {job : TrainingJob}

theorem setdefaultEvent_eq {fetched : TrainingJob} {cancel : Nat} (same : job.setdefaultEvent = (fetched, cancel)) :
    fetched = { job with cancelEvent := fetched.cancelEvent, eventCount := fetched.eventCount } ∧
      fetched.cancelEvent = some cancel := by
  revert same
  fun_cases setdefaultEvent job
  · next event present =>
    rintro ⟨⟩
    exact ⟨rfl, present⟩
  · rintro ⟨⟩
    exact ⟨rfl, rfl⟩

theorem setdefaultEvent_frame {fetched : TrainingJob} {cancel : Nat}
    (same : job.setdefaultEvent = (fetched, cancel)) :
    fetched.row = job.row ∧ (∀ i, fetched.workers i = job.workers i) ∧
      (∀ i, fetched.interrupts i = job.interrupts i) ∧ fetched.process = job.process ∧
      fetched.scheduler = job.scheduler ∧ fetched.cancelEvent = some cancel := by
  obtain ⟨only, fetchedEvent⟩ := setdefaultEvent_eq same
  rw [only]
  exact ⟨rfl, fun i => rfl, fun i => rfl, rfl, rfl, fetchedEvent⟩

theorem setWorker_workers {position i : Nat} {worker : Worker} :
    (job.setWorker position worker).workers i = if i = position then worker else job.workers i := by
  simp only [setWorker, Function.update_apply]

end TrainingJob

def trainingJob (payload : TrainPayload) : System TrainingJob TrainingEvent where
  initial := { row := ⟨.pending, payload⟩ }
  step := TrainingJob.step

end PhysicalAiStudio.Jobs
