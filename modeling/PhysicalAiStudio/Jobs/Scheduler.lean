import PhysicalAiStudio.Jobs.ImportJob
import PhysicalAiStudio.Jobs.TargetKey

/-! The job scheduler: its thread, the processes it starts, and the rows that it reconciles.

The thread polls. It first recovers the jobs that are running without a process, then reaps
the processes that are dead and recovers after each, starts pending training jobs whose
target is free, and claims one dataset import. A process claims its job and writes it as long
as it lives. The processes of an application have ended when the next one starts. The cancel
events, which decide nothing here, are left out.
-/

set_option autoImplicit false

namespace PhysicalAiStudio.Jobs

open Concurrency

structure ScheduledJob where
  kind : JobKind := .datasetImport
  present : Bool := false
  status : JobStatus := .pending
  remoteJobId : Option Nat := none
  step : ImportStep := .awaitingArchiveUpload

inductive ProcessPhase where
  | absent
  | started
  | claimed
  | concluded
  | dead
  deriving DecidableEq

structure Process where
  phase : ProcessPhase := .absent
  job : Nat := 0

/-- An item of `Scheduler.processes`: the key, the process, and the job it was started for. -/
structure Reserved where
  target : String
  process : Nat
  job : Nat
  kind : JobKind
  deriving DecidableEq

inductive Resume where
  | reap
  | next (rest : List Reserved)
  | halt
  deriving DecidableEq

inductive Loop where
  | polling
  | recover (resume : Resume)
  | recovering (todo : List (Nat × JobStatus)) (resume : Resume)
  | recoveringImports (todo : List Nat) (resume : Resume)
  | reaping (todo : List Reserved)
  | reconciling (reserved : Reserved) (fails : Bool) (rest : List Reserved)
  | listing
  | scheduling (todo : List Nat)
  | importing
  | importSelected (job : Nat)
  | importClaimed (job : Nat)
  | halted
  deriving DecidableEq

structure Scheduler where
  jobs : Nat → ScheduledJob := fun _ => {}
  jobCount : Nat := 0
  workers : Nat → Process := fun _ => {}
  processes : List Reserved := []
  loop : Loop := .polling
  recovered : Bool := false
  stopping : Bool := false

inductive SchedulerEvent where
  | polled
  | recoverRead
  | jobRecovered
  | importsRead
  | importRecovered
  | recoverEnded
  | reapLooked
  | reapFailed
  | reapDeleted
  | reapEnded
  | pendingRead
  | skipped
  | started (process : Nat)
  | startRaised (process : Nat)
  | scheduled
  | importRead
  | importUpdated
  | importStarted (process : Nat)
  | importStartRaised (process : Nat)
  | importDropped
  | raised
  | stopRequested
  | shutdown
  | restarted
  | claimed (process : Nat)
  | wrote (process : Nat) (status : JobStatus) (remoteJob : Option Nat) (step : ImportStep)
  | exited (process : Nat)
  | submitted (kind : JobKind)
  | cancelTransitioned (job : Nat)
  | importWritten (job : Nat) (status : JobStatus) (step : ImportStep)
  | deleted (job : Nat)
  deriving DecidableEq

namespace ScheduledJob

def Training (job : ScheduledJob) : Prop := job.kind ≠ .datasetImport

instance (job : ScheduledJob) : Decidable job.Training := inferInstanceAs (Decidable (_ ≠ _))

def Reattachable (job : ScheduledJob) : Prop :=
  match job.kind with
  | .training payload => payload.trainingTarget = .remote ∧ job.remoteJobId ≠ none
  | .datasetImport => False

instance (job : ScheduledJob) : Decidable job.Reattachable := by
  unfold Reattachable
  split <;> infer_instance

def ClaimableImport (job : ScheduledJob) : Prop :=
  job.present = true ∧ job.kind = .datasetImport ∧ job.status = .pending ∧ job.step.Queued

instance (job : ScheduledJob) : Decidable job.ClaimableImport := inferInstanceAs (Decidable (_ ∧ _))

/-- What `abort_orphan_jobs` makes of a training job that runs without a process. -/
def recoveredStatus (job : ScheduledJob) : JobStatus := if job.Reattachable then .pending else .failed

end ScheduledJob

namespace Process

def Alive (process : Process) : Prop := process.phase ≠ .absent ∧ process.phase ≠ .dead

instance (process : Process) : Decidable process.Alive := inferInstanceAs (Decidable (_ ∧ _))

def killed (process : Process) : Process :=
  match process.phase with
  | .absent => process
  | _ => { process with phase := .dead }

end Process

namespace Scheduler

def updateJob (id : Nat) (change : ScheduledJob → ScheduledJob) (scheduler : Scheduler) : Scheduler :=
  { scheduler with jobs := Function.update scheduler.jobs id (change (scheduler.jobs id)) }

def updateStatus (id : Nat) (status : JobStatus) (scheduler : Scheduler) : Scheduler :=
  scheduler.updateJob id fun job => { job with status := status }

def setWorker (position : Nat) (process : Process) (scheduler : Scheduler) : Scheduler :=
  { scheduler with workers := Function.update scheduler.workers position process }

def targets (scheduler : Scheduler) : List String := scheduler.processes.map Reserved.target

def activeIds (scheduler : Scheduler) : List Nat := scheduler.processes.map Reserved.job

/-- The training jobs that run without a process, with the statuses they are to get. -/
def orphans (scheduler : Scheduler) : List (Nat × JobStatus) :=
  ((List.range scheduler.jobCount).filter fun id =>
    let job := scheduler.jobs id
    job.present = true ∧ job.Training ∧ job.status = .running ∧ id ∉ scheduler.activeIds).map
      fun id => (id, (scheduler.jobs id).recoveredStatus)

/-- The dataset imports that run without a process. -/
def orphanImports (scheduler : Scheduler) : List Nat :=
  (List.range scheduler.jobCount).filter fun id =>
    let job := scheduler.jobs id
    job.present = true ∧ ¬job.Training ∧ job.status = .running ∧ id ∉ scheduler.activeIds

/-- `get_pending_train_jobs`, in submission order. -/
def pendingTrainJobs (scheduler : Scheduler) : List Nat :=
  (List.range scheduler.jobCount).filter fun id =>
    let job := scheduler.jobs id
    job.present = true ∧ job.Training ∧ job.status = .pending

def nextImport (scheduler : Scheduler) : Option Nat :=
  (List.range scheduler.jobCount).find? fun id => (scheduler.jobs id).ClaimableImport

def startJob (id process : Nat) (phase : ProcessPhase) (scheduler : Scheduler) : Scheduler :=
  let kind := (scheduler.jobs id).kind
  let reserved : Reserved := { target := kind.target, process := process, job := id, kind := kind }
  { scheduler with processes := scheduler.processes ++ [reserved] }.setWorker process { phase := phase, job := id }

def stepLoop (scheduler : Scheduler) : SchedulerEvent → Option Scheduler
  | .polled =>
    if scheduler.loop = .polling ∧ scheduler.stopping = false then
      some { scheduler with loop := if scheduler.recovered then .reaping scheduler.processes else .recover .reap }
    else none
  -- The recovery: first the training jobs without a process, then the imports, then back to where it was called.
  | .recoverRead =>
    match scheduler.loop with
    | .recover resume => some { scheduler with loop := .recovering scheduler.orphans resume }
    | _ => none
  | .jobRecovered =>
    match scheduler.loop with
    | .recovering ((id, status) :: todo) resume =>
      if (scheduler.jobs id).present then
        some ({ scheduler with loop := .recovering todo resume }.updateStatus id status)
      else none
    | _ => none
  | .importsRead =>
    match scheduler.loop with
    | .recovering [] resume => some { scheduler with loop := .recoveringImports scheduler.orphanImports resume }
    | _ => none
  | .importRecovered =>
    match scheduler.loop with
    | .recoveringImports (id :: todo) resume =>
      if (scheduler.jobs id).present then
        some ({ scheduler with loop := .recoveringImports todo resume }.updateStatus id .failed)
      else none
    | _ => none
  | .recoverEnded =>
    match scheduler.loop with
    | .recoveringImports [] .reap => some { scheduler with recovered := true, loop := .reaping scheduler.processes }
    | .recoveringImports [] (.next rest) => some { scheduler with loop := .reaping rest }
    | .recoveringImports [] .halt => some { scheduler with loop := .halted }
    | _ => none
  -- The reaping: a process that has ended settles its job, and its row of processes goes.
  | .reapLooked =>
    match scheduler.loop with
    | .reaping (reserved :: rest) =>
      if (scheduler.workers reserved.process).Alive then some { scheduler with loop := .reaping rest }
      else
        let job := scheduler.jobs reserved.job
        let reattaching : Bool := (job.status = .pending ∨ job.status = .running) ∧ job.Reattachable
        let fails : Bool := reserved.kind ≠ .datasetImport ∧ job.present = true ∧ job.status = .pending ∧
          reattaching = false ∧ scheduler.stopping = false
        some { scheduler with loop := .reconciling reserved fails rest }
    | _ => none
  | .reapFailed =>
    match scheduler.loop with
    | .reconciling reserved true rest =>
      if (scheduler.jobs reserved.job).present then
        some ({ scheduler with loop := .reconciling reserved false rest }.updateStatus reserved.job .failed)
      else none
    | _ => none
  | .reapDeleted =>
    match scheduler.loop with
    | .reconciling reserved false rest =>
      some { scheduler with
        processes := scheduler.processes.filter fun other => other.target ≠ reserved.target
        loop := .recover (.next rest) }
    | _ => none
  | .reapEnded => if scheduler.loop = .reaping [] then some { scheduler with loop := .listing } else none
  -- The pending training jobs, each started when its target is free.
  | .pendingRead =>
    if scheduler.loop = .listing then some { scheduler with loop := .scheduling scheduler.pendingTrainJobs } else none
  | .skipped =>
    match scheduler.loop with
    | .scheduling (id :: todo) =>
      if targetIsBusy (scheduler.jobs id).kind.target scheduler.targets ∨ scheduler.stopping = true then
        some { scheduler with loop := .scheduling todo }
      else none
    | _ => none
  | .started process =>
    match scheduler.loop with
    | .scheduling (id :: todo) =>
      if targetIsBusy (scheduler.jobs id).kind.target scheduler.targets = false ∧ scheduler.stopping = false ∧
          (scheduler.workers process).phase = .absent then
        some ({ scheduler with loop := .scheduling todo }.startJob id process .started)
      else none
    | _ => none
  | .startRaised process =>
    match scheduler.loop with
    | .scheduling (id :: _) =>
      if targetIsBusy (scheduler.jobs id).kind.target scheduler.targets = false ∧ scheduler.stopping = false ∧
          (scheduler.workers process).phase = .absent then
        some ({ scheduler with loop := .polling, recovered := false }.startJob id process .dead)
      else none
    | _ => none
  | .scheduled => if scheduler.loop = .scheduling [] then some { scheduler with loop := .importing } else none
  -- One import at most, claimed by a conditional update of its row.
  | .importRead =>
    if scheduler.loop = .importing then
      if scheduler.targets.contains "dataset_import" ∨ scheduler.stopping = true then
        some { scheduler with loop := .polling }
      else match scheduler.nextImport with
        | some id => some { scheduler with loop := .importSelected id }
        | none => some { scheduler with loop := .polling }
    else none
  | .importUpdated =>
    match scheduler.loop with
    | .importSelected id =>
      if (scheduler.jobs id).ClaimableImport then
        some ({ scheduler with loop := .importClaimed id }.updateStatus id .running)
      else some { scheduler with loop := .importClaimed id }
    | _ => none
  | .importStarted process =>
    match scheduler.loop with
    | .importClaimed id =>
      if (scheduler.jobs id).present = true ∧ scheduler.stopping = false ∧
          (scheduler.workers process).phase = .absent then
        some ({ scheduler with loop := .polling }.startJob id process .started)
      else none
    | _ => none
  | .importStartRaised process =>
    match scheduler.loop with
    | .importClaimed id =>
      if (scheduler.jobs id).present = true ∧ scheduler.stopping = false ∧
          (scheduler.workers process).phase = .absent then
        some ({ scheduler with loop := .polling, recovered := false }.startJob id process .dead)
      else none
    | _ => none
  | .importDropped =>
    match scheduler.loop with
    | .importClaimed id =>
      if (scheduler.jobs id).present = false ∨ scheduler.stopping = true then
        some { scheduler with loop := .polling }
      else none
    | _ => none
  -- A failing call ends the round; the next one recovers again.
  | .raised =>
    match scheduler.loop with
    | .polling | .halted => none
    | .recover .halt | .recovering _ .halt | .recoveringImports _ .halt => some { scheduler with loop := .halted }
    | _ => some { scheduler with loop := .polling, recovered := false }
  | .stopRequested => some { scheduler with stopping := true }
  | .shutdown =>
    if scheduler.loop = .polling ∧ scheduler.stopping = true then
      some { scheduler with
        workers := fun process => (scheduler.workers process).killed
        processes := []
        loop := .recover .halt }
    else none
  | .restarted =>
    some { scheduler with
      workers := fun process => (scheduler.workers process).killed
      processes := []
      loop := .polling
      recovered := false
      stopping := false }
  | _ => none

/-- One step of a worker process, which writes what it likes once it has claimed its job. -/
def stepProcess (scheduler : Scheduler) : SchedulerEvent → Option Scheduler
  -- A training worker claims the waiting job itself; an import was claimed before the start.
  | .claimed position =>
    let process := scheduler.workers position
    let job := scheduler.jobs process.job
    if process.phase = .started then
      if job.Training then
        if job.present = true ∧ job.status = .pending then
          some ((scheduler.updateStatus process.job .running).setWorker position { process with phase := .claimed })
        else some (scheduler.setWorker position { process with phase := .concluded })
      else if job.present = true ∧ job.status = .running then
        some (scheduler.setWorker position { process with phase := .claimed })
      else some (scheduler.setWorker position { process with phase := .concluded })
    else none
  -- What a worker writes is given by its job; the loop looks at these fields only.
  | .wrote position status remoteJob step =>
    let process := scheduler.workers position
    if process.phase = .claimed ∧ (scheduler.jobs process.job).present = true then
      some (scheduler.updateJob process.job fun job =>
        { job with status := status, remoteJobId := remoteJob.or job.remoteJobId, step := step })
    else none
  | .exited position =>
    let process := scheduler.workers position
    if process.Alive then some (scheduler.setWorker position { process with phase := .dead }) else none
  | _ => none

def stepRequest (scheduler : Scheduler) : SchedulerEvent → Option Scheduler
  | .submitted kind =>
    some { scheduler with
      jobs := Function.update scheduler.jobs scheduler.jobCount { kind := kind, present := true }
      jobCount := scheduler.jobCount + 1 }
  -- `transition_pending_train_job` leaves a job alone whose trainer job is known.
  | .cancelTransitioned id =>
    let job := scheduler.jobs id
    if job.present = true ∧ job.Training ∧ job.status = .pending ∧ ¬job.Reattachable then
      some (scheduler.updateStatus id .canceled)
    else none
  | .importWritten id status step =>
    let job := scheduler.jobs id
    if job.present = true ∧ ¬job.Training ∧ (status = .pending ∨ status = .canceled) then
      some (scheduler.updateJob id fun job => { job with status := status, step := step })
    else none
  | .deleted id =>
    let job := scheduler.jobs id
    if job.present = true ∧ (job.status = .failed ∨ job.status = .canceled) then
      some (scheduler.updateJob id fun job => { job with present := false })
    else none
  | _ => none

def step (scheduler : Scheduler) (event : SchedulerEvent) : Option Scheduler :=
  (scheduler.stepLoop event).or ((scheduler.stepProcess event).or (scheduler.stepRequest event))

end Scheduler

def jobScheduler : System Scheduler SchedulerEvent where
  initial := {}
  step := Scheduler.step

end PhysicalAiStudio.Jobs
