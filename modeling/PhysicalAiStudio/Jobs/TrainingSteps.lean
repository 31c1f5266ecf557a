import PhysicalAiStudio.Jobs.TrainingJob

/-! What each step of a training job finds, and what it leaves.

Every step is listed once with its guards, and the facts that later invariants share are
read off the list: who writes the status and the payload, and who moves which worker.
-/

set_option autoImplicit false

namespace PhysicalAiStudio.Jobs

open Concurrency

namespace TrainingJob

inductive SchedulerStep (job : TrainingJob) : TrainingEvent → TrainingJob → Prop where
  | listed (idle : job.scheduler = .idle) (pending : job.row.status = .pending) :
      SchedulerStep job .listed { job with scheduler := .listed }
  | listEnded (listed : job.scheduler = .listed) : SchedulerStep job .listEnded { job with scheduler := .idle }
  | started (position : Nat) {event : Nat} {fetched : TrainingJob} (same : job.setdefaultEvent = (fetched, event))
      (listed : job.scheduler = .listed) (free : job.process = none) (serving : job.stopping = false)
      (absent : (job.workers position).phase = .absent) :
      SchedulerStep job (.started position)
        ({ fetched with process := some position, scheduler := .idle }.setWorker position
          { phase := .spawned, event := event })
  | startFailed (position : Nat) {event : Nat} {fetched : TrainingJob} (same : job.setdefaultEvent = (fetched, event))
      (listed : job.scheduler = .listed) (free : job.process = none) (serving : job.stopping = false)
      (absent : (job.workers position).phase = .absent) :
      SchedulerStep job (.startFailed position)
        ({ fetched with process := some position, scheduler := .idle }.setWorker position
          { phase := .dead, event := event })
  | reapLoaded {position : Nat} {reattaching fails : Bool} (process : job.process = some position)
      (idle : job.scheduler = .idle) (dead : (job.workers position).phase = .dead)
      (failing : fails = true → job.row.status = .pending) :
      SchedulerStep job .reapLoaded { job with scheduler := .reaping reattaching fails }
  | reapFailed {reattaching : Bool} (reaping : job.scheduler = .reaping reattaching true) :
      SchedulerStep job .reapFailed ({ job with scheduler := .reaping reattaching false }.updateJobStatus .failed)
  | reaped {reattaching : Bool} (reaping : job.scheduler = .reaping reattaching false) :
      SchedulerStep job .reaped { job with
        cancelEvent := if reattaching then job.cancelEvent else none
        process := none
        scheduler := .idle }
  | recoverLoaded (idle : job.scheduler = .idle) (free : job.process = none) (running : job.row.status = .running) :
      SchedulerStep job .recoverLoaded { job with scheduler := .recovering (decide job.row.payload.Reattachable) }
  | recoverWritten {requeue : Bool} (recovering : job.scheduler = .recovering requeue) :
      SchedulerStep job .recoverWritten
        ({ job with scheduler := .idle }.updateJobStatus (if requeue then .pending else .failed))
  | sweepLoaded (idle : job.scheduler = .idle) (free : job.process = none) (fetched : job.cancelEvent ≠ none)
      (finished : job.row.status.Finished) : SchedulerStep job .sweepLoaded { job with scheduler := .sweeping }
  | swept (sweeping : job.scheduler = .sweeping) :
      SchedulerStep job .swept { job with scheduler := .idle, cancelEvent := none }
  | stopRequested : SchedulerStep job .stopRequested { job with stopping := true }
  | shutdown (idle : job.scheduler = .idle) (stopping : job.stopping = true) :
      SchedulerStep job .shutdown { job with
        process := none
        cancelEvent := none
        workers := fun position => match (job.workers position).phase with
          | .absent => job.workers position
          | _ => { job.workers position with phase := .dead, dispatching := false } }
  | restarted (idle : job.scheduler = .idle) (stopping : job.stopping = true) (free : job.process = none) :
      SchedulerStep job .restarted { job with
        stopping := false
        cancelEvent := none
        interrupts := fun request => if job.interrupts request = .absent then .absent else .concluded }

inductive WorkerStep (job : TrainingJob) : TrainingEvent → TrainingJob → Prop where
  | stoppedEarly (position : Nat) (spawned : (job.workers position).phase = .spawned) (stopping : job.stopping = true) :
      WorkerStep job (.stoppedEarly position)
        (job.setWorker position { job.workers position with phase := .concluded })
  | claimed (position : Nat) (spawned : (job.workers position).phase = .spawned) (pending : job.row.status = .pending) :
      WorkerStep job (.claimed position)
        ((job.updateJobStatus .running).setWorker position { job.workers position with phase := .claimed })
  | claimLost (position : Nat) (spawned : (job.workers position).phase = .spawned)
      (taken : job.row.status ≠ .pending) :
      WorkerStep job (.claimed position) (job.setWorker position { job.workers position with phase := .concluded })
  | loaded (position : Nat) (claimed : (job.workers position).phase = .claimed) :
      WorkerStep job (.loaded position) (job.setWorker position { job.workers position with
        payload := job.row.payload
        phase := .loaded (decide job.row.payload.Reattachable) })
  | joined (position snapshot : Nat) (loaded : (job.workers position).phase = .loaded true) :
      WorkerStep job (.prepared position snapshot)
        (job.setWorker position { job.workers position with phase := .prepared })
  | prepared (position snapshot : Nat) (loaded : (job.workers position).phase = .loaded false) :
      WorkerStep job (.prepared position snapshot) (job.setWorker position { job.workers position with
        phase := .prepared
        payload := { (job.workers position).payload with snapshotId := some snapshot } })
  | startRead (position : Nat) (prepared : (job.workers position).phase = .prepared) :
      WorkerStep job (.startRead position)
        (job.setWorker position { job.workers position with phase := .starting job.row })
  | startWritten (position : Nat) {read : Row TrainPayload} (starting : (job.workers position).phase = .starting read) :
      WorkerStep job (.startWritten position)
        ({ job with row := Row.merge read ⟨.running, (job.workers position).payload⟩ job.row }.setWorker position
          { job.workers position with phase := .training, dispatching := true })
  | progressed (position : Nat) (dispatching : (job.workers position).dispatching = true) :
      WorkerStep job (.progressed position) (job.updateJobStatus .running)
  | authenticationReported (position : Nat) (issue : Option Nat) (training : (job.workers position).phase = .training)
      (remote : (job.workers position).payload.trainingTarget = .remote) :
      WorkerStep job (.authenticationReported position issue)
        ((job.updatePayload { job.row.payload with authenticationIssue := issue }).setWorker position
          { job.workers position with
            payload := { (job.workers position).payload with authenticationIssue := issue } })
  | remoteJobPersisted (position remoteJob : Nat) (training : (job.workers position).phase = .training)
      (keeps : (job.workers position).payload.KeepsRequest) :
      WorkerStep job (.remoteJobPersisted position remoteJob)
        ((job.updatePayload { job.row.payload with
            remoteJobId := some remoteJob
            snapshotId := (job.workers position).payload.snapshotId.or job.row.payload.snapshotId }).setWorker position
          { job.workers position with
            payload := { (job.workers position).payload with remoteJobId := some remoteJob } })
  | persistCopied (position remoteJob : Nat) (training : (job.workers position).phase = .training)
      (remote : (job.workers position).payload.trainingTarget = .remote)
      (trainer : (job.workers position).payload.awsBatch = false) :
      WorkerStep job (.persistCopied position remoteJob) (job.setWorker position { job.workers position with
        phase := .persisting job.row.status
        payload := { (job.workers position).payload with remoteJobId := some remoteJob } })
  | persistRead (position : Nat) {copied : JobStatus}
      (persisting : (job.workers position).phase = .persisting copied) :
      WorkerStep job (.persistRead position)
        (job.setWorker position { job.workers position with phase := .persistingRead copied job.row })
  | persistWritten (position : Nat) {copied : JobStatus} {read : Row TrainPayload}
      (persisting : (job.workers position).phase = .persistingRead copied read) :
      WorkerStep job (.persistWritten position)
        ({ job with row := Row.merge read ⟨copied, (job.workers position).payload⟩ job.row }.setWorker position
          { job.workers position with phase := .training })
  | trained (position : Nat) (outcome : Outcome) (training : (job.workers position).phase = .training)
      (ends : job.EndsWith (job.workers position) outcome) :
      WorkerStep job (.trained position outcome)
        (job.setWorker position { job.workers position with phase := .finishing outcome })
  | finalWritten (position : Nat) {outcome : Outcome} (finishing : (job.workers position).phase = .finishing outcome) :
      WorkerStep job (.finalWritten position)
        ((job.updateJobStatus outcome.status).setWorker position { job.workers position with phase := .concluded })
  | dispatcherEnded (position : Nat)
      (ends : (∃ outcome, (job.workers position).phase = .finishing outcome) ∨
        (job.workers position).phase = .concluded) :
      WorkerStep job (.dispatcherEnded position)
        (job.setWorker position { job.workers position with dispatching := false })
  | died (position : Nat) (present : (job.workers position).phase ≠ .absent) :
      WorkerStep job (.died position)
        (job.setWorker position { job.workers position with phase := .dead, dispatching := false })

inductive RequestStep (job : TrainingJob) : TrainingEvent → TrainingJob → Prop where
  | interruptLoaded (request : Nat) (absent : job.interrupts request = .absent) :
      RequestStep job (.interruptLoaded request) (job.setInterrupt request (.loaded job.row))
  | cancelPersisted (request : Nat) {loaded : Row TrainPayload} {next : Interrupt}
      (read : job.interrupts request = .loaded loaded) (keeps : loaded.payload.KeepsRequest) :
      RequestStep job (.cancelPersisted request)
        ((job.updatePayload { job.row.payload with cancelRequested := some true }).setInterrupt request next)
  | interruptChecked (request : Nat) {loaded : Row TrainPayload} {next : Interrupt}
      (read : job.interrupts request = .loaded loaded) :
      RequestStep job (.interruptChecked request) (job.setInterrupt request next)
  | canceled (request : Nat) (transitioning : job.interrupts request = .transitioning)
      (pending : CancelsPending job.row) :
      RequestStep job (.cancelTransitioned request) ((job.updateJobStatus .canceled).setInterrupt request .concluded)
  | cancelLost (request : Nat) (transitioning : job.interrupts request = .transitioning)
      (taken : ¬CancelsPending job.row) :
      RequestStep job (.cancelTransitioned request) (job.setInterrupt request .signalling)
  | eventFetched (request : Nat) {event : Nat} {fetched : TrainingJob} (same : job.setdefaultEvent = (fetched, event))
      (signalling : job.interrupts request = .signalling) :
      RequestStep job (.eventFetched request) (fetched.setInterrupt request (.signalled event))
  | eventSet (request : Nat) {event : Nat} (signalled : job.interrupts request = .signalled event) :
      RequestStep job (.eventSet request)
        ({ job with events := Function.update job.events event true }.setInterrupt request .concluded)

variable {job next : TrainingJob} {event : TrainingEvent}

theorem schedulerStep (stepped : job.stepScheduler event = some next) : job.SchedulerStep event next := by
  revert stepped
  fun_cases stepScheduler job event <;> intro stepped <;> cases stepped
  · next found => exact .listed found.1 found.2
  · next found => exact .listEnded found
  · next found _ _ same => exact .started _ same found.1 found.2.1 found.2.2.1 found.2.2.2
  · next found _ _ same => exact .startFailed _ same found.1 found.2.1 found.2.2.1 found.2.2.2
  · next process found _ _ => exact .reapLoaded process found.1 found.2 fun fails => (of_decide_eq_true fails).1
  · next reaping => exact .reapFailed reaping
  · next reaping => exact .reaped reaping
  · next found => exact .recoverLoaded found.1 found.2.1 found.2.2
  · next recovering => exact .recoverWritten recovering
  · next found => exact .sweepLoaded found.1 found.2.1 found.2.2.1 found.2.2.2
  · next sweeping => exact .swept sweeping
  · exact .stopRequested
  · next found => exact .shutdown found.1 found.2
  · next found => exact .restarted found.1 found.2.1 found.2.2

theorem workerStep (stepped : job.stepWorker event = some next) : job.WorkerStep event next := by
  revert stepped
  fun_cases stepWorker job event <;> intro stepped <;> cases stepped
  · next found => exact .stoppedEarly _ found.1 found.2
  · next spawned pending => exact .claimed _ spawned pending
  · next spawned taken => exact .claimLost _ spawned taken
  · next claimed => exact .loaded _ claimed
  · next loaded => exact .joined _ _ loaded
  · next loaded => exact .prepared _ _ loaded
  · next prepared => exact .startRead _ prepared
  · next starting => exact .startWritten _ starting
  · next dispatching => exact .progressed _ dispatching
  · next found => exact .authenticationReported _ _ found.1 found.2
  · next found => exact .remoteJobPersisted _ _ found.1 found.2
  · next found => exact .persistCopied _ _ found.1 found.2.1 found.2.2
  · next persisting => exact .persistRead _ persisting
  · next persisting => exact .persistWritten _ persisting
  · next found => exact .trained _ _ found.1 found.2
  · next finishing => exact .finalWritten _ finishing
  · next outcome finishing => exact .dispatcherEnded _ (.inl ⟨outcome, finishing⟩)
  · next concluded => exact .dispatcherEnded _ (.inr concluded)
  · next present => exact .died _ present

theorem requestStep (stepped : job.stepInterrupt event = some next) : job.RequestStep event next := by
  revert stepped
  fun_cases stepInterrupt job event <;> intro stepped <;> cases stepped
  · next absent => exact .interruptLoaded _ absent
  · next read keeps _ _ => exact .cancelPersisted _ read keeps.2
  · next read keeps _ _ => exact .cancelPersisted _ read keeps.2
  · next read _ _ => exact .interruptChecked _ read
  · next read _ _ => exact .interruptChecked _ read
  · next transitioning pending => exact .canceled _ transitioning pending
  · next transitioning taken => exact .cancelLost _ transitioning taken
  · next signalling _ _ same => exact .eventFetched _ same signalling
  · next signalled => exact .eventSet _ signalled

theorem step_cases (stepped : job.step event = some next) :
    job.SchedulerStep event next ∨ job.WorkerStep event next ∨ job.RequestStep event next := by
  rcases Option.or_eq_some_iff.mp stepped with scheduler | ⟨-, stepped⟩
  · exact .inl (schedulerStep scheduler)
  · exact .inr ((Option.or_eq_some_iff.mp stepped).imp workerStep fun request => requestStep request.2)

theorem setdefaultEvent_status {fetched : TrainingJob} {cancel : Nat} (same : job.setdefaultEvent = (fetched, cancel)) :
    fetched.row.status = job.row.status :=
  congrArg Row.status (setdefaultEvent_frame same).1

theorem SchedulerStep.payload (stepped : job.SchedulerStep event next) : next.row.payload = job.row.payload := by
  cases stepped with
  | started _ same | startFailed _ same => exact congrArg Row.payload (setdefaultEvent_frame same).1
  | _ => rfl

theorem SchedulerStep.workers (stepped : job.SchedulerStep event next) (i : Nat) :
    next.workers i = job.workers i ∨ (next.workers i).phase = .spawned ∨ (next.workers i).phase = .dead := by
  cases stepped with
  | started position same | startFailed position same =>
    rw [setWorker_workers]
    split
    · simp
    · exact .inl ((setdefaultEvent_frame same).2.1 i)
  | shutdown =>
    dsimp only
    split
    · exact .inl rfl
    · exact .inr (.inr rfl)
  | _ => exact .inl rfl

theorem SchedulerStep.reaping_before {reattaching : Bool} (stepped : job.SchedulerStep event next)
    (reaping : next.scheduler = .reaping reattaching true) :
    next.row.status = job.row.status ∧
      (job.scheduler = .reaping reattaching true ∧ event ≠ .reapFailed ∨
        event = .reapLoaded ∧ job.row.status = .pending) := by
  cases stepped with
  | reapLoaded _ _ _ failing =>
    cases reaping
    exact ⟨rfl, .inr ⟨rfl, failing rfl⟩⟩
  | stopRequested | shutdown | restarted => exact ⟨rfl, .inl ⟨reaping, fun same => by cases same⟩⟩
  | _ => cases reaping

/-- A worker touches neither the process table nor what the scheduler thread has read. -/
theorem WorkerStep.frame (stepped : job.WorkerStep event next) :
    next.process = job.process ∧ next.scheduler = job.scheduler := by
  cases stepped <;> exact ⟨rfl, rfl⟩

theorem RequestStep.frame (stepped : job.RequestStep event next) :
    next.workers = job.workers ∧ next.process = job.process ∧ next.scheduler = job.scheduler := by
  cases stepped with
  | eventFetched _ same =>
    obtain ⟨-, workers, -, process, scheduler, -⟩ := setdefaultEvent_frame same
    exact ⟨funext workers, process, scheduler⟩
  | _ => exact ⟨rfl, rfl, rfl⟩

def SetsStatus : TrainingEvent → Prop
  | .reapFailed | .recoverWritten | .claimed _ | .startWritten _ | .progressed _ | .persistWritten _ | .finalWritten _
  | .cancelTransitioned _ => True
  | _ => False

theorem step_status (stepped : job.step event = some next) (quiet : ¬SetsStatus event) :
    next.row.status = job.row.status := by
  rcases step_cases stepped with scheduler | worker | request
  · cases scheduler with
    | reapFailed | recoverWritten => exact absurd trivial quiet
    | started _ same | startFailed _ same =>
      have status := setdefaultEvent_status same
      exact status
    | _ => rfl
  · cases worker with
    | claimed | startWritten | progressed | persistWritten | finalWritten => exact absurd trivial quiet
    | _ => rfl
  · cases request with
    | canceled => exact absurd trivial quiet
    | eventFetched _ same =>
      have status := setdefaultEvent_status same
      exact status
    | _ => rfl

end TrainingJob

end PhysicalAiStudio.Jobs
