import PhysicalAiStudio.Jobs.WorkerProcess

/-! The claim of a waiting job competes with its cancellation.

Both are conditional updates of the pending row. A job that was submitted to a trainer is
canceled by the worker that has joined it again, once it has seen why.
-/

set_option autoImplicit false

namespace PhysicalAiStudio.Jobs

open Concurrency

theorem Outcome.status_eq_pending {outcome : Outcome} : outcome.status = .pending ↔ outcome = .suspended := by
  cases outcome <;> simp [Outcome.status]

theorem Outcome.status_eq_canceled {outcome : Outcome} :
    outcome.status = .canceled ↔ ∃ cause, outcome = .canceled cause := by
  cases outcome <;> simp [Outcome.status]

namespace TrainingJob

variable {job next : TrainingJob} {event : TrainingEvent}

def Claims (job : TrainingJob) : TrainingEvent → Prop
  | .claimed position => (job.workers position).phase = .spawned ∧ job.row.status = .pending
  | _ => False

def CancelsQueued (job : TrainingJob) : TrainingEvent → Prop
  | .cancelTransitioned request => job.interrupts request = .transitioning ∧ CancelsPending job.row
  | _ => False

/-- The job is put back to wait, for a worker that joins its trainer job again. -/
def Requeues (job : TrainingJob) : TrainingEvent → Prop
  | .recoverWritten => job.scheduler = .recovering true
  | .finalWritten position => (job.workers position).phase = .finishing .suspended
  | _ => False

def Takes (job : TrainingJob) (event : TrainingEvent) : Prop :=
  job.Claims event ∨ job.CancelsQueued event

theorem CancelsQueued.pending (cancels : job.CancelsQueued event) : job.row.status = .pending := by
  cases event with
  | cancelTransitioned request => exact cancels.2.1
  | _ => cases cancels

theorem Takes.pending (takes : job.Takes event) : job.row.status = .pending := by
  rcases takes with claims | cancels
  · cases event with
    | claimed position => exact claims.2
    | _ => cases claims
  · exact cancels.pending

theorem Takes.taken (takes : job.Takes event) (stepped : job.step event = some next) :
    next.row.status ≠ .pending := by
  rcases takes with claims | cancels
  · cases event with
    | claimed position =>
      rcases step_cases stepped with scheduler | worker | request
      · cases scheduler
      · cases worker with
        | claimed => exact fun same => by cases same
        | claimLost _ _ taken => exact absurd claims.2 taken
      · cases request
    | _ => cases claims
  · cases event with
    | cancelTransitioned request =>
      rcases step_cases stepped with scheduler | worker | request
      · cases scheduler
      · cases worker
      · cases request with
        | canceled => exact fun same => by cases same
        | cancelLost _ _ taken => exact absurd cancels.2 taken
    | _ => cases cancels

theorem Inv.requeues (inv : job.Inv) (taken : job.row.status ≠ .pending) (stepped : job.step event = some next)
    (pending : next.row.status = .pending) : job.Requeues event := by
  rcases step_cases stepped with scheduler | worker | request
  · cases scheduler with
    | reapFailed => cases pending
    | @recoverWritten requeue recovering =>
      cases requeue with
      | true => exact recovering
      | false => cases pending
    | started _ same | startFailed _ same => exact absurd ((setdefaultEvent_status same).symm.trans pending) taken
    | _ => exact absurd pending taken
  · cases worker with
    | claimed | progressed => cases pending
    | startWritten _ starting => cases (inv.startWritten_running _ starting).symm.trans pending
    | persistWritten _ persisting => cases (inv.persistWritten_running _ persisting).symm.trans pending
    | finalWritten _ finishing =>
      cases Outcome.status_eq_pending.mp pending
      exact finishing
    | _ => exact absurd pending taken
  · cases request with
    | canceled => cases pending
    | eventFetched _ same => exact absurd ((setdefaultEvent_status same).symm.trans pending) taken
    | _ => exact absurd pending taken

/-- What is left of a job that was canceled while it waited: nothing puts it back, so no worker claims it. -/
structure Unclaimable (job : TrainingJob) : Prop where
  taken : job.row.status ≠ .pending
  detached : ¬job.row.payload.Reattachable
  idle : ∀ i, ¬(job.workers i).phase.Working
  final : job.scheduler ≠ .recovering true

theorem Unclaimable.scheduler (unclaimable : job.Unclaimable) (stepped : job.SchedulerStep event next) :
    next.Unclaimable := by
  have detached : ¬next.row.payload.Reattachable := stepped.payload ▸ unclaimable.detached
  have idle (i : Nat) : ¬(next.workers i).phase.Working := by
    rcases stepped.workers i with same | spawned | dead
    · exact same ▸ unclaimable.idle i
    · rw [spawned]
      exact id
    · rw [dead]
      exact id
  cases stepped with
  | started _ same | startFailed _ same =>
    exact ⟨setdefaultEvent_status same ▸ unclaimable.taken, detached, idle, fun same => by cases same⟩
  | reapFailed => exact ⟨fun same => (by cases same), detached, idle, fun same => by cases same⟩
  | recoverLoaded =>
    refine ⟨unclaimable.taken, detached, idle, fun same => ?_⟩
    exact unclaimable.detached (of_decide_eq_true (SchedulerPhase.recovering.inj same))
  | @recoverWritten requeue recovering =>
    refine ⟨fun same => ?_, detached, idle, fun same => by cases same⟩
    cases requeue with
    | true => exact unclaimable.final recovering
    | false => cases same
  | stopRequested | shutdown | restarted => exact ⟨unclaimable.taken, detached, idle, unclaimable.final⟩
  | _ => exact ⟨unclaimable.taken, detached, idle, fun same => by cases same⟩

theorem Unclaimable.moves (unclaimable : job.Unclaimable) (position : Nat) {worker : Worker}
    (idle : ¬worker.phase.Working) : (job.setWorker position worker).Unclaimable := by
  refine ⟨unclaimable.taken, unclaimable.detached, fun i => ?_, unclaimable.final⟩
  rw [setWorker_workers]
  split
  · exact idle
  · exact unclaimable.idle i

theorem Unclaimable.worker (unclaimable : job.Unclaimable) (stepped : job.WorkerStep event next) :
    next.Unclaimable := by
  have working {position : Nat} {phase : WorkerPhase} (found : (job.workers position).phase = phase) : ¬phase.Working :=
    found ▸ unclaimable.idle position
  cases stepped with
  | stoppedEarly position | claimLost position | died position => exact unclaimable.moves position id
  | claimed position spawned pending => exact absurd pending unclaimable.taken
  | progressed =>
    exact ⟨fun same => (by cases same), unclaimable.detached, unclaimable.idle, unclaimable.final⟩
  | dispatcherEnded position => exact unclaimable.moves position (unclaimable.idle position)
  | loaded _ found | joined _ _ found | prepared _ _ found | startRead _ found | startWritten _ found
  | authenticationReported _ _ found | remoteJobPersisted _ _ found | persistCopied _ _ found | persistRead _ found
  | persistWritten _ found | trained _ _ found | finalWritten _ found => exact absurd trivial (working found)

theorem Unclaimable.request (unclaimable : job.Unclaimable) (stepped : job.RequestStep event next) :
    next.Unclaimable := by
  cases stepped with
  | canceled => exact ⟨fun same => (by cases same), unclaimable.detached, unclaimable.idle, unclaimable.final⟩
  | eventFetched _ same =>
    obtain ⟨row, workers, -, -, scheduler, -⟩ := setdefaultEvent_frame same
    exact ⟨row ▸ unclaimable.taken, row ▸ unclaimable.detached, fun i => workers i ▸ unclaimable.idle i,
      scheduler ▸ unclaimable.final⟩
  | _ => exact ⟨unclaimable.taken, unclaimable.detached, unclaimable.idle, unclaimable.final⟩

theorem Unclaimable.step (unclaimable : job.Unclaimable) (stepped : job.step event = some next) :
    next.Unclaimable := by
  rcases step_cases stepped with scheduler | worker | request
  · exact unclaimable.scheduler scheduler
  · exact unclaimable.worker worker
  · exact unclaimable.request request

theorem Inv.unclaimable (inv : job.Inv) (cancels : job.CancelsQueued event) (stepped : job.step event = some next) :
    next.Unclaimable := by
  have waiting := inv.waiting cancels.pending
  cases event with
  | cancelTransitioned request =>
    rcases step_cases stepped with scheduler | worker | request
    · cases scheduler
    · cases worker
    · cases request with
      | canceled _ _ pending =>
        refine ⟨fun same => (by cases same), ?_, waiting.1, waiting.2 true⟩
        rintro ⟨remote, submitted⟩
        exact pending.2.elim (fun other => other remote) submitted
      | cancelLost _ _ taken => exact absurd cancels.2 taken
  | _ => cases cancels

/-- A job with a trainer job is marked canceled by the last write of its worker alone. -/
theorem Inv.canceled (inv : job.Inv) (joined : job.row.payload.Reattachable) (before : job.row.status ≠ .canceled)
    (stepped : job.step event = some next) (canceled : next.row.status = .canceled) :
    ∃ worker cause, event = .finalWritten worker ∧ job.process = some worker ∧
      (job.workers worker).phase = .finishing (.canceled cause) := by
  rcases step_cases stepped with scheduler | worker | request
  · cases scheduler with
    | reapFailed => cases canceled
    | @recoverWritten requeue => cases requeue <;> cases canceled
    | started _ same | startFailed _ same => exact absurd ((setdefaultEvent_status same).symm.trans canceled) before
    | _ => exact absurd canceled before
  · cases worker with
    | claimed | progressed => cases canceled
    | startWritten _ starting => cases (inv.startWritten_running _ starting).symm.trans canceled
    | persistWritten _ persisting => cases (inv.persistWritten_running _ persisting).symm.trans canceled
    | finalWritten position finishing =>
      obtain ⟨cause, rfl⟩ := Outcome.status_eq_canceled.mp canceled
      exact ⟨position, cause, rfl, inv.process position (finishing ▸ trivial), finishing⟩
    | _ => exact absurd canceled before
  · cases request with
    | canceled _ _ pending => exact absurd joined.1 (pending.2.resolve_right joined.2)
    | eventFetched _ same => exact absurd ((setdefaultEvent_status same).symm.trans canceled) before
    | _ => exact absurd canceled before

theorem finishing_step {worker : Nat} {outcome : Outcome} (stepped : job.step event = some next)
    (finishing : (next.workers worker).phase = .finishing outcome) :
    (job.workers worker).phase = .finishing outcome ∨
      event = .trained worker outcome ∧ job.EndsWith (job.workers worker) outcome := by
  rcases step_cases stepped with scheduler | moved | request
  · rcases scheduler.workers worker with same | spawned | dead
    · exact .inl (same ▸ finishing)
    · cases spawned.symm.trans finishing
    · cases dead.symm.trans finishing
  · cases moved with
    | progressed => exact .inl finishing
    -- The only step that brings a worker to its end.
    | trained position outcome training ends =>
      rw [setWorker_workers] at finishing
      split at finishing
      · next same =>
        cases finishing
        exact .inr ⟨by rw [same], same ▸ ends⟩
      · exact .inl finishing
    | authenticationReported | remoteJobPersisted | dispatcherEnded =>
      rw [setWorker_workers] at finishing
      split at finishing
      · next same => exact .inl (same ▸ finishing)
      · exact .inl finishing
    | _ =>
      rw [setWorker_workers] at finishing
      split at finishing
      · cases finishing
      · exact .inl finishing
  · exact .inl (request.frame.1 ▸ finishing)

end TrainingJob

variable {payload : TrainPayload} {history : List TrainingEvent} {state : TrainingJob}

theorem trained_of_finishing {worker : Nat} {outcome : Outcome}
    (reached : (trainingJob payload).reached history = some state)
    (finishing : (state.workers worker).phase = .finishing outcome) :
    ∃ later older before, history = later ++ .trained worker outcome :: older ∧
      (trainingJob payload).reached older = some before ∧ before.EndsWith (before.workers worker) outcome := by
  induction history generalizing state with
  | nil =>
    cases reached
    cases finishing
  | cons event older ih =>
    obtain ⟨before, led, stepped⟩ := System.reached_cons.mp reached
    rcases TrainingJob.finishing_step stepped finishing with already | ⟨rfl, ends⟩
    · obtain ⟨later, oldest, earlier, same, rest⟩ := ih led already
      exact ⟨event :: later, oldest, earlier, by rw [same, List.cons_append], rest⟩
    · exact ⟨[], older, before, rfl, led, ends⟩

structure Settled (payload : TrainPayload) (history : List TrainingEvent) : Prop where
  /-- Between two claims or cancellations of the waiting job it was put back to wait. -/
  once : ∀ newest second middle first older before between,
    history = newest ++ second :: (middle ++ first :: older) →
    (trainingJob payload).reached older = some before → before.Takes first →
    (trainingJob payload).reached (middle ++ first :: older) = some between → between.Takes second →
    ∃ later event earlier job, middle = later ++ event :: earlier ∧
      (trainingJob payload).reached (earlier ++ first :: older) = some job ∧ job.Requeues event
  /-- No worker works on a job that was canceled while it waited. -/
  unclaimed : ∀ newest later event older before now, history = newest ++ (later ++ event :: older) →
    (trainingJob payload).reached older = some before → before.CancelsQueued event →
    (trainingJob payload).reached (later ++ event :: older) = some now →
    now.row.status ≠ .pending ∧ ∀ i, ¬(now.workers i).phase.Working
  /-- A job with a trainer job is canceled by its worker, after that has seen the event, the request or the report. -/
  observed : ∀ newest event older before now, history = newest ++ event :: older →
    (trainingJob payload).reached older = some before → (trainingJob payload).reached (event :: older) = some now →
    before.row.payload.Reattachable → before.row.status ≠ .canceled → now.row.status = .canceled →
    ∃ worker cause, event = .finalWritten worker ∧ before.process = some worker ∧
      (cause ≠ .stopped → ∃ later earlier job, older = later ++ .trained worker (.canceled cause) :: earlier ∧
        (trainingJob payload).reached earlier = some job ∧ job.EndsWith (job.workers worker) (.canceled cause))

/-- Every run of a job settles its claims and its cancellations. -/
theorem claims_and_cancellations_settle (history : List TrainingEvent) : Settled payload history := by
  refine ⟨?_, ?_, ?_⟩
  · intro newest second middle first older before between _ led takes reached again
    obtain ⟨next, reached'⟩ := System.reached_older reached
    obtain ⟨before', led', stepped⟩ := System.reached_cons.mp reached'
    cases led.symm.trans led'
    obtain ⟨later, event, earlier, last, after, same, led, stepped, taken, pending⟩ :=
      System.exists_change (P := fun job => job.row.status = .pending) reached' (takes.taken stepped) reached again.pending
    exact ⟨later, event, earlier, last, same, led,
      (TrainingJob.inv_reached led).requeues taken stepped pending⟩
  · intro newest later event older before now _ led cancels reached
    obtain ⟨next, reached'⟩ := System.reached_older reached
    obtain ⟨before', led', stepped⟩ := System.reached_cons.mp reached'
    cases led.symm.trans led'
    have unclaimable := System.invariant_later_always (fun job event next => TrainingJob.Unclaimable.step) reached'
      ((TrainingJob.inv_reached led).unclaimable cancels stepped) reached
    exact ⟨unclaimable.taken, unclaimable.idle⟩
  · intro newest event older before now _ led reached joined uncanceled canceled
    obtain ⟨before', led', stepped⟩ := System.reached_cons.mp reached
    cases led.symm.trans led'
    obtain ⟨worker, cause, rfl, process, finishing⟩ :=
      (TrainingJob.inv_reached led).canceled joined uncanceled stepped canceled
    exact ⟨worker, cause, rfl, process, fun _ => trained_of_finishing led finishing⟩

/-- The trainer reports that a job was canceled there, and nobody has set the event; a process that was listed before the
cancellation is started after it. -/
theorem report_cancels_unsignalled :
    (¬ ∀ (payload : TrainPayload) (history : List TrainingEvent) (state : TrainingJob),
      (trainingJob payload).reached history = some state → state.row.payload.Reattachable →
      state.row.status = .canceled → ∃ worker, state.events (state.workers worker).event = true) ∧
    ¬ ∀ (payload : TrainPayload) (later older : List TrainingEvent) (event : TrainingEvent) (before now : TrainingJob),
      (trainingJob payload).reached older = some before → before.CancelsQueued event →
      (trainingJob payload).reached (later ++ event :: older) = some now → ∀ worker, .started worker ∉ later := by
  refine ⟨fun every => ?_, fun every => ?_⟩
  · obtain ⟨worker, signalled⟩ := every { trainingTarget := .remote }
      [.finalWritten 0, .dispatcherEnded 0, .trained 0 (.canceled .reported), .persistWritten 0, .persistRead 0,
        .persistCopied 0 9, .startWritten 0, .startRead 0, .prepared 0 5, .loaded 0, .claimed 0, .started 0, .listed]
      _ rfl (by decide) rfl
    cases signalled
  · exact every {} [.started 0] [.interruptChecked 0, .interruptLoaded 0, .listed] (.cancelTransitioned 0) _ _ rfl
      ⟨rfl, by decide⟩ rfl 0 (by simp)

end PhysicalAiStudio.Jobs
