import PhysicalAiStudio.Jobs.FinishedImports
import PhysicalAiStudio.Jobs.WorkerProcess

/-! A finished job stays finished.

A training job is written while its worker has it, but for two writes: the reaper's of a job
that it found pending, which a cancellation can come before, and the progress that a dispatcher
is late with.
-/

set_option autoImplicit false

namespace PhysicalAiStudio.Jobs

open Concurrency

namespace TrainingJob

variable {job next : TrainingJob} {event : TrainingEvent}

/-- No cancellation comes between the reaper's read of a pending job and its write, and no dispatcher outlives the last
write of its worker. -/
def Undisturbed (job : TrainingJob) : TrainingEvent → Prop
  | .cancelTransitioned _ => ∀ reattaching, job.scheduler ≠ .reaping reattaching true
  | .progressed position => (job.workers position).phase ≠ .concluded
  | _ => True

instance (job : TrainingJob) : (event : TrainingEvent) → Decidable (job.Undisturbed event)
  | .cancelTransitioned _ => inferInstanceAs (Decidable (∀ _, _ ≠ _))
  | .progressed _ => inferInstanceAs (Decidable (_ ≠ _))
  | .listed | .listEnded | .started _ | .startFailed _ | .reapLoaded | .reapFailed | .reaped | .recoverLoaded
  | .recoverWritten | .sweepLoaded | .swept | .stopRequested | .shutdown | .restarted | .stoppedEarly _ | .claimed _
  | .loaded _ | .prepared _ _ | .startRead _ | .startWritten _ | .authenticationReported _ _ | .remoteJobPersisted _ _
  | .persistCopied _ _ | .persistRead _ | .persistWritten _ | .trained _ _ | .finalWritten _ | .dispatcherEnded _
  | .died _ | .interruptLoaded _ | .cancelPersisted _ | .interruptChecked _ | .eventFetched _ | .eventSet _ =>
    inferInstanceAs (Decidable True)

def StaysFinished (job : TrainingJob) (event : TrainingEvent) : Prop :=
  job.row.status.Finished → ∀ next, job.step event = some next → next.row.status = job.row.status

def ReapsPending (job : TrainingJob) : Prop :=
  ∀ reattaching, job.scheduler = .reaping reattaching true → job.row.status = .pending

theorem reaping_before {reattaching : Bool} (stepped : job.step event = some next)
    (reaping : next.scheduler = .reaping reattaching true) :
    job.scheduler = .reaping reattaching true ∧ event ≠ .reapFailed ∨
      event = .reapLoaded ∧ job.row.status = .pending := by
  rcases step_cases stepped with scheduler | worker | request
  · exact (scheduler.reaping_before reaping).2
  · refine .inl ⟨worker.frame.2 ▸ reaping, ?_⟩
    rintro rfl
    cases worker
  · refine .inl ⟨request.frame.2.2 ▸ reaping, ?_⟩
    rintro rfl
    cases request

theorem Inv.reapsPending (inv : job.Inv) (reaps : job.ReapsPending) (undisturbed : job.Undisturbed event)
    (stepped : job.step event = some next) : next.ReapsPending := by
  intro reattaching after
  rcases reaping_before stepped after with ⟨reaping, notFailed⟩ | ⟨rfl, pending⟩
  · have pending := reaps reattaching reaping
    have idle {position : Nat} {phase : WorkerPhase} (found : (job.workers position).phase = phase) : ¬phase.Alive :=
      found ▸ (inv.reaped reaping position).1
    by_cases sets : SetsStatus event
    · rcases step_cases stepped with scheduler | worker | request
      · cases scheduler with
        | reapFailed => exact absurd rfl notFailed
        | recoverWritten recovering => cases reaping.symm.trans recovering
        | _ => exact sets.elim
      · cases worker with
        | claimed _ found | claimLost _ found | startWritten _ found | persistWritten _ found | finalWritten _ found =>
          exact absurd trivial (idle found)
        | progressed position dispatching => cases (inv.reaped reaping position).2.symm.trans dispatching
        | _ => exact sets.elim
      · cases request with
        | canceled | cancelLost => exact absurd reaping (undisturbed reattaching)
        | _ => exact sets.elim
    · exact (step_status stepped sets).trans pending
  · exact (step_status stepped id).trans pending

theorem Inv.unfinished (inv : job.Inv) {position : Nat} (working : (job.workers position).phase.Working) :
    ¬job.row.status.Finished := by
  rw [inv.working position working]
  exact id

theorem Inv.staysFinished (inv : job.Inv) (reaps : job.ReapsPending) (undisturbed : job.Undisturbed event) :
    job.StaysFinished event := by
  intro finished next stepped
  have unpending : job.row.status ≠ .pending := by
    intro pending
    rw [pending] at finished
    exact finished
  by_cases sets : SetsStatus event
  · rcases step_cases stepped with scheduler | worker | request
    · cases scheduler with
      | reapFailed reaping => exact absurd (reaps _ reaping) unpending
      | recoverWritten recovering =>
        rw [(inv.recovering _ recovering).2] at finished
        exact finished.elim
      | _ => exact sets.elim
    · cases worker with
      | claimed _ _ pending => exact absurd pending unpending
      | claimLost => rfl
      | startWritten position found | persistWritten position found | finalWritten position found =>
        exact absurd finished (inv.unfinished (found ▸ trivial : (job.workers position).phase.Working))
      | progressed position dispatching =>
        -- the dispatcher is alive, and its worker has not made its last write
        have working := (inv.dispatching position dispatching).resolve_right undisturbed
        exact absurd finished (inv.unfinished working)
      | _ => exact sets.elim
    · cases request with
      | canceled _ _ pending => exact absurd pending.1 unpending
      | cancelLost => rfl
      | _ => exact sets.elim
  · exact step_status stepped sets

end TrainingJob

/-- In runs in which nobody writes who was overtaken, finished jobs of both kinds stay finished, and no import is queued
without its archive. -/
theorem finished_jobs_stay {payload : TrainPayload} {trainings : List TrainingEvent} {imports : List ImportEvent}
    (training : (trainingJob payload).Throughout TrainingJob.Undisturbed trainings)
    (importing : watchedImport.Throughout ImportJob.Undisturbed imports) :
    (trainingJob payload).Throughout TrainingJob.StaysFinished trainings ∧
      importJob.Throughout (fun job event => job.StaysFinished event ∧ job.QueuesWithArchive event) imports := by
  constructor
  · have invariants := System.invariant_throughout (P := fun job : TrainingJob => job.Inv ∧ job.ReapsPending)
      ⟨TrainingJob.Inv.initial payload, fun _ reaping => by cases reaping⟩
      (fun _ _ _ known undisturbed stepped =>
        ⟨known.1.step stepped, known.1.reapsPending known.2 undisturbed stepped⟩) training
    refine invariants.mono ?_
    rintro job event ⟨⟨inv, reaps⟩, undisturbed⟩
    exact inv.staysFinished reaps undisturbed
  · exact imports_stay_finished importing

def completedTraining : List TrainingEvent :=
  [.reaped, .reapLoaded, .died 0, .finalWritten 0, .dispatcherEnded 0, .trained 0 .completed, .progressed 0,
    .startWritten 0, .startRead 0, .prepared 0 5, .loaded 0, .claimed 0, .started 0, .listed]

def reviewedImport : List ImportEvent :=
  [.reaped, .died 0, .workerWritten 0, .workerRead 0, .turned 0 .reviewing 3 none, .workerWritten 0, .workerRead 0,
    .turned 0 .drafting 0 none, .workerWritten 0, .workerRead 0, .turned 0 .detecting 0 none, .loaded 0, .started 0,
    .claimUpdated, .claimSelected, .requestWritten 0, .requestRead 0, .attachLoaded 0 7, .archiveStored 0,
    .uploadLoaded 0]

def completedImport : List ImportEvent :=
  [.archiveCleaned 1 none, .workerWritten 1, .workerRead 1, .turned 1 .completed 4 none, .workerWritten 1,
    .workerRead 1, .turned 1 .importing 0 none, .loaded 1, .started 1, .claimUpdated, .claimSelected,
    .requestWritten 1, .requestRead 1, .finalizeLoaded 1 2] ++ reviewedImport

theorem completed_jobs_stay :
    (∃ job, (trainingJob {}).reached completedTraining = some job) ∧
      (∃ job, importJob.reached completedImport = some job) ∧
      (trainingJob {}).Throughout TrainingJob.StaysFinished completedTraining ∧
      importJob.Throughout (fun job event => job.StaysFinished event ∧ job.QueuesWithArchive event) completedImport :=
  ⟨⟨_, rfl⟩, ⟨_, rfl⟩, finished_jobs_stay (by decide +kernel) (by decide +kernel)⟩

/-- The review cancels the import, which deletes the archive and leaves the step, so it can be finalized still. -/
theorem canceled_import_queues :
    (¬ ∀ (history : List ImportEvent) (job : ImportJob), importJob.reached history = some job →
      importJob.Throughout ImportJob.StaysFinished history) ∧
    ¬ ∀ (history : List ImportEvent) (job : ImportJob), importJob.reached history = some job →
      importJob.Throughout ImportJob.QueuesWithArchive history := by
  constructor
  · intro every
    have throughout := every ([.requestWritten 2, .requestRead 2, .finalizeLoaded 2 9, .requestCleaned 1,
      .requestWritten 1, .requestRead 1, .cancelLoaded 1] ++ reviewedImport) _ rfl
    have stays := throughout.1 _ rfl (by decide) _ rfl
    exact absurd stays.1 (by decide)
  · intro every
    have throughout := every ([.requestWritten 2, .requestRead 2, .finalizeLoaded 2 9, .requestCleaned 1,
      .requestWritten 1, .requestRead 1, .cancelLoaded 1] ++ reviewedImport) _ rfl
    exact throughout.1 _ rfl _ rfl (by decide) (by decide) rfl

end PhysicalAiStudio.Jobs
