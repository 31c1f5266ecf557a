import PhysicalAiStudio.Jobs.TrainingSteps

/-! The persisted request to cancel an AWS Batch job.

The request is kept in the payload, which the worker's first write merges back as a whole
from the copy it loaded when it claimed the job. Every other write sets its own fields.
-/

set_option autoImplicit false

namespace PhysicalAiStudio.Jobs

open Concurrency

namespace WorkerPhase

def HasCopy : WorkerPhase → Prop
  | .loaded _ | .prepared | .starting _ | .training | .finishing _ => True
  | .absent | .spawned | .claimed | .persisting _ | .persistingRead _ _ | .concluded | .dead => False

def Persists : WorkerPhase → Prop
  | .persisting _ | .persistingRead _ _ => True
  | .absent | .spawned | .claimed | .loaded _ | .prepared | .starting _ | .training | .finishing _ | .concluded | .dead =>
    False

end WorkerPhase

namespace TrainingJob

variable {job next : TrainingJob} {event : TrainingEvent}

def CancelRequested (job : TrainingJob) : Prop := job.row.payload.cancelRequested = some true

instance (job : TrainingJob) : Decidable job.CancelRequested :=
  inferInstanceAs (Decidable (_ = _))

def WritesWhatItRead (worker : Worker) : Prop :=
  match worker.phase with
  | .starting read => worker.payload = read.payload
  | _ => False

instance (worker : Worker) : Decidable (WritesWhatItRead worker) := by
  unfold WritesWhatItRead
  split <;> infer_instance

/-- A worker makes its first write only if its copy has the request that is persisted then, or if the copy was still the
row's payload when the merge read it. -/
def Aware (job : TrainingJob) : TrainingEvent → Prop
  | .startWritten position =>
    job.CancelRequested → (job.workers position).payload.cancelRequested = some true ∨
      WritesWhatItRead (job.workers position)
  | _ => True

instance (job : TrainingJob) : (event : TrainingEvent) → Decidable (job.Aware event)
  | .startWritten position =>
    inferInstanceAs (Decidable (_ → (job.workers position).payload.cancelRequested = some true ∨ _))
  | .listed | .listEnded | .started _ | .startFailed _ | .reapLoaded | .reapFailed | .reaped | .recoverLoaded
  | .recoverWritten | .sweepLoaded | .swept | .stopRequested | .shutdown | .restarted | .stoppedEarly _ | .claimed _
  | .loaded _ | .prepared _ _ | .startRead _ | .progressed _ | .authenticationReported _ _
  | .remoteJobPersisted _ _ | .persistCopied _ _ | .persistRead _ | .persistWritten _ | .trained _ _
  | .finalWritten _ | .dispatcherEnded _ | .died _ | .interruptLoaded _ | .cancelPersisted _ | .interruptChecked _
  | .cancelTransitioned _ | .eventFetched _ | .eventSet _ => inferInstanceAs (Decidable True)

structure BatchInv (job : TrainingJob) : Prop where
  row : job.row.payload.KeepsRequest
  copies : ∀ i, (job.workers i).phase.HasCopy → (job.workers i).payload.KeepsRequest
  merging : ∀ i, ¬(job.workers i).phase.Persists

theorem BatchInv.scheduler (inv : job.BatchInv) (stepped : job.SchedulerStep event next) : next.BatchInv := by
  refine ⟨stepped.payload ▸ inv.row, fun i copied => ?_, fun i persists => ?_⟩ <;>
    rcases stepped.workers i with same | spawned | dead
  · rw [same] at copied ⊢
    exact inv.copies i copied
  · rw [spawned] at copied
    exact copied.elim
  · rw [dead] at copied
    exact copied.elim
  · exact inv.merging i (same ▸ persists)
  · rw [spawned] at persists
    exact persists
  · rw [dead] at persists
    exact persists

theorem BatchInv.request (inv : job.BatchInv) (stepped : job.RequestStep event next) : next.BatchInv := by
  have workers := stepped.frame.1
  refine ⟨?_, workers ▸ inv.copies, workers ▸ inv.merging⟩
  cases stepped with
  | eventFetched _ same =>
    have row := (setdefaultEvent_frame same).1
    exact row ▸ inv.row
  | _ => exact inv.row

theorem BatchInv.moves (inv : job.BatchInv) (position : Nat) {worker : Worker} {row : Row TrainPayload}
    (written : row.payload.KeepsRequest) (copies : worker.phase.HasCopy → worker.payload.KeepsRequest)
    (merging : ¬worker.phase.Persists) : ({ job with row := row }.setWorker position worker).BatchInv := by
  refine ⟨written, fun i copied => ?_, fun i => ?_⟩
  · rw [setWorker_workers] at copied ⊢
    split at copied
    · next same => exact if_pos same ▸ copies copied
    · next other => exact if_neg other ▸ inv.copies i copied
  · rw [setWorker_workers]
    split
    · exact merging
    · exact inv.merging i

theorem merge_payload_cases (read written row : Row TrainPayload) :
    (Row.merge read written row).payload = row.payload ∨ (Row.merge read written row).payload = written.payload := by
  rw [Row.merge_payload]
  split
  · exact .inl rfl
  · exact .inr rfl

theorem BatchInv.worker (inv : job.BatchInv) (stepped : job.WorkerStep event next) : next.BatchInv := by
  have copied {position : Nat} {phase : WorkerPhase} (found : (job.workers position).phase = phase)
      (copy : phase.HasCopy) : (job.workers position).payload.KeepsRequest := inv.copies position (found ▸ copy)
  have merging {position : Nat} {phase : WorkerPhase} (found : (job.workers position).phase = phase) :
      ¬phase.Persists := found ▸ inv.merging position
  cases stepped with
  | stoppedEarly position | claimed position | claimLost position | finalWritten position | died position =>
    exact inv.moves position inv.row False.elim id
  | loaded position => exact inv.moves position inv.row (fun _ => inv.row) id
  | joined position _ found | prepared position _ found | startRead position found =>
    exact inv.moves position inv.row (fun _ => copied found trivial) id
  | startWritten position found =>
    refine inv.moves position ?_ (fun _ => copied found trivial) id
    rcases merge_payload_cases _ _ job.row with same | written
    · exact same ▸ inv.row
    · exact written ▸ copied found trivial
  | progressed => exact ⟨inv.row, inv.copies, inv.merging⟩
  | authenticationReported position _ found | remoteJobPersisted position _ found =>
    exact inv.moves position inv.row (fun _ => copied found trivial) (inv.merging position)
  | persistCopied position _ found remote trainer =>
    cases (copied found trivial).2.symm.trans trainer
  | persistRead _ found | persistWritten _ found => exact absurd trivial (merging found)
  | trained position _ found => exact inv.moves position inv.row (fun _ => copied found trivial) id
  | dispatcherEnded position => exact inv.moves position inv.row (inv.copies position) (inv.merging position)

theorem BatchInv.step (inv : job.BatchInv) (stepped : job.step event = some next) : next.BatchInv := by
  rcases step_cases stepped with scheduler | worker | request
  · exact inv.scheduler scheduler
  · exact inv.worker worker
  · exact inv.request request

theorem startWritten_requested_iff {position : Nat} {read : Row TrainPayload} (requested : job.CancelRequested)
    (starting : (job.workers position).phase = .starting read) :
    (Row.merge read ⟨.running, (job.workers position).payload⟩ job.row).payload.cancelRequested = some true ↔
      job.Aware (.startWritten position) := by
  have writes : WritesWhatItRead (job.workers position) ↔ (job.workers position).payload = read.payload := by
    unfold WritesWhatItRead
    rw [starting]
  rw [Row.merge_payload]
  split
  · next same => exact iff_of_true requested fun _ => .inr (writes.mpr same)
  · next changed =>
    constructor
    · exact fun written _ => .inl written
    · exact fun aware => (aware requested).resolve_right fun same => changed (writes.mp same)

theorem BatchInv.requested_iff (inv : job.BatchInv) (requested : job.CancelRequested)
    (stepped : job.step event = some next) : next.CancelRequested ↔ job.Aware event := by
  rcases step_cases stepped with scheduler | worker | request
  · have kept : next.CancelRequested := by
      unfold CancelRequested
      rw [scheduler.payload]
      exact requested
    exact iff_of_true kept (by cases scheduler <;> trivial)
  · cases worker with
    | startWritten _ starting => exact startWritten_requested_iff requested starting
    | persistWritten position persisting =>
      have persists : (job.workers position).phase.Persists := persisting ▸ trivial
      exact absurd persists (inv.merging position)
    | _ => exact iff_of_true requested trivial
  · cases request with
    | cancelPersisted => exact iff_of_true rfl trivial
    | eventFetched _ same =>
      have payload := congrArg Row.payload (setdefaultEvent_frame same).1
      exact iff_of_true ((congrArg TrainPayload.cancelRequested payload).trans requested) trivial
    | _ => exact iff_of_true requested trivial

end TrainingJob

variable {payload : TrainPayload} {history : List TrainingEvent} {state : TrainingJob}

/-- In every run of a job, a request that has been persisted stays so, and every worker that loads the job later has it. -/
structure CancellationSeen (payload : TrainPayload) (history : List TrainingEvent) : Prop where
  kept : ∀ newest later older requested now, history = newest ++ (later ++ older) →
    (trainingJob payload).reached older = some requested → requested.CancelRequested →
    (trainingJob payload).reached (later ++ older) = some now → now.CancelRequested
  loaded : ∀ newest later older worker requested now, history = newest ++ (.loaded worker :: (later ++ older)) →
    (trainingJob payload).reached older = some requested → requested.CancelRequested →
    (trainingJob payload).reached (.loaded worker :: (later ++ older)) = some now →
    (now.workers worker).payload.cancelRequested = some true

theorem batchInv_reached (batch : payload.KeepsRequest) (reached : (trainingJob payload).reached history = some state) :
    state.BatchInv :=
  System.invariant_always (P := TrainingJob.BatchInv) ⟨batch, fun _ => False.elim, fun _ => id⟩
    (fun _ _ _ inv stepped => inv.step stepped) reached

theorem cancelRequested_later {later older : List TrainingEvent} {requested now : TrainingJob}
    (batch : payload.KeepsRequest) (aware : (trainingJob payload).Throughout TrainingJob.Aware (later ++ older))
    (before : (trainingJob payload).reached older = some requested) (persisted : requested.CancelRequested)
    (reached : (trainingJob payload).reached (later ++ older) = some now) : now.CancelRequested := by
  have kept := System.invariant_later (P := fun job => job.BatchInv ∧ job.CancelRequested)
    (fun job event next holds here stepped =>
      ⟨holds.1.step stepped, (holds.1.requested_iff holds.2 stepped).mpr here⟩)
    aware before ⟨batchInv_reached batch before, persisted⟩ reached
  exact kept.2

theorem loaded_payload {job next : TrainingJob} {worker : Nat} (stepped : job.step (.loaded worker) = some next) :
    (next.workers worker).payload = job.row.payload := by
  rcases TrainingJob.step_cases stepped with scheduler | loaded | request
  · cases scheduler
  · cases loaded
    rw [TrainingJob.setWorker_workers, if_pos rfl]
  · cases request

/-- The workers of an AWS Batch job see a persisted cancellation exactly if each makes its first write aware of it. -/
theorem cancellation_seen_iff (batch : payload.KeepsRequest)
    (reached : (trainingJob payload).reached history = some state) :
    CancellationSeen payload history ↔ (trainingJob payload).Throughout TrainingJob.Aware history := by
  constructor
  · intro seen
    refine (always_iff history).mpr fun later event older same job led => ?_
    obtain ⟨next, reached⟩ := System.reached_older (same ▸ reached : (trainingJob payload).reached _ = some state)
    obtain ⟨before, led', stepped⟩ := System.reached_cons.mp reached
    cases led.symm.trans led'
    by_cases requested : job.CancelRequested
    · exact ((batchInv_reached batch led).requested_iff requested stepped).mp
        (seen.kept later [event] older job next same led requested reached)
    · -- nothing is lost where nothing is persisted
      cases event <;> first | trivial | exact fun persisted => absurd persisted requested
  · intro aware
    refine ⟨?_, ?_⟩
    · rintro newest later older requested now rfl before persisted reached
      exact cancelRequested_later batch aware.suffix before persisted reached
    · rintro newest later older worker requested now rfl before persisted reached
      obtain ⟨job, led, stepped⟩ := System.reached_cons.mp reached
      rw [loaded_payload stepped]
      exact cancelRequested_later batch aware.suffix.2 before persisted led

def batchPayload : TrainPayload :=
  { trainingTarget := .remote, awsBatch := true, cancelRequested := some false }

/-- A cancellation that comes during training survives the suspension of the worker, and the next worker loads it. -/
def suspendedCancellation : List TrainingEvent :=
  [.loaded 1, .claimed 1, .started 1, .listed, .restarted, .shutdown, .finalWritten 0, .dispatcherEnded 0,
    .trained 0 .suspended, .stopRequested, .authenticationReported 0 (some 3), .progressed 0, .cancelPersisted 0,
    .interruptLoaded 0, .remoteJobPersisted 0 9, .startWritten 0, .startRead 0, .prepared 0 5, .loaded 0, .claimed 0,
    .started 0, .listed]

theorem suspended_cancellation_seen :
    ∃ state, (trainingJob batchPayload).reached suspendedCancellation = some state ∧
      CancellationSeen batchPayload suspendedCancellation := by
  have seen := @cancellation_seen_iff batchPayload suspendedCancellation _ (by decide) rfl
  exact ⟨_, rfl, seen.mpr (by decide +kernel)⟩

/-- The worker's first write puts back the copy that it loaded before the cancellation. -/
theorem start_clears_cancellation :
    ¬ ∀ (payload : TrainPayload) (history : List TrainingEvent) (state : TrainingJob), payload.KeepsRequest →
      (trainingJob payload).reached history = some state → CancellationSeen payload history := by
  intro every
  have seen := every batchPayload
    [.startWritten 0, .startRead 0, .prepared 0 5, .cancelPersisted 0, .interruptLoaded 0, .loaded 0, .claimed 0,
      .started 0, .listed] _ (by decide) rfl
  have kept := seen.kept [] [.startWritten 0, .startRead 0, .prepared 0 5] _ _ _ rfl rfl (by decide) rfl
  exact absurd kept (by decide)

end PhysicalAiStudio.Jobs
