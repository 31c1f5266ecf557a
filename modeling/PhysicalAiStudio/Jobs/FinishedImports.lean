import PhysicalAiStudio.Jobs.ImportUploads

/-! What a finished import job and its archive are left to.

Almost every write of the job is made whatever has become of the row since the writer loaded
it. An observer notes who has been overtaken by the write of another. While nobody writes who was,
a finished job stays so, and a job that waits for a worker has its archive.
-/

set_option autoImplicit false

namespace PhysicalAiStudio.Jobs

open Concurrency

/-- Who loads and writes the job. -/
inductive ImportParty where
  | scheduler
  | worker (position : Nat)
  | request (position : Nat)
  deriving DecidableEq

namespace ImportEvent

def loads : ImportEvent → Option ImportParty
  | .claimSelected | .recoverLoaded => some .scheduler
  | .loaded worker => some (.worker worker)
  | .attachLoaded request _ | .finalizeLoaded request _ | .cancelLoaded request | .interruptLoaded request =>
    some (.request request)
  | _ => none

def writes : ImportEvent → Option ImportParty
  | .claimUpdated | .recoverWritten => some .scheduler
  | .workerWritten worker => some (.worker worker)
  | .requestWritten request | .interruptWritten request => some (.request request)
  | _ => none

/-- Notes for each party whether another one has written the job since its load. -/
def overtake (overtaken : ImportParty → Bool) (event : ImportEvent) (party : ImportParty) : Bool :=
  if event.loads = some party then false
  else if event.writes = none ∨ event.writes = some party then overtaken party
  else true

end ImportEvent

def watchedImport : System (ImportJob × (ImportParty → Bool)) ImportEvent :=
  importJob.observed (fun _ => false) ImportEvent.overtake

namespace ImportJob

variable {job next : ImportJob} {event : ImportEvent}

/-- A request loads a job that has not finished, nobody writes the job who has been overtaken since the load, and uploads
are admitted one at a time. -/
def Undisturbed : ImportJob × (ImportParty → Bool) → ImportEvent → Prop
  | (job, overtaken), event =>
    match event with
    | .attachLoaded _ _ | .finalizeLoaded _ _ | .cancelLoaded _ => ¬job.row.status.Finished
    | .requestRead request | .requestWritten request | .interruptWritten request =>
      overtaken (.request request) = false
    | .workerRead worker | .workerWritten worker => overtaken (.worker worker) = false
    | .recoverWritten => overtaken .scheduler = false
    | _ => job.AdmitsAlone event

instance (state : ImportJob × (ImportParty → Bool)) (event : ImportEvent) : Decidable (Undisturbed state event) :=
  match event with
  | .attachLoaded _ _ | .finalizeLoaded _ _ | .cancelLoaded _ => inferInstanceAs (Decidable (¬_))
  | .requestRead _ | .requestWritten _ | .interruptWritten _ | .workerRead _ | .workerWritten _ | .recoverWritten =>
    inferInstanceAs (Decidable (_ = _))
  | .uploadLoaded request => inferInstanceAs (Decidable (state.1.AdmitsAlone (.uploadLoaded request)))
  | .claimSelected | .claimUpdated | .claimDropped | .started _ | .startFailed _ | .reaped | .recoverLoaded
  | .stopRequested | .shutdown | .restarted | .stoppedEarly _ | .loaded _ | .turned _ _ _ _ | .commitFailed _
  | .writeFailed _ _ | .archiveCleaned _ _ | .died _ | .archiveStored _ | .archiveRejected _ | .uploadFailed _
  | .requestCleaned _ | .interruptLoaded _ => inferInstanceAs (Decidable True)

/-- A finished job keeps its status and does not go back to a step before the last. -/
def StaysFinished (job : ImportJob) (event : ImportEvent) : Prop :=
  job.row.status.Finished → ∀ next, job.step event = some next → next.row.status = job.row.status ∧
    (next.row.payload.step = job.row.payload.step ∨ next.row.payload.step = .completed)

def QueuesWithArchive (job : ImportJob) (event : ImportEvent) : Prop :=
  ∀ next, job.step event = some next → Claimable next.row → ¬Claimable job.row → next.archive ≠ none

end ImportJob

namespace ImportStep

def Waits : ImportStep → Prop
  | .awaitingArchiveUpload | .queuedForDetection | .awaitingUserReview | .queuedForImport => True
  | .detectingFormat | .buildingManifestDraft | .importingDataset | .completed => False

def Runs : ImportStep → Prop
  | .queuedForDetection | .detectingFormat | .buildingManifestDraft | .queuedForImport | .importingDataset => True
  | .awaitingArchiveUpload | .awaitingUserReview | .completed => False

end ImportStep

def ImportWrite.Leaves (step : ImportStep) : ImportWrite → Prop
  | .detecting => step = .detectingFormat
  | .drafting => step = .buildingManifestDraft
  | .reviewing => step = .awaitingUserReview
  | .importing => step = .importingDataset
  | .completed => step = .completed
  | .failed => True

def MergeKind.From (loaded payload : ImportPayload) : MergeKind → Prop
  | .attach => loaded.step = .awaitingArchiveUpload ∧ payload.step = .queuedForDetection
  | .finalize => loaded.step = .awaitingUserReview ∧ payload.step = .queuedForImport
  | .cancel => loaded.step = .awaitingUserReview ∧ payload = loaded

def ImportWorkerPhase.Alive : ImportWorkerPhase → Prop
  | .absent | .dead => False
  | .spawned | .working | .writing _ | .writingRead _ _ | .cleaning _ | .concluded => True

structure Stored (row : Row ImportPayload) (archive : Option Nat) : Prop where
  waits : row.status = .pending → row.payload.step.Waits
  runs : row.status = .running → row.payload.step.Runs
  queued : row.status = .pending → row.payload.step ≠ .awaitingArchiveUpload → archive ≠ none
  detected : row.status = .running → row.payload.step ≠ .queuedForImport → row.payload.step ≠ .importingDataset →
    archive ≠ none

def ImportWorker.Knows (row : Row ImportPayload) (worker : ImportWorker) : Prop :=
  match worker.phase with
  | .working => row.status.Finished ∨ row = ⟨.running, worker.payload⟩
  | .writing write => write.Leaves worker.payload.step ∧
    (row.status.Finished ∨ row.status = .running ∧ (write = .failed ∨ write.Follows row.payload.step))
  | .writingRead write read => write.Leaves worker.payload.step ∧
    (row.status.Finished ∨ row.status = .running ∧ row = read ∧ (write = .failed ∨ write.Follows row.payload.step))
  | .cleaning true => row.status.Finished ∨ row.status = .running ∧
    (row.payload.step = .queuedForImport ∨ row.payload.step = .importingDataset)
  | .cleaning false => row.status.Finished
  | .absent | .spawned | .concluded | .dead => True

def ImportRequest.Knows (status : JobStatus) : ImportRequest → Prop
  | .merging kind loaded payload => kind.From loaded.payload payload
  | .mergingRead kind loaded payload read => kind.From loaded.payload payload ∧ read = loaded
  | .cleaning => status.Finished
  | .absent | .uploading | .stored | .interrupting | .concluded => True

variable {row next : Row ImportPayload} {archive : Option Nat} {worker : ImportWorker} {request : ImportRequest}
  {before status : JobStatus}

theorem Stored.finished (finished : row.status.Finished) : Stored row archive := by
  have := JobStatus.finished_iff.mp finished
  constructor <;> grind -linarith

theorem Stored.claim (stored : Stored row archive) (claimable : ImportJob.Claimable row) :
    Stored { row with status := .running } archive := by
  obtain ⟨waits, runs, queued, detected⟩ := stored
  obtain ⟨pending, step⟩ := claimable
  constructor <;> grind -linarith [ImportStep.Queued, ImportStep.Runs]

theorem Stored.written {write : ImportWrite} {payload : ImportPayload} (stored : Stored row archive)
    (running : row.status = .running) (leaves : write.Leaves payload.step)
    (follows : write = .failed ∨ write.Follows row.payload.step) : Stored ⟨write.status, payload⟩ archive := by
  obtain ⟨waits, runs, queued, detected⟩ := stored
  cases write <;> constructor <;>
    grind -linarith [ImportWrite.Leaves, ImportWrite.Follows, ImportWrite.status, ImportStep.Waits, ImportStep.Runs]

theorem Stored.commit (stored : Stored row archive) (running : row.status = .running)
    (commit : row.payload.step = .queuedForImport ∨ row.payload.step = .importingDataset) : Stored row none := by
  obtain ⟨waits, runs, queued, detected⟩ := stored
  constructor <;> grind -linarith

theorem Stored.await (stored : Stored row archive) (awaiting : row.payload.step = .awaitingArchiveUpload) :
    Stored row none := by
  obtain ⟨waits, runs, queued, detected⟩ := stored
  constructor <;> grind -linarith [ImportStep.Runs]

theorem Stored.requested {kind : MergeKind} {payload : ImportPayload} {upload : Nat} (stored : Stored row archive)
    (unfinished : ¬row.status.Finished) (loads : kind.From row.payload payload)
    (archived : kind = .attach → archive = some upload) : Stored ⟨kind.status, payload⟩ archive := by
  obtain ⟨waits, runs, queued, detected⟩ := stored
  cases kind <;> constructor <;> grind -linarith [MergeKind.From, MergeKind.status, ImportStep.Waits, ImportStep.Runs]

theorem ImportWorker.Knows.finish (knows : worker.Knows row)
    (finished : next.status.Finished) : worker.Knows next := by
  unfold Knows at knows ⊢
  split at knows <;> grind -linarith

theorem ImportWorker.Knows.idle (idle : ¬worker.phase.Alive) :
    worker.Knows row := by
  unfold Knows
  split <;> grind -linarith [ImportWorkerPhase.Alive]

theorem ImportRequest.Knows.finish (knows : request.Knows before)
    (finished : status.Finished) : request.Knows status := by
  cases request <;> first | exact knows | exact finished

/-- Nobody holds a job that waits. -/
theorem ImportWorker.Knows.pending (knows : worker.Knows row)
    (pending : row.status = .pending) : worker.Knows next := by
  unfold Knows at knows ⊢
  split at knows <;> grind -linarith

theorem ImportRequest.Knows.unfinished
    (knows : request.Knows before) (unfinished : ¬before.Finished) : request.Knows status := by
  cases request <;> first | exact knows | exact absurd knows unfinished

namespace ImportJob

variable {job next : ImportJob} {event : ImportEvent}

/-- The request writes back the unfinished job that is there, an upload with the archive that it has stored. -/
def Unchanged (job : ImportJob) (request : Nat) : Prop :=
  match job.requests request with
  | .merging _ loaded _ => job.row = loaded ∧ ¬loaded.status.Finished
  | .mergingRead kind loaded _ _ =>
    job.row = loaded ∧ ¬loaded.status.Finished ∧ (kind = .attach → job.archive = some request)
  | _ => True

/-- What a step finds in which nobody writes who was overtaken. -/
def Calm (job : ImportJob) : ImportEvent → Prop
  | .requestRead request | .requestWritten request => job.Unchanged request
  | .interruptWritten _ => ¬job.row.status.Finished
  | .workerRead _ | .workerWritten _ | .recoverWritten => job.row.status = .running
  | .archiveRejected _ => job.Awaits
  | _ => True

structure Inv (job : ImportJob) : Prop where
  stored : Stored job.row job.archive
  process : ∀ i, (job.workers i).phase.Alive → job.process = some i
  scheduling : job.scheduler ≠ .idle → job.process = none
  workers : ∀ i, (job.workers i).Knows job.row
  requests : ∀ request, (job.requests request).Knows job.row.status

variable {position request : Nat} {worker : ImportWorker} {other : ImportRequest} {status : JobStatus}
  {row : Row ImportPayload} {archive : Option Nat}

attribute [local grind] ImportStep.Queued ImportStep.Waits ImportStep.Runs ImportWrite.Leaves ImportWrite.Follows
  ImportWrite.InCommit ImportWrite.prepare ImportWrite.status ImportWrite.phaseAfter ImportWorkerPhase.Alive
  MergeKind.From MergeKind.status MergeKind.requestAfter Claimable

theorem Inv.setWorker (inv : job.Inv) (alive : worker.phase.Alive → (job.workers position).phase.Alive)
    (knows : worker.Knows job.row) : (job.setWorker position worker).Inv := by
  refine ⟨inv.stored, fun i => ?_, inv.scheduling, fun i => ?_, inv.requests⟩
  · have := inv.process i
    grind -linarith
  · have := inv.workers i
    grind -linarith

theorem Inv.setRequest (inv : job.Inv) (knows : other.Knows job.row.status) : (job.setRequest request other).Inv := by
  refine ⟨inv.stored, inv.process, inv.scheduling, inv.workers, fun i => ?_⟩
  have := inv.requests i
  grind -linarith

/-- Which upload was admitted last matters to nobody else. -/
theorem Inv.admit {admitted : Option Nat} (inv : job.Inv) (knows : other.Knows job.row.status) :
    ({ job with admitted := admitted }.setRequest request other).Inv :=
  have same : ({ job with admitted := admitted } : ImportJob).Inv :=
    ⟨inv.stored, inv.process, inv.scheduling, inv.workers, inv.requests⟩
  same.setRequest knows

theorem Inv.finish (inv : job.Inv) (finished : status.Finished) : (job.updateJobStatus status).Inv :=
  ⟨.finished finished, inv.process, inv.scheduling, fun i => (inv.workers i).finish finished,
    fun i => (inv.requests i).finish finished⟩

theorem Inv.workerWrites (inv : job.Inv) (alive : (job.workers position).phase.Alive)
    (unfinished : ¬job.row.status.Finished) (stored : Stored row job.archive) (knows : worker.Knows row) :
    ({ job with row := row }.setWorker position worker).Inv := by
  have process := inv.process position alive
  refine ⟨stored, fun i => ?_, inv.scheduling, fun i => ?_, fun i => (inv.requests i).unfinished unfinished⟩
  · have := inv.process i
    grind -linarith
  · by_cases same : i = position
    · grind -linarith
    · have idle : ¬(job.workers i).phase.Alive := fun alive =>
        same (Option.some.inj ((inv.process i alive).symm.trans process))
      rw [setWorker_workers, if_neg same]
      exact .idle idle

theorem Inv.requestWrites (inv : job.Inv) (pending : job.row.status = .pending) (stored : Stored row job.archive)
    (knows : other.Knows row.status) : ({ job with row := row }.setRequest request other).Inv := by
  have unfinished : ¬job.row.status.Finished := by
    rw [pending]
    exact id
  refine ⟨stored, inv.process, inv.scheduling, fun i => (inv.workers i).pending pending, fun i => ?_⟩
  have : (job.requests i).Knows row.status := (inv.requests i).unfinished unfinished
  grind -linarith

theorem Inv.setArchive (inv : job.Inv) (stored : Stored job.row archive) :
    ({ job with archive := archive } : ImportJob).Inv :=
  ⟨stored, inv.process, inv.scheduling, inv.workers, inv.requests⟩

theorem Inv.noneAlive (inv : job.Inv) (none : job.process = none) (i : Nat) : ¬(job.workers i).phase.Alive := by
  intro alive
  rw [inv.process i alive] at none
  cases none

theorem Inv.claim (inv : job.Inv) (none : job.process = none) (claimable : Claimable job.row) :
    (job.updateJobStatus .running).Inv := by
  have unfinished : ¬job.row.status.Finished := by
    rw [claimable.1]
    exact id
  exact ⟨inv.stored.claim claimable, inv.process, inv.scheduling, fun i => .idle (inv.noneAlive none i),
    fun i => (inv.requests i).unfinished unfinished⟩

/-- The scheduler starts a process, which knows nothing yet, or fails to. -/
theorem Inv.start (inv : job.Inv) (scheduling : job.scheduler ≠ .idle) (idle : ∀ row, worker.Knows row) :
    ({ job with process := some position, scheduler := .idle }.setWorker position worker).Inv := by
  have none := inv.noneAlive (inv.scheduling scheduling)
  refine ⟨inv.stored, fun i => ?_, fun busy => absurd rfl busy, fun i => ?_, inv.requests⟩
  · grind -linarith
  · have := inv.workers i
    grind -linarith

theorem Inv.schedulerSteps (inv : job.Inv) (stepped : job.stepScheduler event = some next) : next.Inv := by
  obtain ⟨stored, process, scheduling, workers, requests⟩ := id inv
  cases event with
  | claimSelected =>
    simp only [stepScheduler, Option.ite_none_right_eq_some, Option.some.injEq] at stepped
    obtain ⟨⟨-, none, -⟩, rfl⟩ := stepped
    exact ⟨stored, process, fun _ => none, workers, requests⟩
  | claimUpdated =>
    simp only [stepScheduler, Option.ite_none_right_eq_some] at stepped
    obtain ⟨selected, stepped⟩ := stepped
    have none := scheduling (by simp [selected])
    have claimed : ({ job with scheduler := .claimed } : ImportJob).Inv :=
      ⟨stored, process, fun _ => none, workers, requests⟩
    split at stepped
    · next claimable =>
      cases stepped
      exact claimed.claim none claimable
    · cases stepped
      exact claimed
  | claimDropped =>
    simp only [stepScheduler, Option.ite_none_right_eq_some, Option.some.injEq] at stepped
    obtain ⟨-, rfl⟩ := stepped
    exact ⟨stored, process, fun busy => absurd rfl busy, workers, requests⟩
  | started position =>
    simp only [stepScheduler, Option.ite_none_right_eq_some, Option.some.injEq] at stepped
    obtain ⟨⟨claimed, -⟩, rfl⟩ := stepped
    exact inv.start (by simp [claimed]) fun _ => trivial
  | startFailed position =>
    simp only [stepScheduler, Option.ite_none_right_eq_some, Option.some.injEq] at stepped
    obtain ⟨⟨claimed, -⟩, rfl⟩ := stepped
    exact inv.start (by simp [claimed]) fun _ => trivial
  | reaped =>
    simp only [stepScheduler] at stepped
    split at stepped
    · next position found =>
      simp only [Option.ite_none_right_eq_some, Option.some.injEq] at stepped
      obtain ⟨⟨-, dead⟩, rfl⟩ := stepped
      refine ⟨stored, fun i alive => ?_, fun _ => rfl, workers, requests⟩
      -- the process in the table is dead, and no other one was alive
      have same := process i alive
      rw [found, Option.some.injEq] at same
      rw [← same, dead] at alive
      exact alive.elim
    · cases stepped
  | recoverLoaded =>
    simp only [stepScheduler, Option.ite_none_right_eq_some, Option.some.injEq] at stepped
    obtain ⟨⟨-, none, -⟩, rfl⟩ := stepped
    exact ⟨stored, process, fun _ => none, workers, requests⟩
  | recoverWritten =>
    simp only [stepScheduler, Option.ite_none_right_eq_some, Option.some.injEq] at stepped
    obtain ⟨-, rfl⟩ := stepped
    have idle : ({ job with scheduler := .idle } : ImportJob).Inv :=
      ⟨stored, process, fun busy => absurd rfl busy, workers, requests⟩
    exact idle.finish trivial
  | stopRequested =>
    cases stepped
    exact ⟨stored, process, scheduling, workers, requests⟩
  | shutdown =>
    simp only [stepScheduler, Option.ite_none_right_eq_some, Option.some.injEq] at stepped
    obtain ⟨-, rfl⟩ := stepped
    refine ⟨stored, fun i => ?_, fun _ => rfl, fun i => .idle ?_, requests⟩
    · grind -linarith
    · grind -linarith
  | restarted =>
    simp only [stepScheduler, Option.ite_none_right_eq_some, Option.some.injEq] at stepped
    obtain ⟨-, rfl⟩ := stepped
    refine ⟨stored, process, scheduling, workers, fun i => ?_⟩
    dsimp only
    split <;> trivial
  | _ => cases stepped

theorem knows_turned {write : ImportWrite} {content : Nat} {report : Option Nat}
    (knows : (job.workers position).Knows job.row) (working : (job.workers position).phase = .working)
    (follows : write.Follows (job.workers position).payload.step) :
    ({ phase := .writing write, payload := write.prepare content report (job.workers position).payload } :
      ImportWorker).Knows job.row := by
  simp only [ImportWorker.Knows, working] at knows
  refine ⟨by cases write <;> trivial, knows.imp_right fun same => ?_⟩
  rw [same]
  exact ⟨rfl, .inr follows⟩

theorem knows_written (write : ImportWrite) (payload : ImportPayload) :
    ({ phase := write.phaseAfter, payload := payload } : ImportWorker).Knows ⟨write.status, payload⟩ := by
  cases write <;> first | exact .inr rfl | trivial

/-- A write that fails: within the commit the archive is deleted first. -/
theorem Inv.writeFails {write : ImportWrite} {report : Option Nat} (inv : job.Inv)
    (alive : (job.workers position).phase.Alive)
    (knows : job.row.status.Finished ∨
      job.row.status = .running ∧ (write = .failed ∨ write.Follows job.row.payload.step))
    (stepped : (if write.InCommit then some (job.setWorker position { job.workers position with phase := .cleaning true })
      else some (job.setWorker position
        { phase := .writing .failed
          payload := { (job.workers position).payload with validationReport := report } })) = some next) :
    next.Inv := by
  split at stepped
  · next commit =>
    cases stepped
    refine inv.setWorker (fun _ => alive) (knows.imp_right fun running => ⟨running.1, ?_⟩)
    rcases commit with rfl | rfl
    · exact .inl (running.2.resolve_left (by simp))
    · exact .inr (running.2.resolve_left (by simp))
  · cases stepped
    exact inv.setWorker (fun _ => alive) ⟨trivial, knows.imp_right fun running => ⟨running.1, .inl rfl⟩⟩

theorem Inv.workerSteps (inv : job.Inv) (calm : job.Calm event)
    (stepped : job.stepWorker event = some next) : next.Inv := by
  cases event with
  | stoppedEarly position =>
    simp only [stepWorker, Option.ite_none_right_eq_some, Option.some.injEq] at stepped
    obtain ⟨⟨spawned, -⟩, rfl⟩ := stepped
    exact inv.setWorker (fun _ => by rw [spawned]; trivial) trivial
  | loaded position =>
    simp only [stepWorker, Option.ite_none_right_eq_some] at stepped
    obtain ⟨spawned, stepped⟩ := stepped
    have alive : (job.workers position).phase.Alive := by
      rw [spawned]
      trivial
    split at stepped
    · next running =>
      cases stepped
      exact inv.setWorker (fun _ => alive) (.inr (by rw [← running.1]))
    · cases stepped
      exact inv.setWorker (fun _ => alive) trivial
  | turned position write content report =>
    simp only [stepWorker, Option.ite_none_right_eq_some, Option.some.injEq] at stepped
    obtain ⟨⟨working, follows⟩, rfl⟩ := stepped
    exact inv.setWorker (fun _ => by rw [working]; trivial) (knows_turned (inv.workers position) working follows)
  | commitFailed position =>
    simp only [stepWorker, Option.ite_none_right_eq_some, Option.some.injEq] at stepped
    obtain ⟨⟨working, importing⟩, rfl⟩ := stepped
    have knows := inv.workers position
    simp only [ImportWorker.Knows, working] at knows
    refine inv.setWorker (fun _ => by rw [working]; trivial) (knows.imp_right fun same => ?_)
    rw [same]
    exact ⟨rfl, .inr importing⟩
  | workerRead position =>
    simp only [stepWorker] at stepped
    split at stepped
    · next write writing =>
      cases stepped
      have knows := inv.workers position
      simp only [ImportWorker.Knows, writing] at knows
      exact inv.setWorker (fun _ => by rw [writing]; trivial)
        ⟨knows.1, knows.2.imp_right fun running => ⟨running.1, rfl, running.2⟩⟩
    · cases stepped
  | workerWritten position =>
    simp only [stepWorker] at stepped
    split at stepped
    · next write read writing =>
      cases stepped
      have knows := inv.workers position
      simp only [ImportWorker.Knows, writing] at knows
      -- Nobody has written since the worker loaded the row, so it is still the running row that it knows.
      have running : job.row.status = .running := calm
      have unfinished : ¬job.row.status.Finished := by
        rw [running]
        exact id
      obtain ⟨leaves, finished | ⟨-, same, follows⟩⟩ := knows
      · exact absurd finished unfinished
      · -- the row is what the merge has read, so the write leaves the worker's copy
        rw [← same, Row.merge_self]
        exact inv.workerWrites (by rw [writing]; trivial) unfinished
          (inv.stored.written running leaves follows) (knows_written write _)
    · cases stepped
  | writeFailed position report =>
    simp only [stepWorker] at stepped
    have knows := inv.workers position
    split at stepped
    · next write writing =>
      simp only [ImportWorker.Knows, writing] at knows
      exact inv.writeFails (by rw [writing]; trivial) knows.2 stepped
    · next write read writing =>
      simp only [ImportWorker.Knows, writing] at knows
      exact inv.writeFails (by rw [writing]; trivial) (knows.2.imp_right fun running => ⟨running.1, running.2.2⟩) stepped
    · cases stepped
  | archiveCleaned position report =>
    simp only [stepWorker] at stepped
    have knows := inv.workers position
    split at stepped
    · next cleaning =>
      cases stepped
      simp only [ImportWorker.Knows, cleaning] at knows
      -- Without the archive the row must not be claimable: it has finished, or its commit is over.
      have stored : Stored job.row none := by
        rcases knows with finished | ⟨running, commit⟩
        · exact .finished finished
        · exact inv.stored.commit running commit
      exact (inv.setArchive stored).setWorker (fun _ => by dsimp only; rw [cleaning]; trivial)
        ⟨trivial, knows.imp_right fun running => ⟨running.1, .inl rfl⟩⟩
    · next cleaning =>
      cases stepped
      simp only [ImportWorker.Knows, cleaning] at knows
      exact (inv.setArchive (.finished knows)).setWorker (fun _ => by dsimp only; rw [cleaning]; trivial) trivial
    · cases stepped
  | died position =>
    simp only [stepWorker] at stepped
    split at stepped
    · cases stepped
    · cases stepped
      exact inv.setWorker False.elim trivial
  | _ => cases stepped

/-- The job that an undisturbed request writes back waits. -/
theorem Inv.waiting {kind : MergeKind} {payload : ImportPayload} (inv : job.Inv)
    (unfinished : ¬job.row.status.Finished) (loads : kind.From job.row.payload payload) :
    job.row.status = .pending := by
  have runs := inv.stored.runs
  cases kind <;> grind -linarith

theorem Inv.requestSteps (inv : job.Inv) (calm : job.Calm event)
    (stepped : job.stepRequest event = some next) : next.Inv := by
  cases event with
  | uploadLoaded request =>
    simp only [stepRequest, Option.ite_none_right_eq_some] at stepped
    obtain ⟨-, stepped⟩ := stepped
    split at stepped
    · cases stepped
      exact inv.admit trivial
    · cases stepped
      exact inv.setRequest trivial
  | archiveStored request =>
    simp only [stepRequest, Option.ite_none_right_eq_some, Option.some.injEq] at stepped
    obtain ⟨-, rfl⟩ := stepped
    have stored : Stored job.row (some request) :=
      ⟨inv.stored.waits, inv.stored.runs, fun _ _ => Option.some_ne_none _, fun _ _ _ => Option.some_ne_none _⟩
    exact (inv.setArchive stored).setRequest trivial
  | archiveRejected request =>
    simp only [stepRequest, Option.ite_none_right_eq_some, Option.some.injEq] at stepped
    obtain ⟨-, rfl⟩ := stepped
    exact (inv.setArchive (inv.stored.await calm)).setRequest trivial
  | uploadFailed request =>
    simp only [stepRequest, Option.ite_none_right_eq_some, Option.some.injEq] at stepped
    obtain ⟨-, rfl⟩ := stepped
    exact inv.setRequest trivial
  | attachLoaded request name =>
    simp only [stepRequest, Option.ite_none_right_eq_some] at stepped
    obtain ⟨-, stepped⟩ := stepped
    split at stepped
    · next awaiting =>
      cases stepped
      exact inv.setRequest ⟨awaiting, rfl⟩
    · cases stepped
      exact inv.setRequest trivial
  | finalizeLoaded request input =>
    simp only [stepRequest, Option.ite_none_right_eq_some] at stepped
    obtain ⟨-, stepped⟩ := stepped
    split at stepped
    · next reviewed =>
      cases stepped
      exact inv.setRequest ⟨reviewed, rfl⟩
    · cases stepped
      exact inv.setRequest trivial
  | cancelLoaded request =>
    simp only [stepRequest, Option.ite_none_right_eq_some] at stepped
    obtain ⟨-, stepped⟩ := stepped
    split at stepped
    · next reviewed =>
      cases stepped
      exact inv.setRequest ⟨reviewed, rfl⟩
    · cases stepped
      exact inv.setRequest trivial
  | requestRead request =>
    simp only [stepRequest] at stepped
    split at stepped
    · next kind loaded payload merging =>
      cases stepped
      have loads := inv.requests request
      rw [merging] at loads
      simp only [Calm, Unchanged, merging] at calm
      exact inv.setRequest ⟨loads, calm.1⟩
    · cases stepped
  | requestWritten request =>
    simp only [stepRequest] at stepped
    split at stepped
    · next kind loaded payload read merging =>
      cases stepped
      have loads := inv.requests request
      rw [merging] at loads
      obtain ⟨loads, rfl⟩ := loads
      simp only [Calm, Unchanged, merging] at calm
      -- The merge has read the row that is there, so what it writes is what the request has made of it.
      obtain ⟨rfl, unfinished, archived⟩ := calm
      rw [Row.merge_self]
      exact inv.requestWrites (inv.waiting unfinished loads) (inv.stored.requested unfinished loads archived)
        (by cases kind <;> trivial)
    · cases stepped
  | requestCleaned request =>
    simp only [stepRequest, Option.ite_none_right_eq_some, Option.some.injEq] at stepped
    obtain ⟨cleaning, rfl⟩ := stepped
    -- A cancellation deletes the archive only after it has finished the job.
    have finished := inv.requests request
    rw [cleaning] at finished
    exact (inv.setArchive (.finished finished)).setRequest trivial
  | interruptLoaded request =>
    simp only [stepRequest, Option.ite_none_right_eq_some] at stepped
    obtain ⟨-, stepped⟩ := stepped
    split at stepped <;> cases stepped <;> exact inv.setRequest trivial
  | interruptWritten request =>
    simp only [stepRequest, Option.ite_none_right_eq_some, Option.some.injEq] at stepped
    obtain ⟨-, rfl⟩ := stepped
    have canceled : JobStatus.canceled.Finished := trivial
    exact (inv.finish canceled).setRequest trivial
  | _ => cases stepped

theorem Inv.initial : importJob.initial.Inv := by
  refine ⟨?_, fun _ => False.elim, fun busy => absurd rfl busy, fun _ => trivial, fun _ => trivial⟩
  constructor <;> simp [importJob, ImportStep.Waits]

theorem Inv.step (inv : job.Inv) (calm : job.Calm event) (stepped : job.step event = some next) :
    next.Inv := by
  rcases step_cases stepped with scheduler | worker | request
  · exact inv.schedulerSteps scheduler
  · exact inv.workerSteps calm worker
  · exact inv.requestSteps calm request

theorem step_row (stepped : job.step event = some next) (quiet : event.writes = none) : next.row = job.row := by
  rcases step_cases stepped with scheduler | worker | request
  · cases event <;> simp only [stepScheduler] at scheduler <;> grind -linarith [ImportEvent.writes]
  · cases event <;> simp only [stepWorker] at worker <;> grind -linarith [ImportEvent.writes]
  · cases event <;> simp only [stepRequest] at request <;> grind -linarith [ImportEvent.writes]

theorem row_of_finished (calm : job.Calm event) (finished : job.row.status.Finished)
    (stepped : job.step event = some next) : next.row = job.row := by
  cases event with
  | claimUpdated =>
    simp only [ImportJob.step, stepScheduler, stepWorker, stepRequest, Option.or_none,
      Option.ite_none_right_eq_some] at stepped
    obtain ⟨-, stepped⟩ := stepped
    split at stepped
    · next claimable =>
      rw [claimable.1] at finished
      exact finished.elim
    · cases stepped
      rfl
  | recoverWritten | workerWritten _ =>
    have running : job.row.status = .running := calm
    rw [running] at finished
    exact finished.elim
  | interruptWritten _ => exact absurd finished calm
  | requestWritten request =>
    simp only [ImportJob.step, stepScheduler, stepWorker, stepRequest, Option.none_or] at stepped
    split at stepped
    · next kind loaded payload read merging =>
      simp only [Calm, Unchanged, merging] at calm
      obtain ⟨rfl, unfinished, -⟩ := calm
      exact absurd finished unfinished
    · cases stepped
  | _ => exact step_row stepped rfl

theorem staysFinished (calm : job.Calm event) : job.StaysFinished event := by
  intro finished next stepped
  rw [row_of_finished calm finished stepped]
  exact ⟨rfl, .inl rfl⟩

theorem Inv.queuesWithArchive (inv : job.Inv) (calm : job.Calm event) : job.QueuesWithArchive event := by
  intro next stepped claimable _
  refine (inv.step calm stepped).stored.queued claimable.1 fun awaiting => ?_
  rcases claimable.2 with step | step <;> rw [awaiting] at step <;> cases step

end ImportJob

def ImportRequest.Holds (row : Row ImportPayload) : ImportRequest → Prop
  | .merging _ loaded _ | .mergingRead _ loaded _ _ => row = loaded ∧ ¬loaded.status.Finished
  | .interrupting => ¬row.status.Finished
  | .absent | .uploading | .stored | .cleaning | .concluded => True

def ImportWorkerPhase.Holds : ImportWorkerPhase → Prop
  | .working | .writing _ | .writingRead _ _ | .cleaning true => True
  | .absent | .spawned | .cleaning false | .concluded | .dead => False

namespace ImportJob

variable {job next : ImportJob} {event : ImportEvent} {overtaken : ImportParty → Bool} {i : Nat}

/-- What the parties that have not been overtaken find, and the uploads in progress. -/
structure Watched (job : ImportJob) (overtaken : ImportParty → Bool) : Prop where
  inv : job.Inv
  sound : job.Sound
  exclusive : job.Exclusive
  archived : ∀ i, (job.requests i).Stored → job.archive = some i
  requests : ∀ i, overtaken (.request i) = false → (job.requests i).Holds job.row
  workers : ∀ i, overtaken (.worker i) = false → (job.workers i).phase.Holds → job.row.status = .running
  recovering : overtaken .scheduler = false → job.scheduler = .recovering → job.row.status = .running

theorem Undisturbed.alone (undisturbed : Undisturbed (job, overtaken) event) : job.AdmitsAlone event := by
  cases event <;> first | exact undisturbed | trivial

theorem step_archive (stepped : job.step event = some next) :
    next.archive = job.archive ∨ (∃ request, event = .archiveStored request ∧ job.requests request = .uploading ∧
      next.archive = some request) ∨ (∃ request, event = .archiveRejected request) ∨
      (∃ request, event = .requestCleaned request) ∨ ∃ worker report, event = .archiveCleaned worker report := by
  rcases step_cases stepped with scheduler | worker | request
  · cases event <;> simp only [stepScheduler] at scheduler <;> grind -linarith
  · cases event <;> simp only [stepWorker] at worker <;> grind -linarith
  · cases event <;> simp only [stepRequest] at request <;> grind -linarith

theorem Watched.calm (watched : job.Watched overtaken) (undisturbed : Undisturbed (job, overtaken) event)
    (stepped : job.step event = some next) : job.Calm event := by
  cases event with
  | requestRead request | requestWritten request =>
    have held := watched.requests request undisturbed
    simp only [Calm, Unchanged]
    split
    next merging =>
      rw [merging] at held
      exact held
    next merging =>
      rw [merging] at held
      exact ⟨held.1, held.2, fun attach => watched.archived request (by rw [merging]; exact attach)⟩
    next => trivial
  | interruptWritten request =>
    have held := watched.requests request undisturbed
    simp only [ImportJob.step, stepScheduler, stepWorker, stepRequest, Option.none_or,
      Option.ite_none_right_eq_some] at stepped
    rw [stepped.1] at held
    exact held
  | workerRead worker | workerWritten worker =>
    refine watched.workers worker undisturbed ?_
    simp only [ImportJob.step, stepScheduler, stepWorker, stepRequest, Option.none_or, Option.or_none] at stepped
    split at stepped
    next writing =>
      rw [writing]
      trivial
    next => cases stepped
  | recoverWritten =>
    simp only [ImportJob.step, stepScheduler, stepWorker, stepRequest, Option.or_none,
      Option.ite_none_right_eq_some] at stepped
    exact watched.recovering undisturbed stepped.1
  | archiveRejected request =>
    -- The upload that is rejected is the one admitted last, so no other archive is deleted.
    have stored := (archiveRejected_eq stepped).1
    exact (watched.exclusive request (by rw [stored]; trivial)).2
  | _ => trivial

theorem Watched.stepArchived (watched : job.Watched overtaken) (stepped : job.step event = some next)
    (stored : (next.requests i).Stored) : next.archive = some i := by
  rcases (request_before (i := i) stepped).1 stored with already | ⟨rfl, uploading⟩
  · have uploads := already.uploads
    obtain ⟨admitted, awaits⟩ := watched.exclusive i uploads
    have archived := watched.archived i already
    obtain ⟨notCanceled, notImported⟩ := watched.sound.cleans stepped awaits
    rcases step_archive stepped with same | ⟨other, rfl, uploading, -⟩ | ⟨other, rfl⟩ | ⟨other, rfl⟩ | ⟨worker, report, rfl⟩
    · rw [same]
      exact archived
    · have own := (watched.exclusive other (by rw [uploading]; trivial)).1
      cases admitted.symm.trans own
      rw [uploading] at already
      exact already.elim
    · obtain ⟨storedOther, concluded⟩ := archiveRejected_eq stepped
      have own := (watched.exclusive other (by rw [storedOther]; trivial)).1
      cases admitted.symm.trans own
      rw [concluded] at stored
      exact stored.elim
    · exact absurd rfl (notCanceled other)
    · exact absurd rfl (notImported worker report)
  · simp only [ImportJob.step, stepScheduler, stepWorker, stepRequest, Option.none_or, Option.ite_none_right_eq_some,
      Option.some.injEq] at stepped
    obtain ⟨-, rfl⟩ := stepped
    rfl

attribute [local grind] ImportRequest.Holds ImportWorkerPhase.Holds ImportEvent.loads ImportEvent.writes
  ImportEvent.overtake Undisturbed MergeKind.requestAfter

theorem Watched.stepRequests (watched : job.Watched overtaken) (undisturbed : Undisturbed (job, overtaken) event)
    (stepped : job.step event = some next) (ahead : event.overtake overtaken (.request i) = false) :
    (next.requests i).Holds next.row := by
  have held := watched.requests i
  rcases step_cases stepped with scheduler | worker | request
  · have requests := (stepScheduler_frame scheduler).2.2.1 i
    cases event <;> simp only [stepScheduler] at scheduler <;> grind -linarith
  · have requests := (stepWorker_frame worker).1
    cases event <;> simp only [stepWorker] at worker <;> grind -linarith
  · cases event with
    | requestWritten position =>
      -- the writer has no write to come, and everyone else is overtaken
      have own : i = position := by
        by_contra other
        simp [ImportEvent.overtake, ImportEvent.loads, ImportEvent.writes, Ne.symm other] at ahead
      subst own
      simp only [stepRequest] at request
      split at request
      next kind loaded payload read merging =>
        cases request
        rw [setRequest_requests, if_pos rfl]
        cases kind <;> trivial
      next => cases request
    | _ =>
      simp only [stepRequest] at request
      grind -linarith

theorem Watched.stepWorkers (watched : job.Watched overtaken)
    (stepped : job.step event = some next) (ahead : event.overtake overtaken (.worker i) = false)
    (holds : (next.workers i).phase.Holds) : next.row.status = .running := by
  have held := watched.workers i
  rcases step_cases stepped with scheduler | worker | request
  · have workers := (stepScheduler_frame scheduler).2.1 i
    cases event <;> simp only [stepScheduler] at scheduler <;> grind -linarith
  · cases event with
    | workerWritten position =>
      have own : i = position := by
        by_contra other
        simp [ImportEvent.overtake, ImportEvent.loads, ImportEvent.writes, Ne.symm other] at ahead
      subst own
      simp only [stepWorker] at worker
      split at worker
      next write read writing =>
        cases worker
        have running := held (by simpa [ImportEvent.overtake, ImportEvent.loads, ImportEvent.writes] using ahead)
          (by rw [writing]; trivial)
        rw [setWorker_workers, if_pos rfl] at holds
        -- it goes on after a write that leaves the job running
        have goesOn : write.status = .running := by
          cases write <;> first | rfl | exact holds.elim
        simp only [setWorker_row, Row.merge_status, goesOn, running, ite_self]
      next => cases worker
    | _ =>
      simp only [stepWorker] at worker
      grind -linarith
  · have workers := (stepRequest_frame request).1
    cases event <;> simp only [stepRequest] at request <;> grind -linarith

theorem Watched.stepRecovering (watched : job.Watched overtaken) (stepped : job.step event = some next)
    (ahead : event.overtake overtaken .scheduler = false) (recovering : next.scheduler = .recovering) :
    next.row.status = .running := by
  have held := watched.recovering
  rcases step_cases stepped with scheduler | worker | request
  · cases event <;> simp only [stepScheduler] at scheduler <;> grind -linarith
  · have same := (stepWorker_frame worker).2.1
    cases event <;> simp only [stepWorker] at worker <;> grind -linarith
  · have same := (stepRequest_frame request).2.1
    cases event <;> simp only [stepRequest] at request <;> grind -linarith

theorem Watched.step (watched : job.Watched overtaken) (undisturbed : Undisturbed (job, overtaken) event)
    (stepped : job.step event = some next) : next.Watched (event.overtake overtaken) where
  inv := watched.inv.step (watched.calm undisturbed stepped) stepped
  sound := (watched.sound.step stepped).1
  exclusive := watched.exclusive.step watched.sound undisturbed.alone stepped
  archived _ stored := watched.stepArchived stepped stored
  requests _ ahead := watched.stepRequests undisturbed stepped ahead
  workers _ ahead holds := watched.stepWorkers stepped ahead holds
  recovering ahead recovering := watched.stepRecovering stepped ahead recovering

theorem Watched.initial : importJob.initial.Watched fun _ => false where
  inv := .initial
  sound := ⟨fun _ loaded => loaded.elim, fun _ => trivial⟩
  exclusive _ uploads := uploads.elim
  archived _ stored := stored.elim
  requests _ _ := trivial
  workers _ _ holds := holds.elim
  recovering _ recovering := by cases recovering

end ImportJob

/-- In a run in which nobody writes the job who was overtaken, a finished import stays finished, and none is queued
without its archive. -/
theorem imports_stay_finished {history : List ImportEvent}
    (undisturbed : watchedImport.Throughout ImportJob.Undisturbed history) :
    importJob.Throughout (fun job event => job.StaysFinished event ∧ job.QueuesWithArchive event) history := by
  have held : watchedImport.Throughout (fun state event => state.1.Watched state.2 ∧ ImportJob.Undisturbed state event)
      history := System.invariant_throughout
    (P := fun state : ImportJob × (ImportParty → Bool) => state.1.Watched state.2) ImportJob.Watched.initial
    (fun _ _ _ watched undisturbed stepped => by
      obtain ⟨job, moved, rfl⟩ := Option.map_eq_some_iff.mp stepped
      exact watched.step undisturbed moved) undisturbed
  refine System.Throughout.of_observed (System.Throughout.mono ?_ held)
  rintro ⟨job, overtaken⟩ event ⟨watched, undisturbed⟩
  refine ⟨fun finished next stepped => ?_, fun next stepped => ?_⟩
  · exact ImportJob.staysFinished (watched.calm undisturbed stepped) finished next stepped
  · exact watched.inv.queuesWithArchive (watched.calm undisturbed stepped) next stepped

end PhysicalAiStudio.Jobs
