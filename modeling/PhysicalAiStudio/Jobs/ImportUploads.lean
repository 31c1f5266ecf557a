import PhysicalAiStudio.Jobs.ImportJob

/-! The uploads of an import job, and its wait for an archive.

An upload is admitted while the job awaits its archive, and nothing but the write of an upload
ends the wait. Uploads that are admitted one at a time find the job awaiting until they end.
-/

set_option autoImplicit false

namespace PhysicalAiStudio.Jobs

namespace ImportJob

def Awaits (job : ImportJob) : Prop := job.row.payload.step = .awaitingArchiveUpload

instance (job : ImportJob) : Decidable job.Awaits := inferInstanceAs (Decidable (_ = _))

def Attaches (job : ImportJob) (request : Nat) : Prop :=
  ∃ loaded payload read, job.requests request = .mergingRead .attach loaded payload read

def AdmitsAlone (job : ImportJob) : ImportEvent → Prop
  | .uploadLoaded _ => ∀ earlier ∈ job.admitted, ¬(job.requests earlier).Uploads
  | _ => True

instance (job : ImportJob) : (event : ImportEvent) → Decidable (job.AdmitsAlone event)
  | .uploadLoaded _ => inferInstanceAs (Decidable (∀ earlier ∈ job.admitted, _))
  | .claimSelected | .claimUpdated | .claimDropped | .started _ | .startFailed _ | .reaped | .recoverLoaded
  | .recoverWritten | .stopRequested | .shutdown | .restarted | .stoppedEarly _ | .loaded _ | .turned _ _ _ _
  | .commitFailed _ | .workerRead _ | .workerWritten _ | .writeFailed _ _ | .archiveCleaned _ _ | .died _
  | .archiveStored _ | .archiveRejected _ | .uploadFailed _ | .attachLoaded _ _ | .finalizeLoaded _ _ | .cancelLoaded _
  | .requestRead _ | .requestWritten _ | .requestCleaned _ | .interruptLoaded _ | .interruptWritten _ =>
    inferInstanceAs (Decidable True)

end ImportJob

def ImportWorkerPhase.Loaded : ImportWorkerPhase → Prop
  | .working | .writing _ | .writingRead _ _ | .cleaning _ => True
  | .absent | .spawned | .concluded | .dead => False

/-- The upload has stored its body and not yet queued the job. -/
def ImportRequest.Stored : ImportRequest → Prop
  | .stored => True
  | .merging kind _ _ | .mergingRead kind _ _ _ => kind = .attach
  | _ => False

theorem ImportRequest.Stored.uploads {request : ImportRequest} (stored : request.Stored) : request.Uploads := by
  cases request <;> first | exact stored | exact stored.elim

/-- What a request knows of a job that awaits its archive, or no longer does. -/
def ImportRequest.Sound (awaits : Prop) : ImportRequest → Prop
  | .merging kind _ payload => payload.step ≠ .awaitingArchiveUpload ∧ (kind ≠ .attach → ¬awaits)
  | .mergingRead kind _ payload read => payload.step ≠ .awaitingArchiveUpload ∧ (kind ≠ .attach → ¬awaits) ∧
    (read.payload.step ≠ .awaitingArchiveUpload → ¬awaits)
  | .cleaning => ¬awaits
  | _ => True

theorem ImportRequest.Sound.mono {before after : Prop} {request : ImportRequest} (sound : request.Sound before)
    (left : ¬before → ¬after) : request.Sound after := by
  cases request with
  | merging kind loaded payload => exact ⟨sound.1, fun other => left (sound.2 other)⟩
  | mergingRead kind loaded payload read =>
    exact ⟨sound.1, fun other => left (sound.2.1 other), fun read => left (sound.2.2 read)⟩
  | cleaning => exact left sound
  | _ => trivial

namespace ImportJob

variable {job next : ImportJob} {event : ImportEvent} {i position : Nat}

/-- Nothing is under way that would make the job await its archive again. -/
structure Sound (job : ImportJob) : Prop where
  workers : ∀ i, (job.workers i).phase.Loaded → (job.workers i).payload.step ≠ .awaitingArchiveUpload ∧ ¬job.Awaits
  requests : ∀ i, (job.requests i).Sound job.Awaits

attribute [local grind] ImportWorkerPhase.Loaded ImportRequest.Sound ImportRequest.Stored Awaits ImportStep.Queued
  ImportWrite.prepare ImportWrite.phaseAfter MergeKind.requestAfter Claimable

theorem Sound.scheduler (sound : job.Sound) (stepped : job.stepScheduler event = some next) : next.Sound := by
  obtain ⟨payload, workers, requests, -⟩ := stepScheduler_frame stepped
  have awaits : next.Awaits ↔ job.Awaits := by
    rw [Awaits, payload, Awaits]
  constructor
  · intro i loaded
    rw [awaits]
    rcases workers i with same | spawned | dead
    · exact same ▸ sound.workers i (same ▸ loaded)
    · rw [spawned] at loaded
      exact loaded.elim
    · rw [dead] at loaded
      exact loaded.elim
  · intro i
    rw [awaits]
    rcases requests i with same | gone
    · exact same ▸ sound.requests i
    · rw [gone]
      trivial

theorem Sound.worker (sound : job.Sound) (stepped : job.stepWorker event = some next) :
    (next.Awaits ↔ job.Awaits) ∧
      ∀ i, (next.workers i).phase.Loaded → (next.workers i).payload.step ≠ .awaitingArchiveUpload ∧ ¬job.Awaits := by
  have known := sound.workers
  cases event with
  | workerWritten position =>
    simp only [stepWorker] at stepped
    split at stepped
    next write read writing =>
      cases stepped
      -- the merge leaves the worker's payload, or the row's
      obtain ⟨step, left⟩ := known position (by rw [writing]; trivial)
      refine ⟨⟨fun awaits => ?_, fun awaits => absurd awaits left⟩, fun i loaded => ?_⟩
      · simp only [Awaits, setWorker_row, Row.merge_payload] at awaits
        split at awaits
        · exact awaits
        · exact absurd awaits step
      · rw [setWorker_workers] at loaded ⊢
        split at loaded
        next same => rw [if_pos same]; exact ⟨step, left⟩
        next other => rw [if_neg other]; exact known i loaded
    next => cases stepped
  | stoppedEarly _ | loaded _ | commitFailed _ | workerRead _ | writeFailed _ _ | archiveCleaned _ _ | died _ =>
    simp only [stepWorker] at stepped
    grind -linarith
  | turned position write content report =>
    simp only [stepWorker] at stepped
    cases write <;> grind -linarith
  | _ => cases stepped

theorem Sound.asked (sound : job.Sound) (stepped : job.stepRequest event = some next) :
    (∀ i, (next.requests i).Sound next.Awaits) ∧ (next.Awaits → job.Awaits) ∧
      (job.Awaits → next.Awaits ∨ ∃ request, event = .requestWritten request ∧ job.Attaches request) := by
  have asked := sound.requests
  cases event with
  | requestWritten request =>
    simp only [stepRequest] at stepped
    split at stepped
    next kind loaded payload read merging =>
      cases stepped
      have own := asked request
      rw [merging] at own
      obtain ⟨step, kinds, -⟩ := own
      have left : Awaits { job with row := Row.merge read ⟨kind.status, payload⟩ job.row } → job.Awaits := by
        intro awaits
        simp only [Awaits, Row.merge_payload] at awaits
        split at awaits
        · exact awaits
        · exact absurd awaits step
      refine ⟨fun i => ?_, left, fun awaits => .inr ⟨request, rfl, ?_⟩⟩
      · rw [setRequest_requests]
        split
        next =>
          cases kind with
          | cancel => exact fun awaits => kinds (by simp) (left awaits)
          | attach | finalize => trivial
        next => exact (asked i).mono fun gone awaits => gone (left awaits)
      · -- a finalization and a cancellation have seen the job leave the wait
        cases kind with
        | attach => exact ⟨loaded, payload, read, merging⟩
        | finalize | cancel => exact absurd awaits (kinds (by simp))
    next => cases stepped
  | uploadLoaded _ | archiveStored _ | archiveRejected _ | uploadFailed _ | attachLoaded _ _ | finalizeLoaded _ _ | cancelLoaded _
  | requestRead _ | requestCleaned _ | interruptLoaded _ | interruptWritten _ =>
    simp only [stepRequest] at stepped
    grind -linarith [Attaches]
  | _ => cases stepped

theorem Sound.step (sound : job.Sound) (stepped : job.step event = some next) :
    next.Sound ∧ (next.Awaits → job.Awaits) ∧
      (job.Awaits → next.Awaits ∨ ∃ request, event = .requestWritten request ∧ job.Attaches request) := by
  rcases step_cases stepped with scheduler | worker | request
  · have same : next.Awaits ↔ job.Awaits := by
      rw [Awaits, (stepScheduler_frame scheduler).1, Awaits]
    exact ⟨sound.scheduler scheduler, same.mp, fun awaits => .inl (same.mpr awaits)⟩
  · obtain ⟨same, workers⟩ := sound.worker worker
    refine ⟨⟨fun i loaded => ?_, fun i => ?_⟩, same.mp, fun awaits => .inl (same.mpr awaits)⟩
    · rw [same]
      exact workers i loaded
    · rw [(stepWorker_frame worker).1, same]
      exact sound.requests i
  · obtain ⟨requests, left, leaves⟩ := sound.asked request
    refine ⟨⟨fun i loaded => ?_, requests⟩, left, leaves⟩
    rw [(stepRequest_frame request).1] at loaded ⊢
    exact ⟨(sound.workers i loaded).1, fun awaits => (sound.workers i loaded).2 (left awaits)⟩

theorem requestAfter_cases (kind : MergeKind) : kind.requestAfter = .concluded ∨ kind.requestAfter = .cleaning := by
  cases kind <;> simp [MergeKind.requestAfter]

/-- An upload that has stored its body, or is about to, was at the same point before, or gets there now. -/
theorem request_before (stepped : job.step event = some next) :
    ((next.requests i).Stored → (job.requests i).Stored ∨ event = .archiveStored i ∧ job.requests i = .uploading) ∧
      (next.requests i = .uploading → job.requests i = .uploading ∨ job.requests i = .absent) ∧
      (next.requests i = .absent → job.requests i = .absent) := by
  rcases step_cases stepped with scheduler | worker | request
  · rcases (stepScheduler_frame scheduler).2.2.1 i with same | gone
    · rw [same]
      exact ⟨.inl, .inl, id⟩
    · rw [gone]
      simp [ImportRequest.Stored]
  · rw [(stepWorker_frame worker).1]
    exact ⟨.inl, .inl, id⟩
  · cases event <;> simp only [stepRequest] at request <;> grind -linarith [requestAfter_cases]

/-- While the job awaits its archive, nobody deletes it but an upload that finds it invalid. -/
theorem Sound.cleans (sound : job.Sound) (stepped : job.step event = some next) (awaits : job.Awaits) :
    (∀ request, event ≠ .requestCleaned request) ∧ ∀ worker report, event ≠ .archiveCleaned worker report := by
  constructor
  · rintro request rfl
    have cleaned : job.stepRequest (.requestCleaned request) = some next := by
      simpa [ImportJob.step, stepScheduler, stepWorker] using stepped
    simp only [stepRequest, Option.ite_none_right_eq_some] at cleaned
    have left := sound.requests request
    rw [cleaned.1] at left
    exact left awaits
  · rintro worker report rfl
    have cleaned : job.stepWorker (.archiveCleaned worker report) = some next := by
      simpa [ImportJob.step, stepScheduler, stepRequest] using stepped
    have loaded : (job.workers worker).phase.Loaded := by
      simp only [stepWorker] at cleaned
      split at cleaned
      next cleaning => rw [cleaning]; trivial
      next cleaning => rw [cleaning]; trivial
      next => cases cleaned
    exact (sound.workers worker loaded).2 awaits

theorem archiveRejected_eq {request : Nat} (stepped : job.step (.archiveRejected request) = some next) :
    job.requests request = .stored ∧ next.requests request = .concluded := by
  simp only [ImportJob.step, stepScheduler, stepWorker, stepRequest, Option.none_or, Option.ite_none_right_eq_some,
    Option.some.injEq] at stepped
  obtain ⟨stored, rfl⟩ := stepped
  exact ⟨stored, by rw [setRequest_requests, if_pos rfl]⟩

def Exclusive (job : ImportJob) : Prop :=
  ∀ i, (job.requests i).Uploads → job.admitted = some i ∧ job.Awaits

attribute [local grind] ImportRequest.Uploads

theorem stepRequest_uploads (stepped : job.stepRequest event = some next) (uploads : (next.requests i).Uploads) :
    (job.requests i).Uploads ∨
      event = .uploadLoaded i ∧ job.requests i = .absent ∧ job.Awaits ∧ next.admitted = some i := by
  cases event <;> simp only [stepRequest] at stepped <;> grind -linarith [requestAfter_cases]

theorem step_admitted (stepped : job.step event = some next) (other : ∀ request, event ≠ .uploadLoaded request) :
    next.admitted = job.admitted := by
  rcases step_cases stepped with scheduler | worker | request
  · exact (stepScheduler_frame scheduler).2.2.2
  · exact (stepWorker_frame worker).2.2.2
  · cases event <;> simp only [stepRequest] at request <;> grind -linarith

theorem uploads_before (stepped : job.step event = some next) (uploads : (next.requests i).Uploads) :
    (job.requests i).Uploads ∨
      event = .uploadLoaded i ∧ job.requests i = .absent ∧ job.Awaits ∧ next.admitted = some i := by
  rcases step_cases stepped with scheduler | worker | request
  · rcases (stepScheduler_frame scheduler).2.2.1 i with same | gone
    · exact .inl (same ▸ uploads)
    · rw [gone] at uploads
      exact uploads.elim
  · rw [(stepWorker_frame worker).1] at uploads
    exact .inl uploads
  · exact stepRequest_uploads request uploads

theorem Exclusive.step (exclusive : job.Exclusive) (sound : job.Sound) (alone : job.AdmitsAlone event)
    (stepped : job.step event = some next) : next.Exclusive := by
  obtain ⟨-, -, leaves⟩ := sound.step stepped
  intro i uploads
  have awaits : job.Awaits → next.Awaits := by
    intro awaits
    rcases leaves awaits with still | ⟨request, rfl, loaded, payload, read, attaching⟩
    · exact still
    · -- the upload that ends the wait is the only one in progress, and ends with it
      have own : (job.requests request).Uploads := by
        rw [attaching]
        rfl
      have before := (uploads_before stepped uploads).resolve_right (by simp)
      have same := (exclusive i before).1.symm.trans (exclusive request own).1
      cases same
      have ended := stepped
      simp only [ImportJob.step, stepScheduler, stepWorker, stepRequest, attaching, Option.none_or,
        Option.some.injEq] at ended
      rw [← ended, setRequest_requests, if_pos rfl] at uploads
      exact uploads.elim
  rcases uploads_before stepped uploads with before | ⟨rfl, -, awaiting, admitted⟩
  · obtain ⟨admitted, awaiting⟩ := exclusive i before
    have other (request : Nat) : event ≠ .uploadLoaded request := by
      rintro rfl
      exact alone i admitted before
    exact ⟨(step_admitted stepped other).trans admitted, awaits awaiting⟩
  · exact ⟨admitted, awaits awaiting⟩

end ImportJob

end PhysicalAiStudio.Jobs
