import PhysicalAiStudio.Trainer.JobFiles

/-! What is left on disk of a job that has failed, was canceled or was deleted.

The model, the cache and the archive exist only while a run is on or of a completed job. The
partial ZIP and the dataset are the uploads': how the last of them has ended, and how far a run has
come, says what is left of them when the job ends.
-/

set_option autoImplicit false

namespace PhysicalAiStudio.Trainer

open Concurrency

def PutPhase.InFlight (phase : PutPhase) : Prop := phase = .streaming ∨ phase = .validating ∨ phase = .extracting

structure JobFiles.Removed (left : List JobPath) (files : JobFiles) : Prop where
  model : .model ∉ left → files.model = false
  cache : .cache ∉ left → files.cache = false
  archive : .archive ∉ left → files.archive = false

theorem JobFiles.removed_iff {files : JobFiles} {left : List JobPath} : files.Removed left ↔
    (.model ∉ left → files.model = false) ∧ (.cache ∉ left → files.cache = false) ∧
      (.archive ∉ left → files.archive = false) :=
  ⟨fun removed => ⟨removed.model, removed.cache, removed.archive⟩, fun all => ⟨all.1, all.2.1, all.2.2⟩⟩

namespace JobDisk

def Over (disk : JobDisk) : Prop :=
  disk.status = none ∨ disk.status = some .failed ∨ disk.status = some .canceled

instance (disk : JobDisk) : Decidable disk.Over := inferInstanceAs (Decidable (_ ∨ _))

structure Quiet (disk : JobDisk) : Prop where
  puts : ∀ put, disk.puts put = .absent ∨ disk.puts put = .answered
  run : disk.run = .idle
  deletes : ∀ delete, disk.deletes delete = .absent ∨ disk.deletes delete = .answered

def Flying (disk : JobDisk) (except : Option Nat) : Prop := ∃ put, some put ≠ except ∧ (disk.puts put).InFlight

def Uploaded (disk : JobDisk) (ends : List UploadEnd) : Prop :=
  disk.Flying none ∨ ∀ ended ∈ disk.lastUpload, ended ∈ ends

/-- Every removal succeeds, and the job, its row or an upload of it ends only where the code removes what there can be.

A job that waits is canceled after its last upload has cleaned up, or during one; a run that does not complete its job
has trained and not yet archived; the service is not restarted during a run or an upload; and an upload that ends without
a cleanup is not the last one of a job that is over. -/
def Clears (disk : JobDisk) : FileEvent → Prop
  | .cancelRequested => disk.status = some .queued ∨ disk.status = some .awaitingDataset → disk.Uploaded [.cleaned]
  -- A run that archived its model, or one that trained on a dataset whose last upload is over or still goes on.
  | .runEnded failing => failing = [] ∧
    ((disk.cancelRequested = false ∧ ∃ path, disk.run = .finished .archiving (.archived path)) ∨
      disk.run.stage = .trained ∧ disk.Uploaded [.cleaned, .queued])
  | .deleteEnded _ => disk.Uploaded [.cleaned, .queued]
  | .restarted => disk.status ≠ some .running ∧ ¬disk.Flying none ∧
    (disk.status = some .awaitingDataset → disk.Uploaded [.cleaned])
  | .streamEnded put | .extractionFailed put => disk.Over → disk.Flying (some put)
  | .extracted put failing => failing = [] ∧ (disk.status = none → disk.Flying (some put))
  | .noHeadroom _ failing | .rejected _ failing | .trainingSucceeded failing | .trainingCanceled failing
  | .trainingFailed _ failing | .pathRemoved _ _ failing => failing = []
  | _ => True

def Cleared (disk : JobDisk) (except : Option Nat) : Prop :=
  disk.files.upload = false ∧ disk.files.dataset = false ∨ disk.Flying except

/-- What a step that ends the job, its row or an upload of it then leaves to others. -/
def Sweeps (disk : JobDisk) : FileEvent → Prop
  | .cancelRequested => disk.status = some .queued ∨ disk.status = some .awaitingDataset → disk.Cleared none
  | .runEnded _ =>
    (disk.cancelRequested = false ∧ ∃ path, disk.run = .finished .archiving (.archived path)) ∨
      disk.Cleared none ∧ disk.files.archive = false
  | .deleteEnded _ => disk.Cleared none
  | .restarted => disk.status = some .queued ∨ disk.status = some .completed ∨ disk.files = {}
  | .streamEnded put | .extractionFailed put => disk.Over → disk.Cleared (some put)
  | .extracted put _ => disk.status = none → disk.Cleared (some put)
  | _ => True

def Removes : FileEvent → Prop
  | .noHeadroom _ failing | .rejected _ failing | .extracted _ failing | .trainingSucceeded failing
  | .trainingCanceled failing | .trainingFailed _ failing | .runEnded failing | .pathRemoved _ _ failing => failing = []
  | _ => True

variable {disk next : JobDisk} {event : FileEvent} {i put delete : Nat} {phase : PutPhase} {deleting : DeletePhase}
  {change : JobRow → JobRow}

@[simp, grind =]
theorem setPut_puts : (disk.setPut put phase).puts i = if i = put then phase else disk.puts i := by
  simp only [setPut, Function.update_apply]

@[simp, grind =]
theorem endUpload_puts {ended : UploadEnd} :
    (disk.endUpload put ended).puts i = if i = put then .answered else disk.puts i := setPut_puts

@[simp, grind =]
theorem setDelete_deletes :
    (disk.setDelete delete deleting).deletes i = if i = delete then deleting else disk.deletes i := by
  simp only [setDelete, Function.update_apply]

@[simp, grind =]
theorem setDelete_files : (disk.setDelete delete deleting).files = disk.files := rfl

structure Inv (disk : JobDisk) : Prop where
  uploads : disk.Over → disk.Cleared none
  running : disk.run ≠ .idle ↔ disk.status = some .running
  outputs : disk.files.model = true ∨ disk.files.cache = true → disk.run ≠ .idle ∨ disk.status = some .completed
  archive : disk.files.archive = true → disk.run.stage = .archiving ∨ disk.status = some .completed
  ended : ∀ delete left, disk.deletes delete = .removing left → ∀ status, disk.status = some status → status.Terminal
  removed : ∀ delete left, disk.deletes delete = .removing left → disk.files.Removed left

attribute [local grind] PutPhase.InFlight TrainerJobStatus.Terminal
attribute [local grind =] JobFiles.removed_iff

/-- An upload neither touches the outputs nor moves the run, and leaves the status or queues the job. -/
structure UploadFrame (disk next : JobDisk) : Prop where
  model : next.files.model = disk.files.model
  cache : next.files.cache = disk.files.cache
  archive : next.files.archive = disk.files.archive
  run : next.run = disk.run
  deletes : ∀ delete, next.deletes delete = disk.deletes delete
  status : next.status = disk.status ∨ disk.status = some .awaitingDataset ∧ next.status = some .queued

theorem Inv.uploads_moved (inv : disk.Inv) (frame : UploadFrame disk next)
    (uploads : next.Over → next.Cleared none) : next.Inv := by
  obtain ⟨model, cache, archive, run, deletes, status⟩ := frame
  obtain ⟨-, running, outputs, archived, ended, removed⟩ := inv
  constructor <;> grind -linarith

@[simp] theorem cleanupJobOutputs_nil (files : JobFiles) :
    files.cleanupJobOutputs [] = { files with model := false, cache := false } := rfl

/-- The ways in which an extraction ends: the job is gone, it is queued, or the upload is cleaned up. -/
structure ReadyEnds (put : Nat) (disk next : JobDisk) : Prop where
  frame : UploadFrame disk next
  puts : ∀ i, next.puts i = if i = put then .answered else disk.puts i
  upload : next.files.upload = false
  ends : disk.status = none ∧ next.files.dataset = disk.files.dataset ∧ next.lastUpload = some .abandoned ∨
    next.status = some .queued ∧ next.lastUpload = some .queued ∨
    next.files.dataset = false ∧ next.lastUpload = some .cleaned

theorem markDatasetReady_ends (put : Nat) (disk : JobDisk) : ReadyEnds put disk (disk.markDatasetReady put []) := by
  cases found : disk.row with
  | none =>
    have same : disk.markDatasetReady put [] =
        ({ disk with files := disk.files.removePath .upload } : JobDisk).endUpload put .abandoned := by
      simp [markDatasetReady, updateRow, found]
    rw [same]
    exact ⟨⟨rfl, rfl, rfl, rfl, fun _ => rfl, .inl rfl⟩, fun _ => endUpload_puts, rfl,
      .inl ⟨by simp [status, found], rfl, rfl⟩⟩
  | some row =>
    -- The row was waiting or queued already, or it has ended in between.
    by_cases queued : (queueAwaiting row).status = .queued
    · have same : disk.markDatasetReady put [] = ({ disk with
          files := disk.files.removePath .upload
          row := some (queueAwaiting row) } : JobDisk).endUpload put .queued := by
        simp [markDatasetReady, updateRow, status, found, queued]
      have after : (disk.markDatasetReady put []).status = some .queued := by
        rw [same]
        exact congrArg some queued
      have before : disk.status = some .queued ∨ disk.status = some .awaitingDataset := by
        by_cases awaiting : row.status = .awaitingDataset
        · exact .inr (by simp [status, found, awaiting])
        · rw [queueAwaiting, if_neg awaiting] at queued
          exact .inl (by simp [status, found, queued])
      have moved := before.imp (fun waits => after.trans waits.symm) fun awaits => And.intro awaits after
      rw [same] at after moved ⊢
      exact ⟨⟨rfl, rfl, rfl, rfl, fun _ => rfl, moved⟩, fun _ => endUpload_puts, rfl, .inr (.inl ⟨after, rfl⟩)⟩
    · have kept : queueAwaiting row = row := by
        by_cases awaiting : row.status = .awaitingDataset
        · simp [queueAwaiting, awaiting, QueueManager.setStatus] at queued
        · rw [queueAwaiting, if_neg awaiting]
      have same : disk.markDatasetReady put [] = ({ disk with
          files := (disk.files.removePath .upload).cleanupUpload [] } : JobDisk).endUpload put .cleaned := by
        rw [kept] at queued
        simp [markDatasetReady, updateRow, status, found, kept, queued]
      rw [same]
      exact ⟨⟨rfl, rfl, rfl, rfl, fun _ => rfl, .inl rfl⟩, fun _ => endUpload_puts, rfl, .inr (.inr ⟨rfl, rfl⟩)⟩

theorem Cleared.answered (cleared : disk.Cleared (some put)) (upload : next.files.upload = disk.files.upload)
    (dataset : next.files.dataset = disk.files.dataset) (puts : ∀ i, i ≠ put → next.puts i = disk.puts i) :
    next.Cleared none := by
  rcases cleared with none | ⟨other, apart, flight⟩
  · exact .inl (by rwa [upload, dataset])
  · exact .inr ⟨other, by simp, by rwa [puts other (by grind -linarith)]⟩

theorem Inv.upload (inv : disk.Inv) (removes : Removes event) (sweeps : disk.Sweeps event)
    (stepped : disk.stepPut event = some next) : next.Inv := by
  cases event with
  | arrived put | refused put =>
    simp only [stepPut, Option.ite_none_right_eq_some, Option.some.injEq] at stepped
    obtain ⟨idle, rfl⟩ := stepped
    refine inv.uploads_moved ⟨rfl, rfl, rfl, rfl, fun _ => rfl, .inl rfl⟩ fun concluded => ?_
    rcases inv.uploads concluded with none | ⟨other, apart, flight⟩
    · exact .inl none
    · exact .inr ⟨other, apart, by grind -linarith⟩
  | noHeadroom put failing | rejected put failing =>
    cases removes
    simp only [stepPut, Option.ite_none_right_eq_some, Option.some.injEq] at stepped
    obtain ⟨-, rfl⟩ := stepped
    exact inv.uploads_moved ⟨rfl, rfl, rfl, rfl, fun _ => rfl, .inl rfl⟩ fun _ => .inl ⟨rfl, rfl⟩
  | opened put | received put | directoryMade put =>
    simp only [stepPut, Option.ite_none_right_eq_some, Option.some.injEq] at stepped
    obtain ⟨-, rfl⟩ := stepped
    have flight : (PutPhase.streaming).InFlight ∧ (PutPhase.validating).InFlight ∧ (PutPhase.extracting).InFlight := by
      simp [PutPhase.InFlight]
    refine inv.uploads_moved ⟨rfl, rfl, rfl, rfl, fun _ => rfl, .inl rfl⟩ fun _ => .inr ⟨put, by simp, ?_⟩
    rw [setPut_puts, if_pos rfl]
    first | exact flight.1 | exact flight.2.1 | exact flight.2.2
  | memberExtracted put =>
    simp only [stepPut, Option.ite_none_right_eq_some, Option.some.injEq] at stepped
    obtain ⟨extracting, rfl⟩ := stepped
    refine inv.uploads_moved ⟨rfl, rfl, rfl, rfl, fun _ => rfl, .inl rfl⟩ fun _ => .inr ⟨put, by simp, ?_⟩
    exact .inr (.inr extracting)
  | streamEnded put | extractionFailed put =>
    -- the handler leaves what it has staged
    simp only [stepPut, Option.ite_none_right_eq_some, Option.some.injEq] at stepped
    obtain ⟨-, rfl⟩ := stepped
    refine inv.uploads_moved ⟨rfl, rfl, rfl, rfl, fun _ => rfl, .inl rfl⟩ fun concluded => ?_
    exact (sweeps concluded).answered rfl rfl fun i other => by simp [other]
  | extracted put failing =>
    cases removes
    simp only [stepPut, Option.ite_none_right_eq_some, Option.some.injEq] at stepped
    obtain ⟨-, rfl⟩ := stepped
    obtain ⟨frame, puts, upload, ends⟩ := markDatasetReady_ends put disk
    refine inv.uploads_moved frame fun concluded => ?_
    rcases ends with ⟨gone, dataset, -⟩ | ⟨queued, -⟩ | ⟨dataset, -⟩
    · -- the job was deleted, so its upload is answered without a cleanup
      rcases sweeps gone with none | ⟨other, apart, flight⟩
      · exact .inl ⟨upload, dataset.trans none.2⟩
      · refine .inr ⟨other, by simp, ?_⟩
        rw [puts, if_neg (by simpa using apart)]
        exact flight
    · simp [Over, queued] at concluded
    · exact .inl ⟨upload, dataset⟩
  | _ => cases stepped

theorem updateRow_status : (disk.updateRow change).status = disk.row.map fun row => (change row).status := by
  rw [status, updateRow, Option.map_map]
  rfl

theorem gone_of_le {before after : Bool} (less : after = true → before = true) (gone : before = false) :
    after = false := by
  rw [← Bool.not_eq_true] at gone ⊢
  exact mt less gone

/-- A job that is not over, or that is left as it is, keeps what is known of its uploads. -/
theorem Cleared.mono {except : Option Nat} (cleared : disk.Cleared except)
    (upload : next.files.upload = true → disk.files.upload = true)
    (dataset : next.files.dataset = true → disk.files.dataset = true) (puts : ∀ i, next.puts i = disk.puts i) :
    next.Cleared except := by
  rcases cleared with none | ⟨other, apart, flight⟩
  · exact .inl ⟨gone_of_le upload none.1, gone_of_le dataset none.2⟩
  · exact .inr ⟨other, apart, by rwa [puts]⟩

theorem Inv.undeleted (inv : disk.Inv) (running : disk.run ≠ .idle) (left : List JobPath) :
    disk.deletes i ≠ .removing left := by
  intro removing
  have terminal := inv.ended i left removing _ (inv.running.mp running)
  simp [TrainerJobStatus.Terminal] at terminal

theorem Inv.runs {run : RunPhase} {files : JobFiles} (inv : disk.Inv) (was : disk.run ≠ .idle) (goes : run ≠ .idle)
    (archive : files.archive = true → run.stage = .archiving) : Inv { disk with run := run, files := files } := by
  have running := inv.running.mp was
  refine ⟨fun concluded => ?_, ?_, fun _ => .inl goes, fun there => .inl (archive there), inv.ended,
    fun delete left removing => ?_⟩
  · have status : disk.status = none ∨ disk.status = some .failed ∨ disk.status = some .canceled := concluded
    simp [running] at status
  · exact ⟨fun _ => running, fun _ => goes⟩
  · exact absurd removing (inv.undeleted was left)

theorem Inv.unarchived (inv : disk.Inv) (was : disk.run ≠ .idle) (early : disk.run.stage ≠ .archiving) :
    disk.files.archive ≠ true := by
  intro there
  rcases inv.archive there with archiving | completed
  · exact early archiving
  · simp [inv.running.mp was] at completed

theorem Inv.canceled (inv : disk.Inv) (waits : disk.status = some .queued ∨ disk.status = some .awaitingDataset)
    (cleared : disk.Cleared none) :
    Inv ({ disk with cancelRequested := true }.updateRow
      (QueueManager.setStatus .canceled "Canceled before start")) := by
  obtain ⟨row, found⟩ : ∃ row, disk.row = some row := by
    rw [← Option.isSome_iff_exists, ← Option.isSome_map (f := JobRow.status)]
    rcases waits with queued | awaits
    · exact Option.isSome_of_mem queued
    · exact Option.isSome_of_mem awaits
  have idle : disk.run = .idle := by
    by_contra going
    have running := inv.running.mp going
    rcases waits with queued | awaits
    · simp [running] at queued
    · simp [running] at awaits
  have status : ({ disk with cancelRequested := true }.updateRow
      (QueueManager.setStatus .canceled "Canceled before start")).status = some .canceled := by
    simp [updateRow_status, found, QueueManager.setStatus]
  have none : disk.status ≠ some .completed := by
    rcases waits with queued | awaits <;> simp [*]
  refine ⟨fun _ => cleared, ?_, fun there => ?_, fun there => ?_, fun delete left _ other same => ?_, inv.removed⟩
  · rw [status]
    simpa [updateRow] using idle
  · exact absurd (inv.outputs there) (by simp [idle, none])
  · exact absurd (inv.archive there) (by simp [idle, none, RunPhase.stage])
  · cases status.symm.trans same
    exact .inr (.inr rfl)

theorem Inv.dispatched (inv : disk.Inv) (queued : disk.status = some .queued) :
    Inv ({ disk with run := .created }.updateRow fun row =>
      { QueueManager.setStatus .running "Starting" row with progress := 0 }) := by
  obtain ⟨row, found, -⟩ := Option.map_eq_some_iff.mp queued
  have status : ({ disk with run := .created }.updateRow fun row =>
      { QueueManager.setStatus .running "Starting" row with progress := 0 }).status = some .running := by
    simp [updateRow_status, found, QueueManager.setStatus]
  have idle : disk.run = .idle := by
    by_contra going
    simp [inv.running.mp going] at queued
  refine ⟨fun concluded => ?_, ?_, fun there => ?_, fun there => ?_, fun delete left removing => ?_, inv.removed⟩
  · simp [Over, status] at concluded
  · rw [status]
    simp [updateRow]
  · exact absurd (inv.outputs there) (by simp [idle, queued])
  · exact absurd (inv.archive there) (by simp [idle, queued, RunPhase.stage])
  · have terminal := inv.ended delete left removing _ queued
    simp [TrainerJobStatus.Terminal] at terminal

/-- The end of a run that is not completed leaves nothing that it has not removed. -/
theorem Inv.ended_run {stage : RunStage} {outcome : RunOutcome} (inv : disk.Inv)
    (finished : disk.run = .finished stage outcome) (sweeps : disk.Sweeps (.runEnded [])) :
    (disk.endRun outcome []).Inv := by
  have was : disk.run ≠ .idle := by simp [finished]
  obtain ⟨row, found, -⟩ := Option.map_eq_some_iff.mp (inv.running.mp was)
  have terminal := @QueueManager.finish_terminal disk.cancelRequested outcome row
  by_cases completed : (QueueManager.finish disk.cancelRequested outcome row).status = .completed
  · have same : disk.endRun outcome [] = { disk with
        run := .idle, cancelRequested := false
        row := some (QueueManager.finish disk.cancelRequested outcome row) } := by
      simp [endRun, updateRow, found, status, completed]
    have done : (disk.endRun outcome []).status = some .completed := by simp [same, status, completed]
    refine ⟨fun concluded => ?_, ?_, fun _ => .inr done, fun _ => .inr done, fun delete left removing => ?_,
      fun delete left removing => ?_⟩
    · simp [Over, done] at concluded
    · rw [done]
      simp [same]
    all_goals exact absurd (by simpa [same] using removing) (inv.undeleted was left)
  · have same : disk.endRun outcome [] = { disk with
        run := .idle, cancelRequested := false, files := disk.files.cleanupJobOutputs []
        row := some (QueueManager.finish disk.cancelRequested outcome row) } := by
      simp [endRun, updateRow, found, status, completed]
    have status : (disk.endRun outcome []).status =
        some (QueueManager.finish disk.cancelRequested outcome row).status := by
      simp [same, JobDisk.status]
    -- a run that archived its model with no cancel request is completed
    obtain ⟨cleared, archive⟩ : disk.Cleared none ∧ disk.files.archive = false := by
      rcases sweeps with ⟨unflagged, path, archived⟩ | cleared
      · cases finished.symm.trans archived
        simp [QueueManager.finish, unflagged, QueueManager.setStatus] at completed
      · exact cleared
    refine ⟨fun _ => ?_, ?_, fun there => ?_, fun there => ?_, fun delete left removing => ?_,
      fun delete left removing => ?_⟩
    · rw [same]
      exact cleared
    · have running : (QueueManager.finish disk.cancelRequested outcome row).status ≠ .running := by
        rcases terminal with h | h | h <;> simp [h]
      rw [status]
      simp [same, running]
    · simp [same] at there
    · simp [same, archive] at there
    all_goals exact absurd (by simpa [same] using removing) (inv.undeleted was left)

theorem Inv.ran (inv : disk.Inv) (removes : Removes event) (sweeps : disk.Sweeps event)
    (stepped : disk.stepRun event = some next) : next.Inv := by
  cases event with
  | stopRequested =>
    cases stepped
    exact ⟨inv.uploads, inv.running, inv.outputs, inv.archive, inv.ended, inv.removed⟩
  | cancelRequested =>
    cases stepped
    rw [requestCancel]
    split
    next waits => exact inv.canceled waits (sweeps waits)
    next => exact ⟨inv.uploads, inv.running, inv.outputs, inv.archive, inv.ended, inv.removed⟩
  | dispatched =>
    simp only [stepRun, Option.ite_none_right_eq_some, Option.some.injEq] at stepped
    obtain ⟨⟨queued, -⟩, rfl⟩ := stepped
    exact inv.dispatched queued
  | runBegan =>
    simp only [stepRun, Option.ite_none_right_eq_some] at stepped
    obtain ⟨created, stepped⟩ := stepped
    have was : disk.run ≠ .idle := by simp [created]
    obtain ⟨row, found, -⟩ := Option.map_eq_some_iff.mp (inv.running.mp was)
    rw [found, Option.some.injEq] at stepped
    rw [← stepped, ← found]
    exact inv.runs was (show RunPhase.preparing ≠ .idle by simp)
      fun there => absurd there (inv.unarchived was (by simp [created, RunPhase.stage]))
  | cacheMade =>
    simp only [stepRun, Option.ite_none_right_eq_some, Option.some.injEq] at stepped
    obtain ⟨preparing, rfl⟩ := stepped
    have was : disk.run ≠ .idle := by simp [preparing]
    exact inv.runs was (show RunPhase.training ≠ .idle by simp)
      fun there => absurd there (inv.unarchived was (by simp [preparing, RunPhase.stage]))
  | trained write =>
    simp only [stepRun, Option.ite_none_right_eq_some, Option.some.injEq] at stepped
    obtain ⟨training, rfl⟩ := stepped
    have was : disk.run ≠ .idle := by simp [training]
    refine inv.runs was was fun there => ?_
    exact absurd (by cases write <;> exact there) (inv.unarchived was (by simp [training, RunPhase.stage]))
  | trainingSucceeded failing =>
    cases removes
    simp only [stepRun, Option.ite_none_right_eq_some, Option.some.injEq] at stepped
    obtain ⟨training, rfl⟩ := stepped
    have was : disk.run ≠ .idle := by simp [training]
    exact inv.runs was (show RunPhase.archiving ≠ .idle by simp)
      fun there => absurd there (inv.unarchived was (by simp [training, RunPhase.stage]))
  | trainingCanceled failing =>
    cases removes
    simp only [stepRun, Option.ite_none_right_eq_some, Option.some.injEq] at stepped
    obtain ⟨⟨training, -⟩, rfl⟩ := stepped
    have was : disk.run ≠ .idle := by simp [training]
    exact inv.runs was (show RunPhase.finished .trained .canceled ≠ .idle by simp)
      fun there => absurd there (inv.unarchived was (by simp [training, RunPhase.stage]))
  | trainingFailed reason failing =>
    cases removes
    simp only [stepRun, Option.ite_none_right_eq_some, Option.some.injEq] at stepped
    obtain ⟨training, rfl⟩ := stepped
    have was : disk.run ≠ .idle := by simp [training]
    exact inv.runs was (show RunPhase.finished .trained (.raised reason) ≠ .idle by simp)
      fun there => absurd there (inv.unarchived was (by simp [training, RunPhase.stage]))
  | preparationFailed reason =>
    simp only [stepRun, Option.ite_none_right_eq_some, Option.some.injEq] at stepped
    obtain ⟨preparing, rfl⟩ := stepped
    have was : disk.run ≠ .idle := by simp [preparing]
    exact inv.runs was (show RunPhase.finished .untrained (.raised reason) ≠ .idle by simp)
      fun there => absurd there (inv.unarchived was (by simp [preparing, RunPhase.stage]))
  | archivingFailed reason | processDied reason =>
    simp only [stepRun, Option.ite_none_right_eq_some, Option.some.injEq] at stepped
    obtain ⟨going, rfl⟩ := stepped
    have was : disk.run ≠ .idle := by
      intro idle
      simp [idle] at going
    refine inv.runs was (show RunPhase.finished disk.run.stage (.raised reason) ≠ .idle by simp) fun there => ?_
    by_contra early
    -- An archive that is there was opened, so the run had come to that.
    exact inv.unarchived was early there
  | archiveOpened =>
    simp only [stepRun, Option.ite_none_right_eq_some, Option.some.injEq] at stepped
    obtain ⟨archiving, rfl⟩ := stepped
    exact inv.runs (by simp [archiving]) (show RunPhase.zipping ≠ .idle by simp) fun _ => rfl
  | archived path =>
    simp only [stepRun, Option.ite_none_right_eq_some, Option.some.injEq] at stepped
    obtain ⟨zipping, rfl⟩ := stepped
    exact inv.runs (by simp [zipping]) (show RunPhase.finished .archiving (.archived path) ≠ .idle by simp) fun _ => rfl
  | runEnded failing =>
    cases removes
    simp only [stepRun] at stepped
    split at stepped
    next stage outcome finished =>
      cases stepped
      exact inv.ended_run finished sweeps
    next => cases stepped
  | _ => cases stepped

theorem Inv.restarted (inv : disk.Inv) (sweeps : disk.Sweeps .restarted)
    (stepped : disk.stepDelete .restarted = some next) : next.Inv := by
  -- A restart fails what ran or waited and leaves every other status.
  have status : next.status = disk.status.map fun old =>
      if old = .running ∨ old = .awaitingDataset then .failed else old := by
    cases stepped
    simp [JobDisk.status, Function.comp_def, QueueManager.resetOrphan_status]
  have deletes (delete : Nat) (left : List JobPath) : next.deletes delete ≠ .removing left := by
    cases stepped
    simp only
    split <;> simp
  have files : next.files = disk.files := by cases stepped; rfl
  have run : next.run = .idle := by cases stepped; rfl
  have running : next.status ≠ some .running := by
    rw [status]
    cases disk.status with
    | none => simp
    | some old => cases old <;> simp
  refine ⟨fun concluded => .inl ?_, by simp [run, running], fun there => .inr ?_, fun there => .inr ?_,
    fun delete left removing => absurd removing (deletes delete left),
    fun delete left removing => absurd removing (deletes delete left)⟩
  all_goals rw [files] at *
  all_goals rcases sweeps with queued | completed | none
  · simp [Over, status, queued] at concluded
  · simp [Over, status, completed] at concluded
  · simp [none]
  · have outputs := inv.outputs there
    have idle : disk.run = .idle := by
      by_contra going
      simp [inv.running.mp going] at queued
    simp [idle, queued] at outputs
  · simp [status, completed]
  · simp [none] at there
  · have archive := inv.archive there
    have idle : disk.run = .idle := by
      by_contra going
      simp [inv.running.mp going] at queued
    simp [idle, queued, RunPhase.stage] at archive
  · simp [status, completed]
  · simp [none] at there

theorem removed_erase {files : JobFiles} {left : List JobPath} (removed : files.Removed left) (path : JobPath) :
    (files.removePath path).Removed (left.erase path) := by
  obtain ⟨model, cache, archive⟩ := removed
  cases path <;> constructor <;> intro gone <;> simp_all [JobFiles.removePath, List.mem_erase_of_ne]

theorem removed_removePath {files : JobFiles} {left : List JobPath} (removed : files.Removed left)
    (path : JobPath) : (files.removePath path).Removed left := by
  obtain ⟨model, cache, archive⟩ := removed
  cases path <;> constructor <;> intro gone <;> simp_all [JobFiles.removePath]

theorem removePath_le (files : JobFiles) (path : JobPath) :
    ((files.removePath path).upload = true → files.upload = true) ∧
      ((files.removePath path).dataset = true → files.dataset = true) ∧
      ((files.removePath path).model = true → files.model = true) ∧
      ((files.removePath path).cache = true → files.cache = true) ∧
      ((files.removePath path).archive = true → files.archive = true) := by
  cases path <;> simp [JobFiles.removePath]

theorem Inv.deleted (inv : disk.Inv) (removes : Removes event) (sweeps : disk.Sweeps event)
    (stepped : disk.stepDelete event = some next) : next.Inv := by
  cases event with
  | deleteLoaded delete =>
    simp only [stepDelete, Option.ite_none_right_eq_some] at stepped
    obtain ⟨absent, stepped⟩ := stepped
    split at stepped
    next terminal =>
      cases stepped
      obtain ⟨loaded, found, terminal⟩ := terminal
      refine ⟨inv.uploads, inv.running, inv.outputs, inv.archive, fun other left removing status same => ?_,
        fun other left removing => ?_⟩
      · cases found.symm.trans same
        exact terminal
      · rw [setDelete_deletes] at removing
        split at removing
        next => cases removing; constructor <;> simp
        next => exact inv.removed other left removing
    next =>
      cases stepped
      refine ⟨inv.uploads, inv.running, inv.outputs, inv.archive, fun other left removing => ?_,
        fun other left removing => ?_⟩
      all_goals
        rw [setDelete_deletes] at removing
        split at removing
      · cases removing
      · exact inv.ended other left removing
      · cases removing
      · exact inv.removed other left removing
  | pathRemoved delete path failing =>
    cases removes
    simp only [stepDelete] at stepped
    split at stepped
    next left removing =>
      simp only [Option.ite_none_right_eq_some, Option.some.injEq] at stepped
      obtain ⟨member, rfl⟩ := stepped
      have less := removePath_le disk.files path
      refine ⟨fun concluded => ?_, inv.running, fun there => inv.outputs (there.imp less.2.2.1 less.2.2.2.1),
        fun there => inv.archive (less.2.2.2.2 there), fun other rest now => ?_, fun other rest now => ?_⟩
      · exact (inv.uploads concluded).mono less.1 less.2.1 fun _ => rfl
      · rw [setDelete_deletes] at now
        split at now
        next => exact inv.ended delete left removing
        next => exact inv.ended other rest now
      · rw [setDelete_deletes] at now
        split at now
        next =>
          cases now
          -- The path that was removed is gone from the list and from the disk.
          exact removed_erase (inv.removed delete left removing) path
        next => exact removed_removePath (inv.removed other rest now) path
    next => cases stepped
  | deleteEnded delete =>
    simp only [stepDelete, Option.ite_none_right_eq_some, Option.some.injEq] at stepped
    obtain ⟨removing, rfl⟩ := stepped
    obtain ⟨model, cache, archive⟩ := inv.removed delete [] removing
    -- A run would be one of a job that is running, and those are not deleted.
    have idle : disk.run = .idle := by
      by_contra going
      exact inv.undeleted going [] removing
    refine ⟨fun _ => sweeps, ?_, fun there => ?_, fun there => ?_, fun other left _ status same => ?_,
      fun other left removing => ?_⟩
    · simp [status, setDelete, idle]
    · simp [model, cache] at there
    · simp [archive] at there
    · cases same
    · exact ⟨fun _ => model (by simp), fun _ => cache (by simp), fun _ => archive (by simp)⟩
  | deleteFailed delete =>
    simp only [stepDelete, Option.ite_none_right_eq_some, Option.some.injEq] at stepped
    obtain ⟨-, rfl⟩ := stepped
    refine ⟨inv.uploads, inv.running, inv.outputs, inv.archive, fun other left removing => ?_,
      fun other left removing => ?_⟩
    all_goals
      rw [setDelete_deletes] at removing
      split at removing
    · cases removing
    · exact inv.ended other left removing
    · cases removing
    · exact inv.removed other left removing
  | restarted => exact inv.restarted sweeps stepped
  | _ => cases stepped

theorem Inv.step (inv : disk.Inv) (removes : Removes event) (sweeps : disk.Sweeps event)
    (stepped : disk.step event = some next) : next.Inv := by
  rcases Option.or_eq_some_iff.mp stepped with put | ⟨-, stepped⟩
  · exact inv.upload removes sweeps put
  · rcases Option.or_eq_some_iff.mp stepped with run | ⟨-, delete⟩
    · exact inv.ran removes sweeps run
    · exact inv.deleted removes sweeps delete

theorem Inv.initial (spec : TrainingJobSpec) (createdAt : Nat) : (jobDisk spec createdAt).initial.Inv where
  uploads _ := .inl ⟨rfl, rfl⟩
  running := by simp [jobDisk, status]
  outputs there := by simp [jobDisk] at there
  archive there := by simp [jobDisk] at there
  ended _ _ removing := by simp [jobDisk] at removing
  removed _ _ removing := by simp [jobDisk] at removing

/-- A job that does not run, is not completed and has nothing of its uploads has no file. -/
theorem Inv.empty (inv : disk.Inv) (idle : disk.run = .idle) (incomplete : disk.status ≠ some .completed)
    (none : disk.files.upload = false ∧ disk.files.dataset = false) : disk.files = {} := by
  have outputs : ¬(disk.files.model = true ∨ disk.files.cache = true) := fun there =>
    (inv.outputs there).elim (fun going => going idle) incomplete
  have archive : ¬disk.files.archive = true := by
    intro there
    have archive := inv.archive there
    simp [idle, incomplete, RunPhase.stage] at archive
  simp only [not_or, Bool.not_eq_true] at outputs archive
  cases files : disk.files with
  | mk upload' dataset' model cache archive' => simp_all

theorem Over.incomplete (concluded : disk.Over) : disk.status ≠ some .completed := by
  rcases concluded with h | h | h <;> simp [h]

theorem Inv.quiet (inv : disk.Inv) (quiet : disk.Quiet) (concluded : disk.Over) : disk.files = {} := by
  rcases inv.uploads concluded with none | ⟨put, -, flight⟩
  · exact inv.empty quiet.run concluded.incomplete none
  · rcases quiet.puts put with absent | answered
    · simp [absent, PutPhase.InFlight] at flight
    · simp [answered, PutPhase.InFlight] at flight

/-! ### What the last upload has left -/

structure Settled (disk : JobDisk) : Prop where
  upload : ¬disk.Flying none → (∀ ended ∈ disk.lastUpload, ended ≠ .abandoned) → disk.files.upload = false
  dataset : ¬disk.Flying none → (∀ ended ∈ disk.lastUpload, ended = .cleaned) → disk.files.dataset = false
  consumed : ¬disk.Flying none → (∀ ended ∈ disk.lastUpload, ended ≠ .abandoned) →
    disk.run.stage ≠ .untrained ∨ disk.status = some .completed → disk.files.dataset = false
  archived : ∀ stage path, disk.run = .finished stage (.archived path) → stage = .archiving

theorem Settled.cleared (settled : disk.Settled) (uploaded : disk.Uploaded [.cleaned]) : disk.Cleared none := by
  by_cases flying : disk.Flying none
  · exact .inr flying
  · have ends := uploaded.resolve_left flying
    exact .inl ⟨settled.upload flying fun ended last => by simp [List.mem_singleton.mp (ends ended last)],
      settled.dataset flying fun ended last => List.mem_singleton.mp (ends ended last)⟩

theorem Settled.cleared_run (settled : disk.Settled) (uploaded : disk.Uploaded [.cleaned, .queued])
    (past : disk.run.stage ≠ .untrained ∨ disk.status = some .completed) : disk.Cleared none := by
  by_cases flying : disk.Flying none
  · exact .inr flying
  · have ends : ∀ ended ∈ disk.lastUpload, ended ≠ .abandoned := by
      rintro ended last rfl
      simpa using uploaded.resolve_left flying _ last
    exact .inl ⟨settled.upload flying ends, settled.consumed flying ends past⟩

theorem Settled.kept (settled : disk.Settled) (puts : next.puts = disk.puts) (last : next.lastUpload = disk.lastUpload)
    (upload : next.files.upload = true → disk.files.upload = true)
    (dataset : next.files.dataset = true → disk.files.dataset = true)
    (consumed : next.run.stage ≠ .untrained ∨ next.status = some .completed →
      (disk.run.stage ≠ .untrained ∨ disk.status = some .completed) ∨ next.files.dataset = false)
    (archived : ∀ stage path, next.run = .finished stage (.archived path) → stage = .archiving) : next.Settled := by
  have same : next.Flying none ↔ disk.Flying none := by simp only [Flying, puts]
  refine ⟨fun landed ends => ?_, fun landed ends => ?_, fun landed ends past => ?_, archived⟩
  all_goals rw [same] at landed
  all_goals rw [last] at ends
  · exact gone_of_le upload (settled.upload landed ends)
  · exact gone_of_le dataset (settled.dataset landed ends)
  · rcases consumed past with before | gone
    · exact gone_of_le dataset (settled.consumed landed ends before)
    · exact gone

theorem Settled.uploads (settled : disk.Settled) (inv : disk.Inv) (removes : Removes event)
    (stepped : disk.stepPut event = some next) : next.Settled := by
  cases event with
  | arrived put | refused put =>
    simp only [stepPut, Option.ite_none_right_eq_some, Option.some.injEq] at stepped
    obtain ⟨idle, rfl⟩ := stepped
    have flies (phase : PutPhase) : disk.Flying none → (disk.setPut put phase).Flying none := by
      rintro ⟨other, apart, flight⟩
      refine ⟨other, apart, ?_⟩
      have others : other ≠ put := by
        rintro rfl
        simp [idle, PutPhase.InFlight] at flight
      rwa [setPut_puts, if_neg others]
    exact ⟨fun landed => settled.upload (mt (flies _) landed), fun landed => settled.dataset (mt (flies _) landed),
      fun landed => settled.consumed (mt (flies _) landed), settled.archived⟩
  | noHeadroom put failing | rejected put failing =>
    cases removes
    simp only [stepPut, Option.ite_none_right_eq_some, Option.some.injEq] at stepped
    obtain ⟨-, rfl⟩ := stepped
    exact ⟨fun _ _ => rfl, fun _ _ => rfl, fun _ _ _ => rfl, settled.archived⟩
  | opened put | received put | directoryMade put =>
    simp only [stepPut, Option.ite_none_right_eq_some, Option.some.injEq] at stepped
    obtain ⟨-, rfl⟩ := stepped
    -- With an upload in flight the condition on the last upload asks nothing.
    have flies (phase : PutPhase) (flight : phase.InFlight) (files : JobFiles) :
        ({ disk with files := files }.setPut put phase).Flying none :=
      ⟨put, by simp, by rwa [setPut_puts, if_pos rfl]⟩
    refine ⟨fun landed => absurd (flies _ ?_ _) landed, fun landed => absurd (flies _ ?_ _) landed,
      fun landed => absurd (flies _ ?_ _) landed, settled.archived⟩ <;> simp [PutPhase.InFlight]
  | memberExtracted put =>
    simp only [stepPut, Option.ite_none_right_eq_some, Option.some.injEq] at stepped
    obtain ⟨extracting, rfl⟩ := stepped
    have flies : disk.Flying none := ⟨put, by simp, .inr (.inr extracting)⟩
    exact ⟨fun landed => absurd flies landed, fun landed => absurd flies landed, fun landed => absurd flies landed,
      settled.archived⟩
  | streamEnded put | extractionFailed put =>
    simp only [stepPut, Option.ite_none_right_eq_some, Option.some.injEq] at stepped
    obtain ⟨-, rfl⟩ := stepped
    refine ⟨fun _ ends => absurd rfl (ends .abandoned rfl), fun _ ends => ?_,
      fun _ ends => absurd rfl (ends .abandoned rfl), settled.archived⟩
    cases ends .abandoned rfl
  | extracted put failing =>
    cases removes
    simp only [stepPut, Option.ite_none_right_eq_some, Option.some.injEq] at stepped
    obtain ⟨-, rfl⟩ := stepped
    obtain ⟨frame, -, upload, ends⟩ := markDatasetReady_ends put disk
    refine ⟨fun _ _ => upload, fun _ cleaned => ?_, fun _ kept past => ?_, by rw [frame.run]; exact settled.archived⟩
    · rcases ends with ⟨-, -, last⟩ | ⟨-, last⟩ | ⟨dataset, -⟩
      · cases cleaned _ last
      · cases cleaned _ last
      · exact dataset
    · rcases ends with ⟨-, -, last⟩ | ⟨queued, -⟩ | ⟨dataset, -⟩
      · exact absurd rfl (kept _ last)
      · -- a queued job has not run
        rw [frame.run] at past
        rcases past with past | completed
        · have going : disk.run ≠ .idle := by
            intro idle
            simp [idle, RunPhase.stage] at past
          rcases frame.status with same | ⟨awaiting, -⟩
          · cases queued.symm.trans (same.trans (inv.running.mp going))
          · simp [inv.running.mp going] at awaiting
        · simp [queued] at completed
      · exact dataset
  | _ => cases stepped

theorem finish_completed {flagged : Bool} {outcome : RunOutcome} {row : JobRow}
    (completed : (QueueManager.finish flagged outcome row).status = .completed) : ∃ path, outcome = .archived path := by
  cases outcome with
  | archived path => exact ⟨path, rfl⟩
  | canceled => simp [QueueManager.finish, QueueManager.setStatus] at completed
  | raised reason => cases flagged <;> simp [QueueManager.finish, QueueManager.setStatus] at completed

/-- A run that goes on leaves the uploads alone until it removes the dataset. -/
theorem Settled.runs {files : JobFiles} (settled : disk.Settled) (inv : disk.Inv) (was : disk.run ≠ .idle)
    (run : RunPhase) (upload : files.upload = true → disk.files.upload = true)
    (dataset : files.dataset = true → disk.files.dataset = true)
    (consumed : run.stage ≠ .untrained → disk.run.stage ≠ .untrained ∨ files.dataset = false)
    (archived : ∀ stage path, run = .finished stage (.archived path) → stage = .archiving) :
    Settled { disk with run := run, files := files } := by
  refine settled.kept rfl rfl upload dataset (fun past => ?_) archived
  rcases past with past | completed
  · exact (consumed past).imp_left .inl
  · have running : disk.status ≠ some .completed := by simp [inv.running.mp was]
    exact absurd completed running

/-- A step that neither moves the run nor completes the job. -/
theorem Settled.rewritten (settled : disk.Settled) (puts : next.puts = disk.puts)
    (last : next.lastUpload = disk.lastUpload) (upload : next.files.upload = true → disk.files.upload = true)
    (dataset : next.files.dataset = true → disk.files.dataset = true) (run : next.run = disk.run ∨ next.run = .idle)
    (completed : next.status = some .completed → disk.status = some .completed) : next.Settled := by
  refine settled.kept puts last upload dataset (fun past => .inl (past.imp (fun past => ?_) completed))
    fun stage path finished => ?_
  · rcases run with same | idle
    · rwa [← same]
    · simp [idle, RunPhase.stage] at past
  · rcases run with same | idle
    · exact settled.archived stage path (same ▸ finished)
    · cases idle.symm.trans finished

theorem endRun_frame (outcome : RunOutcome) (disk : JobDisk) : (disk.endRun outcome []).status =
      disk.row.map (fun row => (QueueManager.finish disk.cancelRequested outcome row).status) ∧
    (disk.endRun outcome []).puts = disk.puts ∧ (disk.endRun outcome []).lastUpload = disk.lastUpload ∧
    (disk.endRun outcome []).run = .idle ∧ (disk.endRun outcome []).files.upload = disk.files.upload ∧
    (disk.endRun outcome []).files.dataset = disk.files.dataset := by
  rw [← updateRow_status]
  by_cases removes : (disk.updateRow (QueueManager.finish disk.cancelRequested outcome)).row ≠ none ∧
      (disk.updateRow (QueueManager.finish disk.cancelRequested outcome)).status ≠ some .completed
  · have same : disk.endRun outcome [] = { disk.updateRow (QueueManager.finish disk.cancelRequested outcome) with
        run := .idle, cancelRequested := false, files := disk.files.cleanupJobOutputs [] } := by
      exact if_pos removes
    rw [same]
    exact ⟨rfl, rfl, rfl, rfl, rfl, rfl⟩
  · have same : disk.endRun outcome [] = { disk.updateRow (QueueManager.finish disk.cancelRequested outcome) with
        run := .idle, cancelRequested := false } := by
      exact if_neg removes
    rw [same]
    exact ⟨rfl, rfl, rfl, rfl, rfl, rfl⟩

theorem Settled.ended_run {stage : RunStage} {outcome : RunOutcome} (settled : disk.Settled)
    (finished : disk.run = .finished stage outcome) : (disk.endRun outcome []).Settled := by
  obtain ⟨status, puts, last, run, upload, dataset⟩ := disk.endRun_frame outcome
  refine settled.kept puts last (upload ▸ id) (dataset ▸ id) (fun past => ?_) fun _ _ idle => by
    cases run.symm.trans idle
  rcases past with past | completed
  · simp [run, RunPhase.stage] at past
  · -- only a run that has archived its model completes the job
    rw [status] at completed
    obtain ⟨row, -, completed⟩ := Option.map_eq_some_iff.mp completed
    obtain ⟨path, rfl⟩ := finish_completed completed
    refine .inl (.inl ?_)
    rw [finished, settled.archived stage path finished]
    simp [RunPhase.stage]

theorem Settled.ran (settled : disk.Settled) (inv : disk.Inv) (removes : Removes event)
    (stepped : disk.stepRun event = some next) : next.Settled := by
  cases event with
  | stopRequested =>
    cases stepped
    exact settled.rewritten rfl rfl id id (.inl rfl) id
  | cancelRequested =>
    cases stepped
    rw [requestCancel]
    split
    next =>
      refine settled.rewritten rfl rfl id id (.inl rfl) fun completed => ?_
      rw [updateRow_status] at completed
      obtain ⟨row, -, canceled⟩ := Option.map_eq_some_iff.mp completed
      simp [QueueManager.setStatus] at canceled
    next => exact settled.rewritten rfl rfl id id (.inl rfl) id
  | dispatched =>
    simp only [stepRun, Option.ite_none_right_eq_some, Option.some.injEq] at stepped
    obtain ⟨-, rfl⟩ := stepped
    refine settled.kept rfl rfl id id (fun past => ?_) fun _ _ created => by cases created
    rcases past with past | completed
    · simp [updateRow, RunPhase.stage] at past
    · rw [updateRow_status] at completed
      obtain ⟨row, -, running⟩ := Option.map_eq_some_iff.mp completed
      simp [QueueManager.setStatus] at running
  | runBegan =>
    simp only [stepRun, Option.ite_none_right_eq_some] at stepped
    obtain ⟨created, stepped⟩ := stepped
    have was : disk.run ≠ .idle := by simp [created]
    obtain ⟨row, found, -⟩ := Option.map_eq_some_iff.mp (inv.running.mp was)
    rw [found, Option.some.injEq] at stepped
    rw [← stepped, ← found]
    exact settled.runs inv was .preparing id id (fun past => absurd rfl past)
      fun _ _ finished => by cases finished
  | cacheMade =>
    simp only [stepRun, Option.ite_none_right_eq_some, Option.some.injEq] at stepped
    obtain ⟨preparing, rfl⟩ := stepped
    exact settled.runs inv (by simp [preparing]) .training id id (fun past => absurd rfl past)
      fun _ _ finished => by cases finished
  | preparationFailed reason =>
    simp only [stepRun, Option.ite_none_right_eq_some, Option.some.injEq] at stepped
    obtain ⟨preparing, rfl⟩ := stepped
    exact settled.runs inv (by simp [preparing]) (.finished .untrained (.raised reason)) id id
      (fun past => absurd rfl past) fun _ _ finished => by cases finished
  | trained write =>
    simp only [stepRun, Option.ite_none_right_eq_some, Option.some.injEq] at stepped
    obtain ⟨training, rfl⟩ := stepped
    exact settled.runs inv (by simp [training]) _ (by cases write <;> exact id) (by cases write <;> exact id) .inl
      settled.archived
  | trainingSucceeded failing | trainingCanceled failing | trainingFailed reason failing =>
    cases removes
    simp only [stepRun, Option.ite_none_right_eq_some, Option.some.injEq] at stepped
    obtain ⟨training, rfl⟩ := stepped
    have was : disk.run ≠ .idle := by
      intro idle
      simp [idle] at training
    refine settled.runs inv was _ id (fun there => by cases there) (fun _ => .inr rfl) ?_
    rintro _ _ ⟨⟩
  | archiveOpened =>
    simp only [stepRun, Option.ite_none_right_eq_some, Option.some.injEq] at stepped
    obtain ⟨archiving, rfl⟩ := stepped
    exact settled.runs inv (by simp [archiving]) .zipping id id
      (fun _ => .inl (by simp [archiving, RunPhase.stage])) fun _ _ finished => by cases finished
  | archived path =>
    simp only [stepRun, Option.ite_none_right_eq_some, Option.some.injEq] at stepped
    obtain ⟨zipping, rfl⟩ := stepped
    refine settled.runs inv (by simp [zipping]) _ id id (fun _ => .inl (by simp [zipping, RunPhase.stage])) ?_
    rintro _ _ ⟨⟩
    rfl
  | archivingFailed reason | processDied reason =>
    simp only [stepRun, Option.ite_none_right_eq_some, Option.some.injEq] at stepped
    obtain ⟨going, rfl⟩ := stepped
    have was : disk.run ≠ .idle := by
      intro idle
      simp [idle] at going
    refine settled.runs inv was _ id id .inl ?_
    rintro _ _ ⟨⟩
  | runEnded failing =>
    cases removes
    simp only [stepRun] at stepped
    split at stepped
    next stage outcome finished =>
      cases stepped
      exact settled.ended_run finished
    next => cases stepped
  | _ => cases stepped

theorem Settled.restarted (settled : disk.Settled) (landed : ¬disk.Flying none)
    (stepped : disk.stepDelete .restarted = some next) : next.Settled := by
  cases stepped
  refine ⟨fun _ => settled.upload landed, fun _ => settled.dataset landed, fun _ ends past => ?_,
    fun _ _ finished => by cases finished⟩
  rcases past with past | completed
  · exact absurd rfl past
  · refine settled.consumed landed ends (.inr ?_)
    obtain ⟨row, found, completed⟩ := Option.map_eq_some_iff.mp completed
    obtain ⟨old, before, rfl⟩ := Option.map_eq_some_iff.mp found
    rw [QueueManager.resetOrphan_status] at completed
    split at completed
    · cases completed
    · rw [status, before, Option.map_some, completed]

theorem Settled.deleted (settled : disk.Settled) (clears : disk.Clears event)
    (stepped : disk.stepDelete event = some next) : next.Settled := by
  cases event with
  | deleteLoaded delete =>
    simp only [stepDelete, Option.ite_none_right_eq_some] at stepped
    obtain ⟨-, stepped⟩ := stepped
    split at stepped <;> cases stepped <;> exact settled.rewritten rfl rfl id id (.inl rfl) id
  | pathRemoved delete path failing =>
    cases clears
    simp only [stepDelete] at stepped
    split at stepped
    next left removing =>
      simp only [Option.ite_none_right_eq_some, Option.some.injEq] at stepped
      obtain ⟨-, rfl⟩ := stepped
      have less := removePath_le disk.files path
      exact settled.rewritten rfl rfl less.1 less.2.1 (.inl rfl) id
    next => cases stepped
  | deleteEnded delete =>
    simp only [stepDelete, Option.ite_none_right_eq_some, Option.some.injEq] at stepped
    obtain ⟨-, rfl⟩ := stepped
    refine settled.rewritten rfl rfl id id (.inl rfl) fun completed => ?_
    cases completed
  | deleteFailed delete =>
    simp only [stepDelete, Option.ite_none_right_eq_some, Option.some.injEq] at stepped
    obtain ⟨-, rfl⟩ := stepped
    exact settled.rewritten rfl rfl id id (.inl rfl) id
  | restarted => exact settled.restarted clears.2.1 stepped
  | _ => cases stepped

theorem Inv.sweeps_restarted (inv : disk.Inv) (settled : disk.Settled) (clears : disk.Clears .restarted) :
    disk.Sweeps .restarted := by
  obtain ⟨stopped, landed, awaits⟩ := clears
  have idle : disk.run = .idle := by
    by_contra going
    exact stopped (inv.running.mp going)
  have clear (concluded : disk.Over) : disk.files = {} :=
    inv.empty idle concluded.incomplete ((inv.uploads concluded).resolve_right landed)
  cases known : disk.status with
  | none => exact .inr (.inr (clear (.inl known)))
  | some current =>
    cases current with
    | awaitingDataset =>
      have cleared := (settled.cleared (awaits known)).resolve_right landed
      exact .inr (.inr (inv.empty idle (by simp [known]) cleared))
    | queued => exact .inl known
    | running => exact absurd known stopped
    | completed => exact .inr (.inl known)
    | failed => exact .inr (.inr (clear (.inr (.inl known))))
    | canceled => exact .inr (.inr (clear (.inr (.inr known))))

theorem Inv.sweeps (inv : disk.Inv) (settled : disk.Settled) (clears : disk.Clears event)
    (stepped : disk.step event = some next) : disk.Sweeps event := by
  cases event with
  | cancelRequested => exact fun waits => settled.cleared (clears waits)
  | runEnded failing =>
    refine clears.2.imp_right fun ⟨trained, uploaded⟩ => ?_
    have past : disk.run.stage ≠ .untrained := by simp [trained]
    have going : disk.run ≠ .idle := by
      intro idle
      simp [idle, RunPhase.stage] at trained
    exact ⟨settled.cleared_run uploaded (.inl past),
      Bool.eq_false_iff.mpr (inv.unarchived going (by simp [trained]))⟩
  | deleteEnded delete =>
    have removing : disk.deletes delete = .removing [] := by
      have stepped : disk.stepDelete (.deleteEnded delete) = some next := stepped
      simp only [stepDelete, Option.ite_none_right_eq_some] at stepped
      exact stepped.1
    cases known : disk.status with
    | none => exact inv.uploads (.inl known)
    | some current =>
      rcases inv.ended delete [] removing current known with completed | failed | canceled
      · exact settled.cleared_run clears (.inr (by rw [known, completed]))
      · exact inv.uploads (.inr (.inl (by rw [known, failed])))
      · exact inv.uploads (.inr (.inr (by rw [known, canceled])))
  | restarted => exact inv.sweeps_restarted settled clears
  | streamEnded put | extractionFailed put => exact fun concluded => .inr (clears concluded)
  | extracted put failing => exact fun gone => .inr (clears.2 gone)
  | _ => trivial

theorem Clears.removes (clears : disk.Clears event) : Removes event := by
  cases event <;> first | exact clears | exact clears.1 | trivial

theorem Settled.initial (spec : TrainingJobSpec) (createdAt : Nat) : (jobDisk spec createdAt).initial.Settled where
  upload _ _ := rfl
  dataset _ _ := rfl
  consumed _ _ _ := rfl
  archived _ _ finished := by cases finished

theorem Settled.step (settled : disk.Settled) (inv : disk.Inv) (clears : disk.Clears event)
    (stepped : disk.step event = some next) : next.Settled := by
  rcases Option.or_eq_some_iff.mp stepped with put | ⟨-, stepped⟩
  · exact settled.uploads inv clears.removes put
  · rcases Option.or_eq_some_iff.mp stepped with run | ⟨-, delete⟩
    · exact settled.ran inv clears.removes run
    · exact settled.deleted clears delete

end JobDisk

open JobDisk

/-- Where every step that ends the job, its row or an upload of it comes at a point at which the code removes what there
can be, and no removal fails, nothing is left. -/
theorem ended_job_has_no_files {spec : TrainingJobSpec} {createdAt : Nat} {history : List FileEvent} {disk : JobDisk}
    (clears : (jobDisk spec createdAt).Throughout Clears history)
    (reached : (jobDisk spec createdAt).reached history = some disk) (quiet : disk.Quiet) (concluded : disk.Over) :
    disk.files = {} := by
  have invs : disk.Inv ∧ disk.Settled := System.invariant (P := fun disk => disk.Inv ∧ disk.Settled)
    ⟨Inv.initial spec createdAt, Settled.initial spec createdAt⟩
    (fun _ _ _ ⟨inv, settled⟩ clears stepped =>
      ⟨inv.step clears.removes (inv.sweeps settled clears stepped) stepped, settled.step inv clears stepped⟩)
    clears reached
  exact invs.1.quiet quiet concluded

def extractedUpload : List FileEvent :=
  [.extracted 0 [], .directoryMade 0, .received 0, .opened 0, .arrived 0]

/-- The job is canceled while its dataset is extracted, and the end of the extraction cleans up. -/
theorem canceled_upload_has_no_files :
    ∃ disk, (jobDisk {} 0).reached [.extracted 0 [], .cancelRequested, .directoryMade 0, .received 0, .opened 0,
      .arrived 0] = some disk ∧ disk.status = some .canceled ∧ disk.files = {} := by
  refine ⟨_, rfl, rfl, @ended_job_has_no_files {} 0 [.extracted 0 [], .cancelRequested, .directoryMade 0, .received 0,
    .opened 0, .arrived 0] _ ?_ rfl ⟨fun put => ?_, rfl, fun _ => .inl rfl⟩ (.inr (.inr rfl))⟩
  · refine ⟨?_, ?_, fun _ _ => trivial, fun _ _ => trivial, fun _ _ => trivial, fun _ _ => trivial, trivial⟩
    · rintro _ ⟨⟩
      exact ⟨rfl, fun gone => by cases gone⟩
    · rintro _ ⟨⟩ -
      exact .inl ⟨0, by simp, .inr (.inr rfl)⟩
  · cases put with
    | zero => exact .inr rfl
    | succ put => exact .inl rfl

/-- A queued job is canceled, and its dataset stays. -/
theorem canceled_job_keeps_dataset :
    ¬ ∀ (spec : TrainingJobSpec) (createdAt : Nat) (history : List FileEvent) (disk : JobDisk),
      (jobDisk spec createdAt).reached history = some disk → disk.Quiet → disk.Over → disk.files = {} := by
  intro every
  have files := every {} 0 (.cancelRequested :: extractedUpload) _ rfl ⟨fun put => ?_, rfl, fun _ => .inl rfl⟩
    (.inr (.inr rfl))
  · exact absurd files (by decide)
  · cases put with
    | zero => exact .inr rfl
    | succ put => exact .inl rfl

end PhysicalAiStudio.Trainer
