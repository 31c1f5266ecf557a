import PhysicalAiStudio.Jobs.ImportUploads
import PhysicalAiStudio.Jobs.StagedImport

/-! The archive that is committed is the one whose draft was reviewed.

Once an upload has queued the job, the job never awaits an archive again. Uploads that are admitted
one at a time touch the file only while the job awaits it, and the one that queues the job was the
last to open it, so every worker reads that upload's body.
-/

set_option autoImplicit false

namespace PhysicalAiStudio.Jobs

open Concurrency
open Trainer (Bytes writtenTo writtenTo_end)

namespace StagedImport

variable {bodies : Nat → Bytes} {staged next : StagedImport} {event : StagedEvent} {bytes : Bytes}
  {i request worker : Nat}

/-- The cancellation after the review, or the worker that imports, deletes the archive. -/
def CleansUp : StagedEvent → Prop
  | .moved (.requestCleaned _) | .moved (.archiveCleaned _ _) => True
  | _ => False

/-- The upload that ends the wait of the job finds its body staged, and from then on the file stays as it is until it is
cleaned up. -/
def WinnerStays (bodies : Nat → Bytes) (staged : StagedImport) (event : StagedEvent) : Prop :=
  (∀ request, event = .moved (.requestWritten request) → staged.job.Awaits → staged.job.Attaches request →
    staged.archive = some (bodies request)) ∧
  ∀ next, staged.step bodies event = some next → ¬staged.job.Awaits → next.archive = staged.archive ∨ CleansUp event

def CommitsReviewed (staged : StagedImport) (event : StagedEvent) : Prop :=
  ∀ worker content report draft, event = .moved (.turned worker .completed content report) →
    (staged.job.workers worker).payload.manifestDraft = some draft →
    ∀ committed ∈ (staged.readers worker).reads, ∀ reviewed ∈ (staged.readers draft).reads, committed = reviewed

def OneUpload (staged : StagedImport) : StagedEvent → Prop
  | .moved event => staged.job.AdmitsAlone event
  | _ => True

instance (staged : StagedImport) : (event : StagedEvent) → Decidable (staged.OneUpload event)
  | .moved event => inferInstanceAs (Decidable (staged.job.AdmitsAlone event))
  | .opened _ | .wrote _ _ | .archiveOpened _ | .archiveRead _ => inferInstanceAs (Decidable True)

/-! ### One upload at a time -/

structure Handled (staged : StagedImport) : Prop where
  exclusive : staged.job.Exclusive
  opener : ∀ i, (staged.job.requests i).Uploads → staged.handles i ≠ none → staged.opener = some i
  stored : ∀ i, (staged.job.requests i).Stored → staged.handles i ≠ none
  absent : ∀ i, staged.job.requests i = .absent → staged.handles i = none

theorem openStaged_job (request : Nat) (staged : StagedImport) :
    (staged.openStaged request).job = staged.job ∧ (staged.openStaged request).readers = staged.readers := by
  rw [openStaged]
  split <;> exact ⟨rfl, rfl⟩

theorem openStaged_handles (request : Nat) (staged : StagedImport) :
    (staged.openStaged request).handles request ≠ none ∧
      ∀ i ≠ request, (staged.openStaged request).handles i = staged.handles i := by
  rw [openStaged]
  split <;> simp +contextual [setHandle, Function.update_of_ne]

theorem Handled.moved {event : ImportEvent} (handled : staged.Handled) (sound : staged.job.Sound)
    (alone : staged.OneUpload (.moved event)) (stepped : staged.step bodies (.moved event) = some next) :
    next.Handled := by
  simp only [StagedImport.step] at stepped
  split at stepped
  next allowed =>
    obtain ⟨job, moved, rfl⟩ := Option.map_eq_some_iff.mp stepped
    have before := fun i => ImportJob.request_before (i := i) moved
    refine ⟨handled.exclusive.step sound alone moved, fun i uploads opened => ?_, fun i stored => ?_, fun i absent => ?_⟩
    · rcases ImportJob.uploads_before moved uploads with already | ⟨-, absent, -⟩
      · exact handled.opener i already opened
      · exact absurd (handled.absent i absent) opened
    · rcases (before i).1 stored with already | ⟨rfl, -⟩
      · exact handled.stored i already
      · -- it has written its body to the end
        intro unopened
        have none : staged.handles i = none := unopened
        simp [Allows, none] at allowed
    · exact handled.absent i ((before i).2.2 absent)
  next => cases stepped

theorem Handled.openedStaged (handled : staged.Handled) (uploading : staged.job.requests request = .uploading) :
    Handled { staged.openStaged request with opener := some request } := by
  obtain ⟨job, -⟩ := openStaged_job request staged
  obtain ⟨own, others⟩ := openStaged_handles request staged
  have uploads : (staged.job.requests request).Uploads := by
    rw [uploading]
    trivial
  refine ⟨?_, fun i other _ => ?_, fun i stored => ?_, fun i absent => ?_⟩
  · simpa only [job] using handled.exclusive
  · have other : (staged.job.requests i).Uploads := by simpa only [job] using other
    exact (handled.exclusive request uploads).1.symm.trans (handled.exclusive i other).1
  · have stored : (staged.job.requests i).Stored := by simpa only [job] using stored
    by_cases same : i = request
    · exact same ▸ own
    · exact (others i same).trans_ne (handled.stored i stored)
  · have before : staged.job.requests i = .absent := by simpa only [job] using absent
    have other : i ≠ request := fun same => by
      rw [same, uploading] at before
      cases before
    exact (others i other).trans (handled.absent i before)

theorem Handled.setHandle {handle : Nat × Nat} {files : Nat → Bytes} (handled : staged.Handled)
    (opened : staged.handles request ≠ none) : ({ staged with files := files }.setHandle request handle).Handled := by
  have same (i : Nat) : ({ staged with files := files }.setHandle request handle).handles i = none ↔
      staged.handles i = none := by
    by_cases own : i = request
    · simp [StagedImport.setHandle, own, opened]
    · simp [StagedImport.setHandle, own]
  exact ⟨handled.exclusive, fun i uploads handle => handled.opener i uploads fun none => handle ((same i).mpr none),
    fun i stored none => handled.stored i stored ((same i).mp none),
    fun i absent => (same i).mpr (handled.absent i absent)⟩

/-! ### What is staged -/

/-- What every worker can have read, once the job does not await the archive. -/
structure Fixed (bytes : Bytes) (staged : StagedImport) : Prop where
  named : ∀ file, staged.staged = some file → staged.files file = bytes
  opened : ∀ worker file, (staged.readers worker).file = some file → staged.files file = bytes
  reads : ∀ worker, ∀ read ∈ (staged.readers worker).reads, read = bytes

structure Inv (bodies : Nat → Bytes) (staged : StagedImport) : Prop where
  sound : staged.job.Sound
  handled : staged.Handled
  unread : staged.job.Awaits → ∀ worker, staged.readers worker = {}
  present : ∀ request, staged.opener = some request → staged.job.requests request ≠ .absent
  /-- The last opener has written the staged file as far as it has come with its body. -/
  writes : staged.job.Awaits → ∀ request, staged.opener = some request → staged.job.requests request = .uploading →
    ∃ file written, staged.handles request = some (file, written) ∧ staged.staged = some file ∧
      written ≤ (bodies request).length ∧ staged.files file = (bodies request).take written
  stored : staged.job.Awaits → ∀ request, staged.opener = some request → (staged.job.requests request).Stored →
    staged.archive = some (bodies request)
  fixed : ¬staged.job.Awaits → ∃ bytes, staged.Fixed bytes

/-- The upload that is about to queue the job was the last to open the file. -/
theorem Inv.attaches {loaded read : Row ImportPayload} {payload : ImportPayload} (inv : staged.Inv bodies)
    (merging : staged.job.requests request = .mergingRead .attach loaded payload read) :
    staged.opener = some request :=
  inv.handled.opener request (by rw [merging]; rfl) (inv.handled.stored request (by rw [merging]; rfl))

theorem Inv.uploading (inv : staged.Inv bodies) (uploading : staged.job.requests request = .uploading) :
    staged.job.Awaits :=
  (inv.handled.exclusive request (by rw [uploading]; trivial)).2

theorem Inv.moved {event : ImportEvent} (inv : staged.Inv bodies) (alone : staged.OneUpload (.moved event))
    (stepped : staged.step bodies (.moved event) = some next) : next.Inv bodies := by
  have handled := inv.handled.moved inv.sound alone stepped
  simp only [StagedImport.step] at stepped
  split at stepped
  next allowed =>
    obtain ⟨job, moved, rfl⟩ := Option.map_eq_some_iff.mp stepped
    obtain ⟨sound, awaited, leaves⟩ := inv.sound.step moved
    have before := fun i => ImportJob.request_before (i := i) moved
    -- the last opener that goes on has not been rejected, so its file is still there
    have kept (awaits : staged.job.Awaits) (request : Nat) (opener : staged.opener = some request)
        (lives : job.requests request ≠ .concluded) : cleanupStagedArchive event staged.staged = staged.staged := by
      obtain ⟨notCanceled, notImported⟩ := inv.sound.cleans moved awaits
      cases event with
      | requestCleaned other => exact absurd rfl (notCanceled other)
      | archiveCleaned worker report => exact absurd rfl (notImported worker report)
      | archiveRejected rejected =>
        obtain ⟨stored, gone⟩ := ImportJob.archiveRejected_eq moved
        have handle := inv.handled.stored rejected (by rw [stored]; trivial)
        cases (inv.handled.opener rejected (by rw [stored]; trivial) handle).symm.trans opener
        exact absurd gone lives
      | _ => rfl
    refine ⟨sound, handled, fun awaits => inv.unread (awaited awaits), fun request opener absent => ?_,
      fun awaits request opener uploading => ?_, fun awaits request opener stored => ?_, fun left => ?_⟩
    · exact inv.present request opener ((before request).2.2 absent)
    · have uploading : job.requests request = .uploading := uploading
      have older := ((before request).2.1 uploading).resolve_right (inv.present request opener)
      obtain ⟨file, written, handle, named, rest⟩ := inv.writes (awaited awaits) request opener older
      refine ⟨file, written, handle, ?_, rest⟩
      rw [← named]
      exact kept (awaited awaits) request opener (by simp [uploading])
    · have lives : job.requests request ≠ .concluded := by
        intro gone
        rw [gone] at stored
        exact stored
      rw [StagedImport.archive, kept (awaited awaits) request opener lives]
      rcases (before request).1 stored with older | ⟨rfl, uploading⟩
      · exact inv.stored (awaited awaits) request opener older
      · -- the upload has come to the end of its body
        obtain ⟨file, written, handle, named, -, content⟩ := inv.writes (awaited awaits) request opener uploading
        have all : written = (bodies request).length := by simpa [Allows, handle] using allowed
        rw [named, Option.map_some, content, all, List.take_length]
    · by_cases awaits : staged.job.Awaits
      · obtain still | ⟨request, rfl, attaches⟩ := leaves awaits
        · exact absurd still left
        obtain ⟨loaded, payload, read, merging⟩ := attaches
        have opener := inv.attaches merging
        have archive := inv.stored awaits request opener (by rw [merging]; rfl)
        refine ⟨bodies request, fun file named => ?_, fun worker file opened => ?_, fun worker read listed => ?_⟩
        · have named : staged.staged = some file := named
          rw [StagedImport.archive, named] at archive
          exact Option.some.inj archive
        · simp [inv.unread awaits worker] at opened
        · simp [inv.unread awaits worker] at listed
      · obtain ⟨bytes, fixed⟩ := inv.fixed awaits
        refine ⟨bytes, fun file named => fixed.named file ?_, fixed.opened, fixed.reads⟩
        cases event <;> first | exact named | cases named
  next => cases stepped

theorem openStaged_file (request : Nat) (staged : StagedImport) :
    ∃ file, (staged.openStaged request).handles request = some (file, 0) ∧
      (staged.openStaged request).staged = some file ∧ (staged.openStaged request).files file = [] := by
  rw [openStaged]
  split
  next file named => exact ⟨file, by simp [setHandle], named, by simp [setHandle]⟩
  next => exact ⟨staged.created, by simp [setHandle], rfl, by simp [setHandle]⟩

theorem Inv.openedStaged (inv : staged.Inv bodies) (uploading : staged.job.requests request = .uploading) :
    Inv bodies { staged.openStaged request with opener := some request } := by
  have awaits := inv.uploading uploading
  obtain ⟨job, readers⟩ := openStaged_job request staged
  obtain ⟨file, handle, named, empty⟩ := openStaged_file request staged
  refine ⟨?_, inv.handled.openedStaged uploading, fun _ worker => ?_, ?_, ?_, ?_, fun left => ?_⟩
  · simpa only [job] using inv.sound
  · simpa only [readers] using inv.unread awaits worker
  · rintro _ ⟨⟩
    simp [job, uploading]
  · rintro - _ ⟨⟩ -
    exact ⟨file, 0, handle, named, Nat.zero_le _, by simpa using empty⟩
  · rintro - _ ⟨⟩ stored
    simp only [job, uploading] at stored
    exact stored.elim
  · simp only [job] at left
    exact absurd awaits left

theorem Inv.wrote {count : Nat} (inv : staged.Inv bodies) (stepped : staged.step bodies (.wrote request count) = some next) :
    next.Inv bodies := by
  simp only [StagedImport.step] at stepped
  split at stepped
  next file written handle =>
    simp only [Option.ite_none_right_eq_some, Option.some.injEq] at stepped
    obtain ⟨⟨uploading, room⟩, rfl⟩ := stepped
    -- An upload writes only while the job waits, and only the last opener has the file open.
    have awaits := inv.uploading uploading
    have opened : staged.handles request ≠ none := by
      rw [handle]
      exact Option.some_ne_none _
    have opener := inv.handled.opener request (by rw [uploading]; trivial) opened
    obtain ⟨_, _, same, named, -, content⟩ := inv.writes awaits request opener uploading
    cases handle.symm.trans same
    refine ⟨inv.sound, inv.handled.setHandle opened, inv.unread, inv.present, ?_, ?_, fun left => absurd awaits left⟩
    · intro _ other opens _
      cases opener.symm.trans opens
      refine ⟨file, written + count, by simp [setHandle], named, room, ?_⟩
      have length : ((bodies request).take written).length = written := by
        rw [List.length_take]
        omega
      simp only [setHandle, Function.update_self]
      rw [content, writtenTo_end length, ← List.take_add]
    · intro _ other opens stored
      cases opener.symm.trans opens
      have stored : (staged.job.requests request).Stored := stored
      rw [uploading] at stored
      exact stored.elim
  next => cases stepped

theorem Inv.left {worker : Nat} (inv : staged.Inv bodies) (working : (staged.job.workers worker).phase = .working) :
    ¬staged.job.Awaits :=
  (inv.sound.workers worker (by rw [working]; trivial)).2

theorem Inv.setReader {worker : Nat} {reader : ArchiveReader} (inv : staged.Inv bodies) (left : ¬staged.job.Awaits)
    (opened : ∀ bytes file, staged.Fixed bytes → reader.file = some file → staged.files file = bytes)
    (reads : ∀ bytes, staged.Fixed bytes → ∀ read ∈ reader.reads, read = bytes) :
    (staged.setReader worker reader).Inv bodies where
  sound := inv.sound
  handled := ⟨inv.handled.exclusive, inv.handled.opener, inv.handled.stored, inv.handled.absent⟩
  unread awaits := absurd awaits left
  present := inv.present
  writes awaits := absurd awaits left
  stored awaits := absurd awaits left
  fixed _ := by
    obtain ⟨bytes, fixed⟩ := inv.fixed left
    refine ⟨bytes, fixed.named, fun i file open_ => ?_, fun i read listed => ?_⟩
    all_goals by_cases same : i = worker
    · subst same
      exact opened bytes file fixed (by simpa [StagedImport.setReader] using open_)
    · exact fixed.opened i file (by simpa [StagedImport.setReader, same] using open_)
    · subst same
      exact reads bytes fixed read (by simpa [StagedImport.setReader] using listed)
    · exact fixed.reads i read (by simpa [StagedImport.setReader, same] using listed)

theorem Inv.step (inv : staged.Inv bodies) (alone : staged.OneUpload event)
    (stepped : staged.step bodies event = some next) : next.Inv bodies := by
  cases event with
  | moved event => exact inv.moved alone stepped
  | opened request =>
    simp only [StagedImport.step, Option.ite_none_right_eq_some, Option.some.injEq] at stepped
    obtain ⟨⟨uploading, -⟩, rfl⟩ := stepped
    exact inv.openedStaged uploading
  | wrote request count => exact inv.wrote stepped
  | archiveOpened worker =>
    simp only [StagedImport.step] at stepped
    split at stepped
    next file named =>
      simp only [Option.ite_none_right_eq_some, Option.some.injEq] at stepped
      obtain ⟨⟨working, -⟩, rfl⟩ := stepped
      -- A worker reads after the wait is over, when the path and the file it names are fixed.
      refine inv.setReader (inv.left working) (fun bytes _ fixed opened => ?_) fun bytes fixed => fixed.reads worker
      cases opened
      exact fixed.named file named
    next => cases stepped
  | archiveRead worker =>
    simp only [StagedImport.step] at stepped
    split at stepped
    next file opened =>
      simp only [Option.ite_none_right_eq_some, Option.some.injEq] at stepped
      obtain ⟨⟨working, -⟩, rfl⟩ := stepped
      refine inv.setReader (inv.left working) (fun bytes other fixed same => fixed.opened worker other same)
        fun bytes fixed read listed => ?_
      rcases List.mem_cons.mp listed with rfl | older
      · exact fixed.opened worker file opened
      · exact fixed.reads worker read older
    next => cases stepped

theorem Inv.initial (bodies : Nat → Bytes) : (stagedImport bodies).initial.Inv bodies where
  sound := ⟨fun _ loaded => loaded.elim, fun _ => trivial⟩
  handled := ⟨fun _ uploads => uploads.elim, fun _ uploads => uploads.elim, fun _ stored => stored.elim, fun _ _ => rfl⟩
  unread _ _ := rfl
  present := by simp [stagedImport]
  writes := by simp [stagedImport]
  stored := by simp [stagedImport]
  fixed left := absurd rfl left

end StagedImport

open StagedImport

variable {bodies : Nat → Bytes} {history : List StagedEvent}

theorem StagedImport.Inv.stays {staged next : StagedImport} {event : StagedEvent} (inv : staged.Inv bodies)
    (left : ¬staged.job.Awaits) (stepped : staged.step bodies event = some next) :
    next.archive = staged.archive ∨ CleansUp event := by
  cases event with
  | opened request =>
    simp only [StagedImport.step, Option.ite_none_right_eq_some] at stepped
    exact absurd (inv.uploading stepped.1.1) left
  | wrote request count =>
    simp only [StagedImport.step] at stepped
    split at stepped
    next =>
      simp only [Option.ite_none_right_eq_some] at stepped
      exact absurd (inv.uploading stepped.1.1) left
    next => cases stepped
  | archiveOpened worker | archiveRead worker =>
    simp only [StagedImport.step] at stepped
    split at stepped
    next =>
      simp only [Option.ite_none_right_eq_some, Option.some.injEq] at stepped
      obtain ⟨-, rfl⟩ := stepped
      exact .inl rfl
    next => cases stepped
  | moved event =>
    simp only [StagedImport.step, Option.ite_none_right_eq_some, Option.map_eq_some_iff] at stepped
    obtain ⟨-, job, moved, rfl⟩ := stepped
    cases event with
    | requestCleaned request | archiveCleaned worker report => exact .inr trivial
    | archiveRejected request =>
      -- A rejection while nothing waits would be one of an upload that is still admitted.
      have stored := (ImportJob.archiveRejected_eq moved).1
      exact absurd (inv.handled.exclusive request (by rw [stored]; trivial)).2 left
    | _ => exact .inl rfl

/-- Where the uploads of a job are admitted one at a time, the archive that a commit reads is the one that was reviewed,
and nothing overwrites or deletes the archive of the upload that has queued the job before it is cleaned up. -/
theorem reviewed_archive_committed (alone : (stagedImport bodies).Throughout OneUpload history) :
    (stagedImport bodies).Throughout
      (fun staged event => staged.WinnerStays bodies event ∧ staged.CommitsReviewed event) history := by
  have held := System.invariant_throughout (Inv.initial bodies)
    (fun _ _ _ inv alone stepped => Inv.step inv alone stepped) alone
  refine held.mono fun staged event known => ⟨⟨?_, ?_⟩, ?_⟩
  · rintro request rfl awaits ⟨loaded, payload, read, merging⟩
    exact known.1.stored awaits request (known.1.attaches merging) (by rw [merging]; rfl)
  · intro next stepped left
    exact known.1.stays left stepped
  · rintro worker content report draft rfl - committed listed reviewed seen
    obtain ⟨inv, -⟩ := known
    by_cases awaits : staged.job.Awaits
    · simp [inv.unread awaits worker] at listed
    · obtain ⟨bytes, fixed⟩ := inv.fixed awaits
      rw [fixed.reads worker committed listed, fixed.reads draft reviewed seen]

def detection (worker : Nat) : List StagedEvent :=
  [.moved .reaped, .moved (.died worker), .moved (.workerWritten worker), .moved (.workerRead worker),
    .moved (.turned worker .reviewing worker none), .moved (.workerWritten worker), .moved (.workerRead worker),
    .moved (.turned worker .drafting 0 none), .archiveRead worker, .archiveOpened worker, .moved (.workerWritten worker),
    .moved (.workerRead worker), .moved (.turned worker .detecting 0 none), .moved (.loaded worker),
    .moved (.started worker), .moved .claimUpdated, .moved .claimSelected]

def commit (worker request : Nat) : List StagedEvent :=
  [.moved (.turned worker .completed 5 none), .archiveRead worker, .archiveOpened worker, .moved (.workerWritten worker),
    .moved (.workerRead worker), .moved (.turned worker .importing 0 none), .moved (.loaded worker),
    .moved (.started worker), .moved .claimUpdated, .moved .claimSelected, .moved (.requestWritten request),
    .moved (.requestRead request), .moved (.finalizeLoaded request 9)]

def laterUpload : List StagedEvent :=
  [.moved (.requestWritten 1), .moved (.requestRead 1), .moved (.attachLoaded 1 7), .moved (.archiveStored 1), .wrote 1 1,
    .opened 1, .moved (.uploadLoaded 1), .moved (.archiveRejected 0), .moved (.archiveStored 0), .wrote 0 1, .opened 0,
    .moved (.uploadLoaded 0)]

/-- A third upload comes after the detection, and is refused. -/
theorem later_upload_committed :
    (∃ staged, (stagedImport fun request => [request.toUInt8]).reached
      (commit 1 2 ++ (.moved (.uploadLoaded 3) :: (detection 0 ++ laterUpload))) = some staged) ∧
      (stagedImport fun request => [request.toUInt8]).Throughout
        (fun staged event => staged.WinnerStays (fun request => [request.toUInt8]) event ∧ staged.CommitsReviewed event)
        (commit 1 2 ++ (.moved (.uploadLoaded 3) :: (detection 0 ++ laterUpload))) :=
  ⟨⟨_, rfl⟩, reviewed_archive_committed (by decide +kernel)⟩

def admittedUploads : List StagedEvent :=
  [.moved (.requestWritten 0), .moved (.requestRead 0), .moved (.attachLoaded 0 7), .moved (.archiveStored 0), .wrote 0 1,
    .opened 0, .moved (.uploadLoaded 1), .moved (.uploadLoaded 0)]

/-- It opens the file after the detection, and the commit reads its body. -/
theorem admitted_upload_committed :
    (¬ ∀ (bodies : Nat → Bytes) (history : List StagedEvent) (staged : StagedImport),
      (stagedImport bodies).reached history = some staged →
        (stagedImport bodies).Throughout (StagedImport.WinnerStays bodies) history) ∧
    ¬ ∀ (bodies : Nat → Bytes) (history : List StagedEvent) (staged : StagedImport),
      (stagedImport bodies).reached history = some staged →
        (stagedImport bodies).Throughout StagedImport.CommitsReviewed history := by
  constructor
  · intro every
    have throughout := every (fun request => [request.toUInt8]) (.opened 1 :: (detection 0 ++ admittedUploads)) _ rfl
    have stays := (throughout.1 _ rfl).2 _ rfl (by decide)
    exact absurd (stays.resolve_right id) (by decide)
  · intro every
    have throughout := every (fun request => [request.toUInt8])
      (commit 1 2 ++ (.wrote 1 1 :: .opened 1 :: (detection 0 ++ admittedUploads))) _ rfl
    have same := throughout.1 _ rfl 1 5 none 0 rfl rfl [1] (by decide) [0] (by decide)
    exact absurd same (by decide)

end PhysicalAiStudio.Jobs
