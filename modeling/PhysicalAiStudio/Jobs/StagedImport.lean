import PhysicalAiStudio.Jobs.ImportJob
import PhysicalAiStudio.Trainer.DatasetUpload

/-! The staged archive of an import job, byte for byte.

The path follows from the job, so all its uploads write the file of one name. An upload opens
it in mode `wb`, which empties the file that is there, and writes its body chunk by chunk on a
thread. A worker opens the archive by its name too, as often as it likes, and reads what the
file holds by then. Files are named by numbers, so an unlinked one can still be read.
-/

set_option autoImplicit false

namespace PhysicalAiStudio.Jobs

open Concurrency
open Trainer (Bytes writtenTo)

/-- The file that a worker has open, and all that it has read so far. -/
structure ArchiveReader where
  file : Option Nat := none
  reads : List Bytes := []
  deriving DecidableEq

structure StagedImport where
  job : ImportJob
  files : Nat → Bytes := fun _ => []
  created : Nat := 0
  staged : Option Nat := none
  /-- The file that an upload has open, and how much of the body it has written. -/
  handles : Nat → Option (Nat × Nat) := fun _ => none
  readers : Nat → ArchiveReader := fun _ => {}
  /-- The upload that opened the staged file last. -/
  opener : Option Nat := none

inductive StagedEvent where
  | moved (event : ImportEvent)
  | opened (request : Nat)
  | wrote (request count : Nat)
  | archiveOpened (worker : Nat)
  | archiveRead (worker : Nat)
  deriving DecidableEq

/-- The steps in which a worker has an archive object: detection with its draft, and the commit. -/
def ImportStep.ReadsArchive (step : ImportStep) : Prop :=
  step = .detectingFormat ∨ step = .buildingManifestDraft ∨ step = .importingDataset

instance (step : ImportStep) : Decidable step.ReadsArchive := inferInstanceAs (Decidable (_ ∨ _))

namespace StagedImport

def archive (staged : StagedImport) : Option Bytes := staged.staged.map staged.files

def setHandle (request : Nat) (handle : Nat × Nat) (staged : StagedImport) : StagedImport :=
  { staged with handles := Function.update staged.handles request (some handle) }

def setReader (worker : Nat) (reader : ArchiveReader) (staged : StagedImport) : StagedImport :=
  { staged with readers := Function.update staged.readers worker reader }

def openStaged (request : Nat) (staged : StagedImport) : StagedImport :=
  match staged.staged with
  | some file => { staged with files := Function.update staged.files file [] }.setHandle request (file, 0)
  | none =>
    { staged with
      files := Function.update staged.files staged.created []
      created := staged.created + 1
      staged := some staged.created }.setHandle request (staged.created, 0)

/-- What a step of the job needs of the archive. A draft is known by the worker that made it. -/
def Allows (bodies : Nat → Bytes) (staged : StagedImport) : ImportEvent → Prop
  | .archiveStored request => (staged.handles request).map Prod.snd = some (bodies request).length
  | .turned worker .reviewing content _ => content = worker
  | _ => True

instance (bodies : Nat → Bytes) (staged : StagedImport) (event : ImportEvent) : Decidable (staged.Allows bodies event) :=
  match event with
  | .archiveStored _ | .turned _ .reviewing _ _ => inferInstanceAs (Decidable (_ = _))
  | .turned _ .detecting _ _ | .turned _ .drafting _ _ | .turned _ .importing _ _ | .turned _ .completed _ _
  | .turned _ .failed _ _ | .claimSelected | .claimUpdated | .claimDropped | .started _ | .startFailed _ | .reaped
  | .recoverLoaded | .recoverWritten | .stopRequested | .shutdown | .restarted | .stoppedEarly _ | .loaded _
  | .commitFailed _ | .workerRead _ | .workerWritten _ | .writeFailed _ _ | .archiveCleaned _ _ | .died _
  | .uploadLoaded _ | .archiveRejected _ | .uploadFailed _ | .attachLoaded _ _ | .finalizeLoaded _ _ | .cancelLoaded _ | .requestRead _
  | .requestWritten _ | .requestCleaned _ | .interruptLoaded _ | .interruptWritten _ => inferInstanceAs (Decidable True)

def cleanupStagedArchive (event : ImportEvent) (staged : Option Nat) : Option Nat :=
  match event with
  | .archiveRejected _ | .requestCleaned _ | .archiveCleaned _ _ => none
  | _ => staged

def step (bodies : Nat → Bytes) (staged : StagedImport) : StagedEvent → Option StagedImport
  | .moved event =>
    if staged.Allows bodies event then
      (staged.job.step event).map fun job => { staged with job := job, staged := cleanupStagedArchive event staged.staged }
    else none
  -- The path follows from the job alone, and mode `wb` truncates what another upload has written there.
  | .opened request =>
    if staged.job.requests request = .uploading ∧ staged.handles request = none then
      some { staged.openStaged request with opener := some request }
    else none
  -- Each handle writes at its own position, also past the end of a file that was truncated meanwhile.
  | .wrote request count =>
    match staged.handles request with
    | some (file, written) =>
      if staged.job.requests request = .uploading ∧ written + count ≤ (bodies request).length then
        let chunk := ((bodies request).drop written).take count
        some ({ staged with
          files := Function.update staged.files file (writtenTo false written chunk (staged.files file)) }.setHandle request
            (file, written + count))
      else none
    | none => none
  -- A reader opens the path once and keeps the file.
  | .archiveOpened worker =>
    match staged.staged with
    | some file =>
      if (staged.job.workers worker).phase = .working ∧ (staged.job.workers worker).payload.step.ReadsArchive then
        some (staged.setReader worker { staged.readers worker with file := some file })
      else none
    | none => none
  | .archiveRead worker =>
    match (staged.readers worker).file with
    | some file =>
      if (staged.job.workers worker).phase = .working ∧ (staged.job.workers worker).payload.step.ReadsArchive then
        some (staged.setReader worker
          { staged.readers worker with reads := staged.files file :: (staged.readers worker).reads })
      else none
    | none => none

end StagedImport

def stagedImport (bodies : Nat → Bytes) : System StagedImport StagedEvent where
  initial := { job := { row := ⟨.pending, {}⟩ } }
  step := StagedImport.step bodies

end PhysicalAiStudio.Jobs
