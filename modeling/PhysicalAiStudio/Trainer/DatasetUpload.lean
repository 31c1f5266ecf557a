import Mathlib.Data.List.Infix
import Mathlib.Logic.Function.Basic
import PhysicalAiStudio.Concurrency.Transition

/-! The trainer's side of the upload of a job's dataset.

One job that awaits its dataset over HTTP. A handler of a PUT checks the job, opens the
staged file at the offset it was checked for, appends the body as it arrives, and extracts
the file when the range ends with the archive. Files are named by numbers, so a handler
goes on writing a file that was unlinked. The buffer of a file object only delays its
writes, so a write here is what reaches the file.
-/

set_option autoImplicit false

namespace PhysicalAiStudio.Trainer

abbrev Bytes := List UInt8

inductive TrainerJobStatus where
  | awaitingDataset
  | queued
  | running
  | completed
  | failed
  | canceled
  deriving DecidableEq

/-- What the regular expression finds in the header, if it is there. -/
inductive ContentRange where
  | absent
  | malformed
  | bytes (start stop total : Nat)
  deriving DecidableEq

structure PutRequest where
  contentType : String := "application/zip"
  contentRange : ContentRange
  contentLength : Option Nat := none
  body : Bytes
  deriving DecidableEq

structure Answer where
  status : Nat
  detail : String := ""
  uploadOffset : Option Nat := none
  deriving DecidableEq

/-- The write parameters of a checked request. -/
structure UploadRange where
  start : Nat
  stop : Option Nat
  total : Option Nat
  append : Bool
  deriving DecidableEq

def parseUploadRange (offset : Nat) : ContentRange → Except Answer UploadRange
  | .absent => .ok { start := 0, stop := none, total := none, append := false }
  | .malformed => .error { status := 400, detail := "Invalid Content-Range header" }
  | .bytes start stop total =>
    if total ≤ 0 ∨ start > stop ∨ stop ≥ total then
      .error { status := 400, detail := "Invalid Content-Range bounds" }
    else if start ≠ offset then
      .error { status := 409, detail := "Upload offset does not match staged dataset", uploadOffset := some offset }
    else .ok { start := start, stop := some stop, total := some total, append := 0 < start }

def validateRangeBodySize (written start : Nat) : Option Nat → Option Nat → Except Answer Unit
  | some stop, some _ =>
    if written = stop - start + 1 then .ok ()
    else .error { status := 400, detail := "Content-Range length does not match body" }
  | _, _ => .error { status := 400, detail := "Content-Range length does not match body" }

/-- The declared bytes still needed, when known. -/
def remainingUploadBytes (request : PutRequest) (range : UploadRange) : Option Nat :=
  match range.total with
  | some total => some (total - range.start)
  | none => request.contentLength

inductive Phase where
  | absent
  /-- The job was found to await its dataset. -/
  | admitted
  /-- So much of the body has been written to the opened file. -/
  | streaming (range : UploadRange) (file written : Nat)
  | extracting (range : UploadRange)
  | answered (answer : Answer)
  deriving DecidableEq

structure Handler where
  request : PutRequest := { contentRange := .absent, body := [] }
  phase : Phase := .absent

/-- How `validate_and_extract` ends. -/
inductive Extraction where
  | extracted
  /-- `InvalidArchiveError` or `ZipBombDetectedError`. -/
  | invalidArchive (detail : String)
  | noSpace (detail : String)
  | failed
  deriving DecidableEq

structure DatasetUpload where
  status : TrainerJobStatus := .awaitingDataset
  files : Nat → Bytes := fun _ => []
  created : Nat := 0
  /-- The file that the upload path names. -/
  staged : Option Nat := none
  /-- What the dataset directory was extracted from. -/
  dataset : Option Bytes := none
  handlers : Nat → Handler := fun _ => {}
  /-- The handler whose offset check came out right last. -/
  opener : Option Nat := none

inductive UploadEvent where
  | arrived (handler : Nat) (request : PutRequest)
  | opened (handler : Nat) (roomy : Bool)
  | wrote (handler count : Nat)
  /-- The client is gone, or something raised; the file stays. -/
  | interrupted (handler : Nat)
  | streamEnded (handler : Nat)
  | extractionEnded (handler : Nat) (outcome : Extraction)
  | canceled
  /-- The queue manager moves the job on. -/
  | worked (status : TrainerJobStatus)
  deriving DecidableEq

/-- A file after `bytes` were written to it, at its end or at a position. -/
def writtenTo (append : Bool) (position : Nat) (bytes content : Bytes) : Bytes :=
  if append then content ++ bytes
  else
    content.take position ++ List.replicate (position - content.length) 0 ++ bytes ++
      content.drop (position + bytes.length)

/-- A write at the end of a file does not depend on its mode. -/
theorem writtenTo_end {append : Bool} {position : Nat} {bytes content : Bytes} (atEnd : content.length = position) :
    writtenTo append position bytes content = content ++ bytes := by
  subst atEnd
  cases append <;> simp [writtenTo]

namespace DatasetUpload

def stagedBytes (upload : DatasetUpload) : Bytes :=
  match upload.staged with
  | some file => upload.files file
  | none => []

def uploadOffset (upload : DatasetUpload) : Nat := upload.stagedBytes.length

def setPhase (position : Nat) (phase : Phase) (upload : DatasetUpload) : DatasetUpload :=
  { upload with handlers := Function.update upload.handlers position { upload.handlers position with phase := phase } }

def cleanupUpload (upload : DatasetUpload) : DatasetUpload :=
  { upload with staged := none, dataset := none }

/-- `open` in mode `ab`, or in mode `wb`, which empties the file. -/
def openStaged (append : Bool) (upload : DatasetUpload) : DatasetUpload × Nat :=
  match upload.staged with
  | some file =>
    if append then (upload, file) else ({ upload with files := Function.update upload.files file [] }, file)
  | none =>
    ({ upload with
      files := Function.update upload.files upload.created []
      created := upload.created + 1
      staged := some upload.created }, upload.created)

/-- Update of the status guarded by the old one. -/
def markDatasetReady (upload : DatasetUpload) : DatasetUpload :=
  if upload.status = .awaitingDataset then { upload with status := .queued } else upload

def streamed (range : UploadRange) (written : Nat) : Phase :=
  match range.total with
  | none => .extracting range
  | some total =>
    match range.stop with
    | none => .answered { status := 400, detail := "Invalid Content-Range header" }
    | some stop =>
      match validateRangeBodySize written range.start (some stop) (some total) with
      | .error answer => .answered answer
      | .ok () =>
        if stop + 1 < total then .answered { status := 202, uploadOffset := some (stop + 1) } else .extracting range

def extractionEnded (position : Nat) (range : UploadRange) (upload : DatasetUpload) : Extraction → DatasetUpload
  | .extracted =>
    let ready := { upload with dataset := some upload.stagedBytes, staged := none }.markDatasetReady
    let kept := if ready.status ≠ .queued then ready.cleanupUpload else ready
    kept.setPhase position (.answered { status := 202, uploadOffset := range.stop.map (· + 1) })
  | .invalidArchive detail => upload.cleanupUpload.setPhase position (.answered { status := 400, detail := detail })
  | .noSpace detail => upload.cleanupUpload.setPhase position (.answered { status := 507, detail := detail })
  | .failed => upload.setPhase position (.answered { status := 500 })

def step (upload : DatasetUpload) : UploadEvent → Option DatasetUpload
  -- The status is looked at once, before the body.
  | .arrived position request =>
    if (upload.handlers position).phase = .absent then
      let phase := if upload.status = .awaitingDataset then .admitted
        else .answered { status := 409, detail := "Job is not awaiting a dataset upload" }
      some { upload with handlers := Function.update upload.handlers position ⟨request, phase⟩ }
    else none
  | .opened position roomy =>
    let request := (upload.handlers position).request
    if (upload.handlers position).phase = .admitted then
      if ¬"zip".toList <:+: request.contentType.toLower.toList then
        some (upload.setPhase position
          (.answered { status := 415, detail := "Dataset must be uploaded as application/zip" }))
      else
        match parseUploadRange upload.uploadOffset request.contentRange with
        | .error answer => some (upload.setPhase position (.answered answer))
        | .ok range =>
          if remainingUploadBytes request range ≠ none ∧ roomy = false then
            some ({ upload.cleanupUpload with opener := some position }.setPhase position
              (.answered { status := 507 }))
          else
            let (opened, file) := upload.openStaged range.append
            some ({ opened with opener := some position }.setPhase position (.streaming range file 0))
    else none
  -- Another handler may have written to the file since the offset was checked.
  | .wrote position count =>
    match (upload.handlers position).phase with
    | .streaming range file written =>
      let body := (upload.handlers position).request.body
      if written + count ≤ body.length then
        some ({ upload with
          files := Function.update upload.files file
            (writtenTo range.append written ((body.drop written).take count) (upload.files file)) }.setPhase position
              (.streaming range file (written + count)))
      else none
    | _ => none
  | .interrupted position =>
    match (upload.handlers position).phase with
    | .admitted | .streaming _ _ _ => some (upload.setPhase position (.answered { status := 500 }))
    | _ => none
  | .streamEnded position =>
    match (upload.handlers position).phase with
    | .streaming range _ written =>
      if written = (upload.handlers position).request.body.length then
        some (upload.setPhase position (streamed range written))
      else none
    | _ => none
  | .extractionEnded position outcome =>
    match (upload.handlers position).phase with
    | .extracting range =>
      if outcome = .extracted ∧ upload.staged = none then none else some (extractionEnded position range upload outcome)
    | _ => none
  | .canceled =>
    if upload.status = .awaitingDataset ∨ upload.status = .queued then some { upload with status := .canceled }
    else none
  | .worked status =>
    match upload.status, status with
    | .queued, .running | .running, .completed | .running, .failed | .running, .canceled =>
      some { upload with status := status }
    | _, _ => none

theorem parseUploadRange_error {staged : Nat} {header : ContentRange} {answer : Answer}
    (refused : parseUploadRange staged header = .error answer) : ¬answer.status < 300 := by
  unfold parseUploadRange at refused
  split at refused
  · cases refused
  · cases refused
    simp
  · split at refused
    · cases refused
      simp
    · split at refused
      · cases refused
        simp
      · cases refused

variable {upload next : DatasetUpload} {position : Nat} {phase : Phase}

@[simp]
theorem setPhase_stagedBytes : (upload.setPhase position phase).stagedBytes = upload.stagedBytes := rfl

@[simp]
theorem setPhase_request {i : Nat} :
    ((upload.setPhase position phase).handlers i).request = (upload.handlers i).request := by
  by_cases same : i = position
  · subst same
    simp [setPhase]
  · simp [setPhase, Function.update_of_ne same]

theorem setPhase_phase {i : Nat} : ((upload.setPhase position phase).handlers i).phase =
    if i = position then phase else (upload.handlers i).phase := by
  by_cases same : i = position
  · subst same
    simp [setPhase]
  · simp [setPhase, same]

theorem openStaged_job (append : Bool) (upload : DatasetUpload) :
    (upload.openStaged append).1.status = upload.status ∧ (upload.openStaged append).1.dataset = upload.dataset ∧
      (upload.openStaged append).1.handlers = upload.handlers := by
  unfold openStaged
  split
  · split <;> exact ⟨rfl, rfl, rfl⟩
  · exact ⟨rfl, rfl, rfl⟩

/-- A handler that was admitted is answered with an error, or runs out of space, or opens the staged file. -/
theorem opened_cases {roomy : Bool} (stepped : upload.step (.opened position roomy) = some next) :
    (upload.handlers position).phase = .admitted ∧
      ((∃ answer, ¬answer.status < 300 ∧ next = upload.setPhase position (.answered answer)) ∨
        ∃ range, parseUploadRange upload.uploadOffset (upload.handlers position).request.contentRange = .ok range ∧
          (next = { upload.cleanupUpload with opener := some position }.setPhase position (.answered { status := 507 }) ∨
            next = { (upload.openStaged range.append).1 with opener := some position }.setPhase position
              (.streaming range (upload.openStaged range.append).2 0))) := by
  simp only [step, Option.ite_none_right_eq_some] at stepped
  obtain ⟨admitted, stepped⟩ := stepped
  refine ⟨admitted, ?_⟩
  split at stepped
  · cases stepped
    exact .inl ⟨_, by simp, rfl⟩
  · split at stepped
    · next refused =>
      cases stepped
      exact .inl ⟨_, parseUploadRange_error refused, rfl⟩
    · next range checked =>
      refine .inr ⟨range, checked, ?_⟩
      split at stepped
      · cases stepped
        exact .inl rfl
      · cases stepped
        exact .inr rfl

theorem extractionEnded_accepted (range : UploadRange) (awaiting : upload.status = .awaitingDataset) :
    upload.extractionEnded position range .extracted =
      { upload with dataset := some upload.stagedBytes, staged := none, status := .queued }.setPhase position
        (.answered { status := 202, uploadOffset := range.stop.map (· + 1) }) := by
  simp [extractionEnded, markDatasetReady, awaiting]

theorem extractionEnded_dataset {range : UploadRange} {outcome : Extraction}
    (there : (upload.extractionEnded position range outcome).dataset ≠ none) :
    ((upload.extractionEnded position range outcome).dataset = some upload.stagedBytes ∧
        (upload.extractionEnded position range outcome).status = .queued) ∨
      (upload.extractionEnded position range outcome).dataset = upload.dataset ∧
        (upload.extractionEnded position range outcome).status = upload.status := by
  cases outcome with
  | extracted =>
    simp only [extractionEnded] at there ⊢
    split at there
    · simp [cleanupUpload, setPhase] at there
    · next queued =>
      rw [if_neg queued]
      refine .inl ⟨?_, not_not.mp queued⟩
      simp only [setPhase, markDatasetReady]
      split <;> rfl
  | invalidArchive detail | noSpace detail => simp [extractionEnded, cleanupUpload, setPhase] at there
  | failed => exact .inr ⟨rfl, rfl⟩

theorem extractionEnded_handlers (position : Nat) (range : UploadRange) (outcome : Extraction)
    (upload : DatasetUpload) : ∃ answer, (upload.extractionEnded position range outcome).handlers =
      (upload.setPhase position (.answered answer)).handlers := by
  cases outcome with
  | extracted =>
    refine ⟨{ status := 202, uploadOffset := range.stop.map (· + 1) }, ?_⟩
    simp only [extractionEnded, markDatasetReady]
    split <;> split <;> rfl
  | invalidArchive detail | noSpace detail | failed => exact ⟨_, rfl⟩

def getDatasetUploadOffset (upload : DatasetUpload) : Answer :=
  if upload.status = .awaitingDataset then { status := 204, uploadOffset := some upload.uploadOffset }
  else { status := 409, detail := "Job is not awaiting a dataset upload" }

end DatasetUpload

end PhysicalAiStudio.Trainer
