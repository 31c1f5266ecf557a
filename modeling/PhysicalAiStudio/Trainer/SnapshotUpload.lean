import PhysicalAiStudio.Trainer.StagedArchive

/-! The client's side of the upload of a job's dataset.

`upload_snapshot_http` asks for the staged offset, sends the rest of the archive, and asks
again when a PUT fails. Requests and answers may be lost after each step of the trainer, and
the handler of a PUT goes on when its client has given the request up.
-/

set_option autoImplicit false

namespace PhysicalAiStudio.Trainer

open Concurrency

def transferRetryLimit : Nat := 3

/-- How far `upload_snapshot_http` is. -/
inductive Client where
  /-- A HEAD is under way before the attempt. -/
  | heading (attempt : Nat)
  | looping (attempt offset : Nat)
  /-- A PUT is under way, and has reached the handler if there is one. -/
  | putting (attempt offset : Nat) (handler : Option Nat)
  | returned
  | stopped
  | failed (message : String)
  deriving DecidableEq

namespace Client

def Awaits (position : Nat) : Client → Prop
  | .putting _ _ handler => handler = some position
  | .heading _ | .looping _ _ | .returned | .stopped | .failed _ => False

def Over : Client → Prop
  | .stopped | .failed _ => True
  | .heading _ | .looping _ _ | .putting _ _ _ | .returned => False

instance (position : Nat) : (client : Client) → Decidable (client.Awaits position)
  | .putting _ _ handler => inferInstanceAs (Decidable (handler = some position))
  | .heading _ | .looping _ _ | .returned | .stopped | .failed _ => inferInstanceAs (Decidable False)

instance : (client : Client) → Decidable client.Over
  | .stopped | .failed _ => inferInstanceAs (Decidable True)
  | .heading _ | .looping _ _ | .putting _ _ _ | .returned => inferInstanceAs (Decidable False)

def interrupted (attempt : Nat) : Client :=
  if attempt = transferRetryLimit then .failed "Dataset upload could not be resumed" else .heading (attempt + 1)

def getUploadOffset (total attempt : Nat) (answer : Answer) : Client :=
  if answer.status ≥ 300 then .failed "Unable to determine dataset upload resume offset"
  else
    let offset := answer.uploadOffset.getD 0
    if offset ≤ total then .looping attempt offset
    else .failed s!"Trainer returned invalid dataset upload offset {offset}"

end Client

def clientRequest (archive : Bytes) (offset : Nat) : PutRequest :=
  { contentRange := .bytes offset (archive.length - 1) archive.length, body := archive.drop offset }

structure SnapshotUpload where
  trainer : DatasetUpload := {}
  client : Client := .heading 0

inductive SnapshotEvent where
  | trainer (event : UploadEvent)
  | headAnswered
  | headFailed
  /-- The top of the retry loop, where the context may ask the client to stop. -/
  | looped (stop : Bool)
  | putReached (handler : Nat)
  | putAnswered
  | putFailed
  /-- The reader of the archive was asked to stop. -/
  | putStopped

namespace SnapshotUpload

def step (archive : Bytes) (upload : SnapshotUpload) : SnapshotEvent → Option SnapshotUpload
  -- Only this client sends requests.
  | .trainer (.arrived _ _) => none
  | .trainer event => (upload.trainer.step event).map fun trainer => { upload with trainer := trainer }
  | .headAnswered =>
    match upload.client with
    | .heading attempt =>
      some { upload with
        client := Client.getUploadOffset archive.length attempt upload.trainer.getDatasetUploadOffset }
    | _ => none
  | .headFailed =>
    match upload.client with
    | .heading _ => some { upload with client := .failed "Unable to determine dataset upload resume offset" }
    | _ => none
  -- An offset at the total ends the loop, accepted or not.
  | .looped stop =>
    match upload.client with
    | .looping attempt offset =>
      if attempt ≤ transferRetryLimit ∧ offset ≠ archive.length then
        if stop then some { upload with client := .stopped }
        else some { upload with client := .putting attempt offset none }
      else if offset ≠ archive.length then
        some { upload with
          client := .failed s!"Trainer accepted an incomplete dataset upload ({offset} of {archive.length} bytes)" }
      else some { upload with client := .returned }
    | _ => none
  | .putReached position =>
    match upload.client with
    | .putting attempt offset none =>
      (upload.trainer.step (.arrived position (clientRequest archive offset))).map fun trainer =>
        { trainer := trainer, client := .putting attempt offset (some position) }
    | _ => none
  | .putAnswered =>
    match upload.client with
    | .putting attempt _ (some position) =>
      match (upload.trainer.handlers position).phase with
      | .answered answer =>
        if answer.status ≥ 300 then some { upload with client := Client.interrupted attempt }
        else some { upload with client := .looping (attempt + 1) (answer.uploadOffset.getD archive.length) }
      | _ => none
    | _ => none
  | .putFailed =>
    match upload.client with
    | .putting attempt _ _ => some { upload with client := Client.interrupted attempt }
    | _ => none
  | .putStopped =>
    match upload.client with
    | .putting _ _ _ => some { upload with client := .stopped }
    | _ => none

def Extracts (trainer : DatasetUpload) (position : Nat) : Prop :=
  match (trainer.handlers position).phase with
  | .extracting _ => True
  | _ => False

instance (trainer : DatasetUpload) (position : Nat) : Decidable (Extracts trainer position) := by
  unfold Extracts
  split <;> infer_instance

/-- A PUT is given up only while the job awaits its dataset and the handler does not extract it. The handler of a PUT
that was given up neither opens the staged file nor ends its body, and does not write once a later one has opened the
file. No HEAD is answered while the whole archive is staged for a job that awaits it, and the job is not canceled before
the client is over. -/
def Undisturbed (archive : Bytes) (upload : SnapshotUpload) : SnapshotEvent → Prop
  | .trainer (.opened position _) => upload.client.Awaits position
  | .trainer (.wrote position _) => upload.trainer.opener = some position
  | .trainer (.streamEnded position) => upload.trainer.opener = some position ∧ upload.client.Awaits position
  | .trainer .canceled => upload.trainer.status = .awaitingDataset → upload.client.Over
  | .headAnswered => upload.trainer.status = .awaitingDataset → upload.trainer.uploadOffset ≠ archive.length
  | .putFailed =>
    upload.trainer.status = .awaitingDataset ∧
      match upload.client with
      | .putting _ _ (some position) => ¬Extracts upload.trainer position
      | _ => True
  | _ => True

instance (archive : Bytes) (upload : SnapshotUpload) :
    (event : SnapshotEvent) → Decidable (upload.Undisturbed archive event)
  | .trainer (.opened position _) => inferInstanceAs (Decidable (upload.client.Awaits position))
  | .trainer (.wrote _ _) => inferInstanceAs (Decidable (_ = _))
  | .trainer (.streamEnded position) => inferInstanceAs (Decidable (_ ∧ upload.client.Awaits position))
  | .trainer .canceled => inferInstanceAs (Decidable (_ → upload.client.Over))
  | .headAnswered => inferInstanceAs (Decidable (_ → _))
  | .putFailed => by
    unfold Undisturbed
    rcases upload.client with _ | _ | ⟨_, _, _ | _⟩ | _ | _ | _ <;> infer_instance
  | .trainer (.arrived _ _) | .trainer (.interrupted _) | .trainer (.extractionEnded _ _) | .trainer (.worked _)
  | .headFailed | .looped _ | .putReached _ | .putAnswered | .putStopped => inferInstanceAs (Decidable True)

/-- A normal return means that the job has its dataset, and a dataset that was accepted is not reported as a failure. -/
structure Settles (archive : Bytes) (upload : SnapshotUpload) : Prop where
  returned : upload.client = .returned →
    upload.trainer.status ≠ .awaitingDataset ∧ upload.trainer.dataset = some archive
  accepted : upload.trainer.dataset ≠ none → ∀ message, upload.client ≠ .failed message

end SnapshotUpload

def snapshotUpload (archive : Bytes) : System SnapshotUpload SnapshotEvent where
  initial := {}
  step := SnapshotUpload.step archive

namespace SnapshotUpload

variable {archive : Bytes} {upload next : SnapshotUpload} {event : SnapshotEvent} {position : Nat}

def Informed (archive : Bytes) (upload : SnapshotUpload) : Prop :=
  match upload.client with
  | .stopped | .returned => True
  | .looping _ offset => offset = archive.length
  | .putting _ _ (some position) =>
    ∃ answer, (upload.trainer.handlers position).phase = .answered answer ∧ answer.status < 300
  | .putting _ _ none | .heading _ | .failed _ => False

structure Inv (archive : Bytes) (upload : SnapshotUpload) : Prop where
  trainer : upload.trainer.Inv archive
  sent : ∀ i, (upload.trainer.handlers i).phase ≠ .absent →
    ∃ offset, (upload.trainer.handlers i).request = clientRequest archive offset
  extracting : ∀ i range, (upload.trainer.handlers i).phase = .extracting range →
    range.stop = some (archive.length - 1) ∧ 0 < archive.length ∧
      (upload.client.Awaits i ∨ upload.client = .stopped)
  streaming : ∀ i range file written, (upload.trainer.handlers i).phase = .streaming range file written →
    range.stop = some (archive.length - 1) ∧ 0 < archive.length
  accepted : upload.trainer.dataset ≠ none →
    upload.trainer.dataset = some archive ∧ upload.trainer.status ≠ .awaitingDataset ∧ upload.Informed archive
  left : upload.trainer.status ≠ .awaitingDataset → upload.trainer.dataset ≠ none ∨ upload.client.Over
  answered : ∀ i answer, upload.client.Awaits i → (upload.trainer.handlers i).phase = .answered answer →
    answer.status < 300 → upload.trainer.dataset ≠ none ∧ answer.uploadOffset = some archive.length
  returned : upload.client = .returned → upload.trainer.dataset ≠ none
  full : ∀ attempt, upload.client = .looping attempt archive.length → upload.trainer.dataset ≠ none
  looping : ∀ attempt offset, upload.client = .looping attempt offset → offset ≤ archive.length
  putting : ∀ attempt offset handler, upload.client = .putting attempt offset handler → offset ≤ archive.length

theorem Inv.settles (inv : upload.Inv archive) : upload.Settles archive := by
  constructor
  · intro returned
    obtain ⟨accepted, left, -⟩ := inv.accepted (inv.returned returned)
    exact ⟨left, accepted⟩
  · intro accepted message failed
    have informed := (inv.accepted accepted).2.2
    simp [Informed, failed] at informed

/-- A handler that is not answered moves on, and the job stays as it is. -/
theorem Inv.moved {trainer : DatasetUpload} {phase : Phase} (inv : upload.Inv archive) (kept : trainer.Inv archive)
    (status : trainer.status = upload.trainer.status) (dataset : trainer.dataset = upload.trainer.dataset)
    (requests : ∀ i, (trainer.handlers i).request = (upload.trainer.handlers i).request)
    (phases : ∀ i, (trainer.handlers i).phase = if i = position then phase else (upload.trainer.handlers i).phase)
    (present : (upload.trainer.handlers position).phase ≠ .absent)
    (unanswered : ∀ answer, (upload.trainer.handlers position).phase ≠ .answered answer)
    (extracting : ∀ range, phase = .extracting range → range.stop = some (archive.length - 1) ∧ 0 < archive.length ∧
      (upload.client.Awaits position ∨ upload.client = .stopped))
    (streaming : ∀ range file written, phase = .streaming range file written →
      range.stop = some (archive.length - 1) ∧ 0 < archive.length)
    (answered : ∀ answer, phase = .answered answer → ¬answer.status < 300) :
    Inv archive { upload with trainer := trainer } where
  trainer := kept
  sent i there := by
    rw [phases] at there
    rw [requests]
    split at there
    · next same => exact inv.sent i (same ▸ present)
    · exact inv.sent i there
  extracting i range there := by
    rw [phases] at there
    split at there
    · next same => exact same ▸ extracting range there
    · exact inv.extracting i range there
  streaming i range file written there := by
    rw [phases] at there
    split at there
    · exact streaming range file written there
    · exact inv.streaming i range file written there
  accepted accepted := by
    simp only [status, dataset] at accepted ⊢
    obtain ⟨archived, left, informed⟩ := inv.accepted accepted
    refine ⟨archived, left, ?_⟩
    revert informed
    unfold Informed
    simp only
    split
    · exact id
    · exact id
    · exact id
    · rintro ⟨answer, there, success⟩
      refine ⟨answer, ?_, success⟩
      rw [phases, if_neg, there]
      rintro rfl
      exact unanswered answer there
    all_goals exact id
  left left := by
    simp only [status, dataset] at left ⊢
    exact inv.left left
  answered i answer awaits there success := by
    rw [phases] at there
    rw [dataset]
    split at there
    · exact absurd success (answered answer there)
    · exact inv.answered i answer awaits there success
  returned returned := by
    rw [dataset]
    exact inv.returned returned
  full attempt full := by
    rw [dataset]
    exact inv.full attempt full
  looping := inv.looping
  putting := inv.putting

/-- Nothing was accepted while the client waits for a handler that is not answered. -/
theorem Inv.unaccepted (inv : upload.Inv archive) (awaits : upload.client.Awaits position)
    (unanswered : ∀ answer, (upload.trainer.handlers position).phase ≠ .answered answer) :
    upload.trainer.dataset = none ∧ upload.trainer.status = .awaitingDataset := by
  have none : upload.trainer.dataset = none := by
    by_contra accepted
    have informed := (inv.accepted accepted).2.2
    unfold Informed at informed
    cases client : upload.client with
    | putting attempt offset handler =>
      simp only [client, Client.Awaits] at awaits informed
      subst awaits
      obtain ⟨answer, there, -⟩ := informed
      exact unanswered answer there
    | heading | looping | returned | stopped | failed => simp [client, Client.Awaits] at awaits
  refine ⟨none, ?_⟩
  by_contra left
  rcases inv.left left with accepted | clientOver
  · exact accepted none
  · cases client : upload.client with
    | heading | looping | putting | returned => simp [client, Client.Over] at clientOver
    | stopped | failed => simp [client, Client.Awaits] at awaits

theorem parseUploadRange_client {offset staged : Nat} {range : UploadRange}
    (checked : parseUploadRange staged (clientRequest archive offset).contentRange = .ok range) :
    range.stop = some (archive.length - 1) ∧ 0 < archive.length := by
  simp only [clientRequest, parseUploadRange] at checked
  split at checked
  · cases checked
  · next bounds =>
    split at checked
    · cases checked
    · cases checked
      exact ⟨rfl, by omega⟩

theorem Inv.opened {roomy : Bool} {trainer : DatasetUpload} (inv : upload.Inv archive)
    (awaits : upload.client.Awaits position)
    (stepped : upload.trainer.step (.opened position roomy) = some trainer) :
    Inv archive { upload with trainer := trainer } := by
  have kept := inv.trainer.opened stepped
  obtain ⟨admitted, opened⟩ := DatasetUpload.opened_cases stepped
  have present : (upload.trainer.handlers position).phase ≠ .absent := by simp [admitted]
  have unanswered (answer : Answer) : (upload.trainer.handlers position).phase ≠ .answered answer := by simp [admitted]
  obtain ⟨none, -⟩ := inv.unaccepted awaits unanswered
  rcases opened with ⟨answer, refused, rfl⟩ | ⟨range, checked, rfl | rfl⟩
  · exact inv.moved kept rfl rfl (fun _ => DatasetUpload.setPhase_request) (fun _ => DatasetUpload.setPhase_phase)
      present unanswered (by simp) (by simp) (by simpa using refused)
  · -- nothing was accepted, so the cleanup removes no dataset
    exact inv.moved kept rfl none.symm (fun _ => DatasetUpload.setPhase_request)
      (fun _ => DatasetUpload.setPhase_phase) present unanswered (by simp) (by simp) (by simp)
  · obtain ⟨status, dataset, handlers⟩ := DatasetUpload.openStaged_job range.append upload.trainer
    obtain ⟨offset, sent⟩ := inv.sent position present
    rw [sent] at checked
    refine @Inv.moved archive upload position _
      (.streaming range (upload.trainer.openStaged range.append).2 0) inv kept status dataset (fun i => ?_)
      (fun i => ?_) present unanswered (by simp) ?_ (by simp)
    · rw [DatasetUpload.setPhase_request, handlers]
    · rw [DatasetUpload.setPhase_phase, handlers]
    · intro range' file written there
      cases there
      exact parseUploadRange_client checked

theorem Inv.wrote {count : Nat} {trainer : DatasetUpload} (inv : upload.Inv archive)
    (alone : upload.trainer.opener = some position)
    (stepped : upload.trainer.step (.wrote position count) = some trainer) :
    Inv archive { upload with trainer := trainer } := by
  have kept := inv.trainer.wrote alone stepped
  simp only [DatasetUpload.step] at stepped
  split at stepped
  · next range file written streaming =>
    simp only [Option.ite_none_right_eq_some, Option.some.injEq] at stepped
    obtain ⟨-, rfl⟩ := stepped
    have declared := inv.streaming position range file written streaming
    refine inv.moved kept rfl rfl (fun _ => DatasetUpload.setPhase_request) (fun _ => DatasetUpload.setPhase_phase)
      (by simp [streaming]) (by simp [streaming]) (by simp) ?_ (by simp)
    intro range' file' written' there
    cases there
    exact declared
  · cases stepped

/-- A handler that fails before its body has ended. -/
theorem Inv.interrupted {trainer : DatasetUpload} (inv : upload.Inv archive)
    (stepped : upload.trainer.step (.interrupted position) = some trainer) :
    Inv archive { upload with trainer := trainer } := by
  have kept : trainer.Inv archive := @DatasetUpload.Inv.step _ _ _ (.interrupted position) inv.trainer trivial stepped
  simp only [DatasetUpload.step] at stepped
  split at stepped
  · next admitted =>
    cases stepped
    exact inv.moved kept rfl rfl (fun _ => DatasetUpload.setPhase_request) (fun _ => DatasetUpload.setPhase_phase)
      (by simp [admitted]) (by simp [admitted]) (by simp) (by simp) (by simp)
  · next streaming =>
    cases stepped
    exact inv.moved kept rfl rfl (fun _ => DatasetUpload.setPhase_request) (fun _ => DatasetUpload.setPhase_phase)
      (by simp [streaming]) (by simp [streaming]) (by simp) (by simp) (by simp)
  · cases stepped

theorem streamed_client {range : UploadRange} {written : Nat} (total : range.total = some archive.length)
    (stop : range.stop = some (archive.length - 1)) (positive : 0 < archive.length) {answer : Answer}
    (ended : DatasetUpload.streamed range written = .answered answer) : ¬answer.status < 300 := by
  simp only [DatasetUpload.streamed, total, stop, validateRangeBodySize] at ended
  split at ended
  · next refused =>
    cases ended
    split at refused
    · cases refused
    · cases refused
      simp
  · split at ended
    · omega
    · cases ended

theorem Inv.streamEnded {trainer : DatasetUpload} (inv : upload.Inv archive)
    (alone : upload.trainer.opener = some position) (awaits : upload.client.Awaits position)
    (stepped : upload.trainer.step (.streamEnded position) = some trainer) :
    Inv archive { upload with trainer := trainer } := by
  have kept := inv.trainer.streamEnded alone stepped
  simp only [DatasetUpload.step] at stepped
  split at stepped
  · next range file written streaming =>
    simp only [Option.ite_none_right_eq_some, Option.some.injEq] at stepped
    obtain ⟨-, rfl⟩ := stepped
    obtain ⟨stop, positive⟩ := inv.streaming position range file written streaming
    have total := (inv.trainer.streaming position range file written alone streaming).1.total
    refine inv.moved kept rfl rfl (fun _ => DatasetUpload.setPhase_request) (fun _ => DatasetUpload.setPhase_phase)
      (by simp [streaming]) (by simp [streaming]) ?_ ?_ ?_
    · intro range' there
      rcases @DatasetUpload.streamed_cases range written with ⟨answer, answered⟩ | extracts
      · rw [answered] at there
        cases there
      · rw [extracts] at there
        cases there
        exact ⟨stop, positive, .inl awaits⟩
    · intro range' file' written' there
      rcases @DatasetUpload.streamed_cases range written with ⟨answer, answered⟩ | extracts
      · rw [answered] at there
        cases there
      · rw [extracts] at there
        cases there
    · intro answer there
      exact streamed_client total stop positive there
  · cases stepped

theorem Inv.stopped {trainer : DatasetUpload} (inv : upload.Inv archive) (stopped : upload.client = .stopped)
    (kept : trainer.Inv archive) (requests : ∀ i, (trainer.handlers i).request = (upload.trainer.handlers i).request)
    (phases : ∀ i, (trainer.handlers i).phase = (upload.trainer.handlers i).phase ∨
      (upload.trainer.handlers i).phase ≠ .absent ∧ ∃ answer, (trainer.handlers i).phase = .answered answer)
    (accepted : trainer.dataset ≠ none → trainer.dataset = some archive ∧ trainer.status ≠ .awaitingDataset) :
    Inv archive { upload with trainer := trainer } where
  trainer := kept
  sent i there := by
    rw [requests]
    rcases phases i with same | ⟨present, -⟩
    · exact inv.sent i (same ▸ there)
    · exact inv.sent i present
  extracting i range there := by
    rcases phases i with same | ⟨-, answer, answered⟩
    · exact inv.extracting i range (same ▸ there)
    · rw [answered] at there
      cases there
  streaming i range file written there := by
    rcases phases i with same | ⟨-, answer, answered⟩
    · exact inv.streaming i range file written (same ▸ there)
    · rw [answered] at there
      cases there
  accepted dataset := by
    obtain ⟨archived, left⟩ := accepted dataset
    exact ⟨archived, left, by simp [Informed, stopped]⟩
  left _ := .inr (by simp [stopped, Client.Over])
  answered i answer awaits := by simp [stopped, Client.Awaits] at awaits
  returned returned := by simp [stopped] at returned
  full attempt full := by simp [stopped] at full
  looping attempt offset looping := by simp [stopped] at looping
  putting attempt offset handler putting := by simp [stopped] at putting

theorem Inv.extracted {range : UploadRange} (inv : upload.Inv archive) (awaits : upload.client.Awaits position)
    (extracting : (upload.trainer.handlers position).phase = .extracting range)
    (kept : (upload.trainer.extractionEnded position range .extracted).Inv archive) :
    Inv archive { upload with trainer := upload.trainer.extractionEnded position range .extracted } := by
  obtain ⟨stop, positive, -⟩ := inv.extracting position range extracting
  obtain ⟨none, awaiting⟩ := inv.unaccepted awaits (by simp [extracting])
  have archived := (inv.trainer.extracting position range extracting).2
  rw [DatasetUpload.extractionEnded_accepted range awaiting] at kept ⊢
  -- The handler that extracts is the one that the client awaits.
  have informed : ∃ attempt offset, upload.client = .putting attempt offset (some position) := by
    cases client : upload.client with
    | putting attempt offset handler => exact ⟨attempt, offset, by rw [client] at awaits; exact congrArg _ awaits⟩
    | heading | looping | returned | stopped | failed => simp [client, Client.Awaits] at awaits
  obtain ⟨attempt, offset, client⟩ := informed
  have stopNext : range.stop.map (· + 1) = some archive.length := by
    rw [stop, Option.map_some, Nat.sub_add_cancel positive]
  refine ⟨kept, ?_, ?_, ?_, ?_, ?_, ?_, ?_, ?_, ?_, ?_⟩
  · intro i there
    rw [DatasetUpload.setPhase_phase] at there
    rw [DatasetUpload.setPhase_request]
    split at there
    · next same => exact inv.sent i (by simp [same, extracting])
    · exact inv.sent i there
  · intro i range' there
    rw [DatasetUpload.setPhase_phase] at there
    split at there
    · cases there
    · exact inv.extracting i range' there
  · intro i range' file written there
    rw [DatasetUpload.setPhase_phase] at there
    split at there
    · cases there
    · exact inv.streaming i range' file written there
  · intro accepted
    refine ⟨congrArg some archived, by simp [DatasetUpload.setPhase], ?_⟩
    simp only [Informed, client]
    exact ⟨_, DatasetUpload.setPhase_phase.trans (if_pos rfl), by simp⟩
  · exact fun left => .inl (by simp [DatasetUpload.setPhase])
  · intro i answer awaitsToo there success
    rw [client] at awaitsToo
    obtain rfl : position = i := Option.some.inj awaitsToo
    rw [DatasetUpload.setPhase_phase, if_pos rfl] at there
    cases there
    exact ⟨by simp [DatasetUpload.setPhase], stopNext⟩
  · exact fun returned => by simp [client] at returned
  · exact fun attempt full => by simp [client] at full
  · exact inv.looping
  · exact inv.putting

theorem Inv.extractionEnded {outcome : Extraction} {trainer : DatasetUpload} (inv : upload.Inv archive)
    (stepped : upload.trainer.step (.extractionEnded position outcome) = some trainer) :
    Inv archive { upload with trainer := trainer } := by
  have kept := inv.trainer.extractionEnded stepped
  simp only [DatasetUpload.step] at stepped
  split at stepped
  · next range extracting =>
    split at stepped
    · cases stepped
    · cases stepped
      have archived := (inv.trainer.extracting position range extracting).2
      have present : (upload.trainer.handlers position).phase ≠ .absent := by simp [extracting]
      rcases (inv.extracting position range extracting).2.2 with awaits | stopped
      · obtain ⟨none, awaiting⟩ := inv.unaccepted awaits (by simp [extracting])
        cases outcome with
        | extracted => exact inv.extracted awaits extracting kept
        | invalidArchive detail | noSpace detail =>
          exact inv.moved kept rfl none.symm (fun _ => DatasetUpload.setPhase_request)
            (fun _ => DatasetUpload.setPhase_phase) present (by simp [extracting]) (by simp) (by simp) (by simp)
        | failed =>
          exact inv.moved kept rfl rfl (fun _ => DatasetUpload.setPhase_request)
            (fun _ => DatasetUpload.setPhase_phase) present (by simp [extracting]) (by simp) (by simp) (by simp)
      · obtain ⟨answer, handlers⟩ := DatasetUpload.extractionEnded_handlers position range outcome upload.trainer
        refine inv.stopped stopped kept (fun i => ?_) (fun i => ?_) ?_
        · rw [handlers, DatasetUpload.setPhase_request]
        · rw [handlers, DatasetUpload.setPhase_phase]
          split
          · next same => exact .inr ⟨same ▸ present, answer, rfl⟩
          · exact .inl rfl
        · intro there
          rcases DatasetUpload.extractionEnded_dataset there with ⟨dataset, queued⟩ | ⟨dataset, status⟩
          · rw [dataset, archived, queued]
            exact ⟨rfl, by simp⟩
          · rw [dataset] at there ⊢
            rw [status]
            obtain ⟨archived, left, -⟩ := inv.accepted there
            exact ⟨archived, left⟩
  · cases stepped

theorem Inv.canceled {trainer : DatasetUpload} (inv : upload.Inv archive)
    (clientOver : upload.trainer.status = .awaitingDataset → upload.client.Over)
    (stepped : upload.trainer.step .canceled = some trainer) : Inv archive { upload with trainer := trainer } := by
  have kept : trainer.Inv archive := @DatasetUpload.Inv.step _ _ _ .canceled inv.trainer trivial stepped
  simp only [DatasetUpload.step, Option.ite_none_right_eq_some, Option.some.injEq] at stepped
  obtain ⟨-, rfl⟩ := stepped
  refine ⟨kept, inv.sent, inv.extracting, inv.streaming, ?_, ?_, inv.answered, inv.returned, inv.full, inv.looping,
    inv.putting⟩
  · intro accepted
    obtain ⟨archived, -, informed⟩ := inv.accepted accepted
    exact ⟨archived, by simp, informed⟩
  · intro _
    by_cases awaiting : upload.trainer.status = .awaitingDataset
    · exact .inr (clientOver awaiting)
    · exact inv.left awaiting

theorem Inv.worked {status : TrainerJobStatus} {trainer : DatasetUpload} (inv : upload.Inv archive)
    (stepped : upload.trainer.step (.worked status) = some trainer) :
    Inv archive { upload with trainer := trainer } := by
  have kept : trainer.Inv archive := @DatasetUpload.Inv.step _ _ _ (.worked status) inv.trainer trivial stepped
  have moved : trainer = { upload.trainer with status := status } ∧ upload.trainer.status ≠ .awaitingDataset ∧
      status ≠ .awaitingDataset := by
    simp only [DatasetUpload.step] at stepped
    split at stepped
    all_goals
      cases stepped
    all_goals
      next before => exact ⟨rfl, by simp [before], by simp⟩
  obtain ⟨rfl, before, after⟩ := moved
  refine ⟨kept, inv.sent, inv.extracting, inv.streaming, ?_, fun _ => inv.left before, inv.answered, inv.returned,
    inv.full, inv.looping, inv.putting⟩
  intro accepted
  obtain ⟨archived, -, informed⟩ := inv.accepted accepted
  exact ⟨archived, after, informed⟩

theorem Inv.turned {client : Client} (inv : upload.Inv archive) (alone : ∀ i, ¬client.Awaits i)
    (extracting : ∀ i range, (upload.trainer.handlers i).phase = .extracting range → client = .stopped)
    (accepted : upload.trainer.dataset ≠ none → Informed archive { upload with client := client })
    (left : upload.trainer.status ≠ .awaitingDataset → upload.trainer.dataset ≠ none ∨ client.Over)
    (returned : client = .returned → upload.trainer.dataset ≠ none)
    (full : ∀ attempt, client = .looping attempt archive.length → upload.trainer.dataset ≠ none)
    (looping : ∀ attempt offset, client = .looping attempt offset → offset ≤ archive.length)
    (putting : ∀ attempt offset handler, client = .putting attempt offset handler → offset ≤ archive.length) :
    Inv archive { upload with client := client } where
  trainer := inv.trainer
  sent := inv.sent
  extracting i range there :=
    have ⟨stop, positive, _⟩ := inv.extracting i range there
    ⟨stop, positive, .inr (extracting i range there)⟩
  streaming := inv.streaming
  accepted there :=
    have ⟨archived, left, _⟩ := inv.accepted there
    ⟨archived, left, accepted there⟩
  left := left
  answered i _ awaits := absurd awaits (alone i)
  returned := returned
  full := full
  looping := looping
  putting := putting

theorem Inv.unaccepted_of_not_informed (inv : upload.Inv archive) (uninformed : ¬upload.Informed archive) :
    upload.trainer.dataset = none := by
  by_contra accepted
  exact uninformed (inv.accepted accepted).2.2

/-- A client that gives up while nothing was accepted. -/
theorem Inv.failed (inv : upload.Inv archive) (message : String) (none : upload.trainer.dataset = none)
    (idle : ∀ i range, (upload.trainer.handlers i).phase ≠ .extracting range) :
    Inv archive { upload with client := .failed message } :=
  inv.turned (by simp [Client.Awaits]) (fun i range there => absurd there (idle i range)) (fun there => absurd none there)
    (fun _ => .inr trivial) (by simp) (by simp) (by simp) (by simp)

theorem Inv.idle (inv : upload.Inv archive) (alone : ∀ i, ¬upload.client.Awaits i) (going : upload.client ≠ .stopped)
    (i : Nat) (range : UploadRange) : (upload.trainer.handlers i).phase ≠ .extracting range := by
  intro there
  rcases (inv.extracting i range there).2.2 with awaits | stopped
  · exact alone i awaits
  · exact going stopped

theorem Inv.headAnswered (inv : upload.Inv archive)
    (partly : upload.trainer.status = .awaitingDataset → upload.trainer.uploadOffset ≠ archive.length)
    (stepped : upload.step archive .headAnswered = some next) : next.Inv archive := by
  simp only [step] at stepped
  split at stepped
  · next attempt heading =>
    cases stepped
    have none := inv.unaccepted_of_not_informed (by simp [Informed, heading])
    have idle := inv.idle (by simp [heading, Client.Awaits]) (by simp [heading])
    simp only [Client.getUploadOffset, DatasetUpload.getDatasetUploadOffset]
    by_cases awaiting : upload.trainer.status = .awaitingDataset
    · have offset := partly awaiting
      simp only [if_pos awaiting, Option.getD_some]
      split
      · exact inv.failed _ none idle
      · split
        · next bound =>
          refine inv.turned (by simp [Client.Awaits]) (fun i range there => absurd there (idle i range))
            (fun there => absurd none there) (fun left => absurd awaiting left) (by simp) ?_ ?_ (by simp)
          · intro attempt full
            exact absurd (Client.looping.inj full).2 offset
          · intro attempt offset looping
            obtain ⟨-, rfl⟩ := Client.looping.inj looping
            exact bound
        · exact inv.failed _ none idle
    · simp only [if_neg awaiting]
      exact inv.failed _ none idle
  · cases stepped

theorem Inv.looped {stop : Bool} (inv : upload.Inv archive)
    (stepped : upload.step archive (.looped stop) = some next) : next.Inv archive := by
  simp only [step] at stepped
  split at stepped
  · next attempt offset looping =>
    have idle := inv.idle (by simp [looping, Client.Awaits]) (by simp [looping])
    have none (partly : offset ≠ archive.length) : upload.trainer.dataset = none :=
      inv.unaccepted_of_not_informed (by simpa [Informed, looping] using partly)
    split at stepped
    · next again =>
      split at stepped
      · cases stepped
        exact inv.turned (by simp [Client.Awaits]) (fun i range there => absurd there (idle i range))
          (fun _ => trivial) (fun _ => .inr trivial) (by simp) (by simp) (by simp) (by simp)
      · cases stepped
        refine inv.turned (by simp [Client.Awaits]) (fun i range there => absurd there (idle i range))
          (fun there => absurd (none again.2) there) ?_ (by simp) (by simp) (by simp) ?_
        · intro left
          refine (inv.left left).imp_right ?_
          simp [looping, Client.Over]
        · intro attempt' offset' handler putting
          obtain ⟨-, rfl, -⟩ := Client.putting.inj putting
          exact inv.looping attempt _ looping
    · split at stepped
      · next partly =>
        cases stepped
        exact inv.failed _ (none partly) idle
      · next all =>
        cases stepped
        have accepted := inv.full attempt (by rw [looping, not_not.mp all])
        exact inv.turned (by simp [Client.Awaits]) (fun i range there => absurd there (idle i range))
          (fun _ => trivial) (fun _ => .inl accepted) (fun _ => accepted) (by simp) (by simp) (by simp)
  · cases stepped

theorem Inv.putAgain (inv : upload.Inv archive) (attempt : Nat) (none : upload.trainer.dataset = none)
    (idle : ∀ i range, (upload.trainer.handlers i).phase ≠ .extracting range) (going : ¬upload.client.Over) :
    Inv archive { upload with client := Client.interrupted attempt } := by
  unfold Client.interrupted
  split
  · exact inv.failed _ none idle
  · refine inv.turned (by simp [Client.Awaits]) (fun i range there => absurd there (idle i range))
      (fun there => absurd none there) ?_ (by simp) (by simp) (by simp) (by simp)
    exact fun left => .inl ((inv.left left).resolve_right going)

theorem Inv.putReached (inv : upload.Inv archive)
    (stepped : upload.step archive (.putReached position) = some next) : next.Inv archive := by
  simp only [step] at stepped
  split at stepped
  · next attempt offset putting =>
    obtain ⟨trainer, arrived, rfl⟩ := Option.map_eq_some_iff.mp stepped
    have none := inv.unaccepted_of_not_informed (by simp [Informed, putting])
    have idle := inv.idle (by simp [putting, Client.Awaits]) (by simp [putting])
    have bound := inv.putting attempt offset _ putting
    have sends : SendsRange archive (clientRequest archive offset) := ⟨rfl, List.take_prefix _ _⟩
    have fits : FitsRest archive (clientRequest archive offset) := by
      simp only [FitsRest, clientRequest, List.length_drop]
      omega
    have kept := inv.trainer.arrived sends fits arrived
    simp only [DatasetUpload.step, Option.ite_none_right_eq_some, Option.some.injEq] at arrived
    obtain ⟨absent, rfl⟩ := arrived
    refine ⟨kept, ?_, ?_, ?_, fun there => absurd none there, ?_, ?_, by simp, by simp, by simp, ?_⟩
    · intro i there
      by_cases same : i = position
      · subst same
        exact ⟨offset, by simp⟩
      · simp only [Function.update_of_ne same] at there ⊢
        exact inv.sent i there
    · intro i range there
      by_cases same : i = position
      · subst same
        simp only [Function.update_self] at there
        split at there <;> cases there
      · simp only [Function.update_of_ne same] at there
        exact absurd there (idle i range)
    · intro i range file written there
      by_cases same : i = position
      · subst same
        simp only [Function.update_self] at there
        split at there <;> cases there
      · simp only [Function.update_of_ne same] at there
        exact inv.streaming i range file written there
    · intro left
      refine (inv.left left).imp_right ?_
      simp [putting, Client.Over]
    · intro i answer awaits there success
      obtain rfl : position = i := Option.some.inj awaits
      simp only [Function.update_self] at there
      split at there
      · cases there
      · cases there
        simp at success
    · intro attempt' offset' handler put
      obtain ⟨-, rfl, -⟩ := Client.putting.inj put
      exact bound
  · cases stepped

theorem Inv.putAnswered (inv : upload.Inv archive)
    (stepped : upload.step archive .putAnswered = some next) : next.Inv archive := by
  simp only [step] at stepped
  split at stepped
  · next attempt offset position putting =>
    split at stepped
    · next answer answered =>
      have awaits : upload.client.Awaits position := by rw [putting]; rfl
      -- the awaited handler is answered, so none extracts
      have idle (i : Nat) (range : UploadRange) : (upload.trainer.handlers i).phase ≠ .extracting range := by
        intro there
        rcases (inv.extracting i range there).2.2 with other | stopped
        · rw [putting] at other
          obtain rfl : position = i := Option.some.inj other
          rw [answered] at there
          cases there
        · rw [putting] at stopped
          cases stopped
      split at stepped
      · next refused =>
        cases stepped
        refine inv.putAgain attempt (inv.unaccepted_of_not_informed ?_) idle (by simp [putting, Client.Over])
        simp only [Informed, putting]
        rintro ⟨other, there, success⟩
        rw [answered] at there
        cases there
        omega
      · next accepted =>
        cases stepped
        obtain ⟨there, offset⟩ := inv.answered position answer awaits answered (by omega)
        rw [offset, Option.getD_some]
        refine inv.turned (by simp [Client.Awaits]) (fun i range there => absurd there (idle i range)) (fun _ => rfl)
          (fun _ => .inl there) (by simp) (fun _ _ => there) ?_ (by simp)
        intro attempt' offset' looping
        exact (Client.looping.inj looping).2.ge
    · cases stepped
  · cases stepped

theorem Inv.putFailed (inv : upload.Inv archive) (orderly : upload.Undisturbed archive .putFailed)
    (stepped : upload.step archive .putFailed = some next) : next.Inv archive := by
  obtain ⟨awaiting, undisturbed⟩ := orderly
  simp only [step] at stepped
  split at stepped
  · next attempt offset handler putting =>
    cases stepped
    have none : upload.trainer.dataset = none := by
      by_contra accepted
      exact (inv.accepted accepted).2.1 awaiting
    refine inv.putAgain attempt none (fun i range there => ?_) (by simp [putting, Client.Over])
    rcases (inv.extracting i range there).2.2 with awaits | stopped
    · rw [putting] at awaits undisturbed
      obtain rfl : handler = some i := awaits
      exact undisturbed (by simp [Extracts, there])
    · rw [putting] at stopped
      cases stopped
  · cases stepped

theorem Inv.step (inv : upload.Inv archive) (orderly : upload.Undisturbed archive event)
    (stepped : upload.step archive event = some next) : next.Inv archive := by
  cases event with
  | trainer moved =>
    cases moved with
    | arrived position request => simp [SnapshotUpload.step] at stepped
    | opened position roomy =>
      obtain ⟨trainer, moved, rfl⟩ := Option.map_eq_some_iff.mp stepped
      exact inv.opened orderly moved
    | wrote position count =>
      obtain ⟨trainer, moved, rfl⟩ := Option.map_eq_some_iff.mp stepped
      exact inv.wrote orderly moved
    | interrupted position =>
      obtain ⟨trainer, moved, rfl⟩ := Option.map_eq_some_iff.mp stepped
      exact inv.interrupted moved
    | streamEnded position =>
      obtain ⟨trainer, moved, rfl⟩ := Option.map_eq_some_iff.mp stepped
      exact inv.streamEnded orderly.1 orderly.2 moved
    | extractionEnded position outcome =>
      obtain ⟨trainer, moved, rfl⟩ := Option.map_eq_some_iff.mp stepped
      exact inv.extractionEnded moved
    | canceled =>
      obtain ⟨trainer, moved, rfl⟩ := Option.map_eq_some_iff.mp stepped
      exact inv.canceled orderly moved
    | worked status =>
      obtain ⟨trainer, moved, rfl⟩ := Option.map_eq_some_iff.mp stepped
      exact inv.worked moved
  | headAnswered => exact inv.headAnswered orderly stepped
  | headFailed =>
    simp only [SnapshotUpload.step] at stepped
    split at stepped
    · next attempt heading =>
      cases stepped
      exact inv.failed _ (inv.unaccepted_of_not_informed (by simp [Informed, heading]))
        (inv.idle (by simp [heading, Client.Awaits]) (by simp [heading]))
    · cases stepped
  | looped stop => exact inv.looped stepped
  | putReached position => exact inv.putReached stepped
  | putAnswered => exact inv.putAnswered stepped
  | putFailed => exact inv.putFailed orderly stepped
  | putStopped =>
    simp only [SnapshotUpload.step] at stepped
    split at stepped
    · cases stepped
      exact inv.turned (by simp [Client.Awaits]) (fun _ _ _ => rfl) (fun _ => trivial) (fun _ => .inr trivial) (by simp)
        (by simp) (by simp) (by simp)
    · cases stepped

theorem Inv.initial : Inv archive {} := by
  refine ⟨DatasetUpload.Inv.initial, ?_, ?_, ?_, ?_, ?_, ?_, ?_, ?_, ?_, ?_⟩ <;> simp [Client.Awaits]

end SnapshotUpload

/-- In an undisturbed run the client returns normally only when the job has its dataset, extracted from the client's
archive, and does not report a failure when the trainer has accepted it. -/
theorem upload_settles {archive : Bytes} {history : List SnapshotEvent} {upload : SnapshotUpload}
    (run : (snapshotUpload archive).reached history = some upload)
    (undisturbed : (snapshotUpload archive).Throughout (SnapshotUpload.Undisturbed archive) history) :
    upload.Settles archive := by
  have inv := System.invariant (P := SnapshotUpload.Inv archive) SnapshotUpload.Inv.initial
    (fun before event next inv undisturbed stepped => inv.step undisturbed stepped) undisturbed run
  exact inv.settles

/-- The first PUT is cut after one byte, and the second one brings the rest. -/
def resumedSnapshot : List SnapshotEvent :=
  [.looped false, .putAnswered, .trainer (.extractionEnded 1 .extracted), .trainer (.streamEnded 1),
    .trainer (.wrote 1 1), .trainer (.opened 1 true), .putReached 1, .looped false, .headAnswered,
    .trainer (.interrupted 0), .putFailed, .trainer (.wrote 0 1), .trainer (.opened 0 true), .putReached 0,
    .looped false, .headAnswered]

theorem resumed_snapshot_settles :
    ∃ upload, (snapshotUpload [7, 8]).reached resumedSnapshot = some upload ∧ upload.client = .returned ∧
      upload.Settles [7, 8] := by
  have returns : ((snapshotUpload [7, 8]).reached resumedSnapshot).any (·.client = .returned) := by decide +kernel
  obtain ⟨upload, run, returned⟩ := (Option.any_eq_true _ _).mp returns
  exact ⟨upload, run, of_decide_eq_true returned, upload_settles run (by decide +kernel)⟩

/-- The extraction fails and leaves the whole archive staged, and the next HEAD ends the loop as if it were accepted. -/
def stagedSnapshot : List SnapshotEvent :=
  [.looped false, .headAnswered, .putAnswered, .trainer (.extractionEnded 0 .failed), .trainer (.streamEnded 0),
    .trainer (.wrote 0 2), .trainer (.opened 0 true), .putReached 0, .looped false, .headAnswered]

theorem staged_taken_for_accepted :
    ¬ ∀ (archive : Bytes) (history : List SnapshotEvent) (upload : SnapshotUpload),
      (snapshotUpload archive).reached history = some upload → upload.Settles archive := by
  intro every
  have awaits : ((snapshotUpload [7, 8]).reached stagedSnapshot).any
      (fun upload => upload.client = .returned ∧ upload.trainer.status = .awaitingDataset) := by decide +kernel
  obtain ⟨upload, run, returned⟩ := (Option.any_eq_true _ _).mp awaits
  obtain ⟨returned, awaiting⟩ := of_decide_eq_true returned
  exact ((every [7, 8] stagedSnapshot upload run).returned returned).1 awaiting

end PhysicalAiStudio.Trainer
