import PhysicalAiStudio.Trainer.DatasetUpload

/-! What is staged while a client uploads one archive.

Every PUT sends a range of the archive, with a body that follows the archive as far as the
archive goes, and that may be cut, or be longer than its range or than the archive.
-/

set_option autoImplicit false

namespace PhysicalAiStudio.Trainer

open Concurrency

def SendsRange (archive : Bytes) (request : PutRequest) : Prop :=
  match request.contentRange with
  | .bytes start _ total => total = archive.length ∧ request.body.take (archive.length - start) <+: archive.drop start
  | .absent | .malformed => False

def FitsRest (archive : Bytes) (request : PutRequest) : Prop :=
  match request.contentRange with
  | .bytes start _ _ => start + request.body.length ≤ archive.length
  | .absent | .malformed => True

instance (archive : Bytes) (request : PutRequest) : Decidable (SendsRange archive request) := by
  unfold SendsRange
  split <;> infer_instance

instance (archive : Bytes) (request : PutRequest) : Decidable (FitsRest archive request) := by
  unfold FitsRest
  split <;> infer_instance

namespace DatasetUpload

def stepFrom (archive : Bytes) (upload : DatasetUpload) : UploadEvent → Option DatasetUpload
  | .arrived position request =>
    if SendsRange archive request then upload.step (.arrived position request) else none
  | event => upload.step event

/-- Only the handler that has opened the staged file last writes to it and comes to the end of its body, and no body is
longer than the rest of the archive. -/
def OneAtATime (archive : Bytes) (upload : DatasetUpload) : UploadEvent → Prop
  | .arrived _ request => FitsRest archive request
  | .wrote position _ | .streamEnded position => upload.opener = some position
  | _ => True

instance (archive : Bytes) (upload : DatasetUpload) : (event : UploadEvent) → Decidable (upload.OneAtATime archive event)
  | .arrived _ request => inferInstanceAs (Decidable (FitsRest archive request))
  | .wrote _ _ | .streamEnded _ => inferInstanceAs (Decidable (_ = _))
  | .opened _ _ | .interrupted _ | .extractionEnded _ _ | .canceled | .worked _ => inferInstanceAs (Decidable True)

def ProceedsWith (archive : Bytes) (upload : DatasetUpload) (event : UploadEvent) : Prop :=
  ∀ position next, event = .streamEnded position → upload.step event = some next →
    (∃ range, (next.handlers position).phase = .extracting range) → next.stagedBytes = archive

end DatasetUpload

def datasetUpload (archive : Bytes) : System DatasetUpload UploadEvent where
  initial := {}
  step := DatasetUpload.stepFrom archive

namespace DatasetUpload

variable {archive bytes : Bytes} {upload next : DatasetUpload} {event : UploadEvent} {position : Nat} {phase : Phase}

/-- What holds of a handler with a checked range whose body is the archive's. -/
structure Fits (archive : Bytes) (request : PutRequest) (range : UploadRange) : Prop where
  total : range.total = some archive.length
  stop : ∃ stop, range.stop = some stop ∧ range.start ≤ stop
  append : range.append = true ∨ range.start = 0
  body : request.body <+: archive.drop range.start
  room : range.start + request.body.length ≤ archive.length

structure Inv (archive : Bytes) (upload : DatasetUpload) : Prop where
  isPrefix : upload.stagedBytes <+: archive
  fresh : ∀ file, upload.staged = some file → file < upload.created
  requests : ∀ i, (upload.handlers i).phase ≠ .absent →
    SendsRange archive (upload.handlers i).request ∧ FitsRest archive (upload.handlers i).request
  /-- The last opener has staged the archive as far as it has written. -/
  streaming : ∀ i range file written, upload.opener = some i →
    (upload.handlers i).phase = .streaming range file written →
      Fits archive (upload.handlers i).request range ∧ upload.staged = some file ∧
        upload.stagedBytes = archive.take (range.start + written)
  extracting : ∀ i range, (upload.handlers i).phase = .extracting range →
    upload.opener = some i ∧ upload.stagedBytes = archive

theorem Inv.answered (inv : upload.Inv archive) (present : (upload.handlers position).phase ≠ .absent)
    (answer : Answer) : (upload.setPhase position (.answered answer)).Inv archive where
  isPrefix := inv.isPrefix
  fresh := inv.fresh
  requests i there := by
    rw [setPhase_request]
    rw [setPhase_phase] at there
    split at there
    · next same => exact inv.requests i (same ▸ present)
    · exact inv.requests i there
  streaming i range file written opened there := by
    rw [setPhase_request]
    rw [setPhase_phase] at there
    split at there
    · cases there
    · exact inv.streaming i range file written opened there
  extracting i range there := by
    rw [setPhase_phase] at there
    split at there
    · cases there
    · exact inv.extracting i range there

theorem Inv.unstaged (inv : upload.Inv archive) (handlers : next.handlers = upload.handlers)
    (unlinked : next.staged = none) (idle : ∀ i range, (upload.handlers i).phase ≠ .extracting range)
    (closed : ∀ i range file written, next.opener = some i →
      (upload.handlers i).phase ≠ .streaming range file written) : next.Inv archive where
  isPrefix := by simp [stagedBytes, unlinked]
  fresh file staged := by
    rw [unlinked] at staged
    cases staged
  requests := by
    rw [handlers]
    exact inv.requests
  streaming i range file written opened there := by
    rw [handlers] at there
    exact absurd there (closed i range file written opened)
  extracting i range there := by
    rw [handlers] at there
    exact absurd there (idle i range)

theorem Inv.fits {range : UploadRange} (inv : upload.Inv archive)
    (admitted : (upload.handlers position).phase = .admitted)
    (checked : parseUploadRange upload.uploadOffset (upload.handlers position).request.contentRange = .ok range) :
    Fits archive (upload.handlers position).request range ∧ range.start = upload.stagedBytes.length ∧
      range.start < archive.length ∧ range.append = decide (0 < range.start) := by
  obtain ⟨sends, fits⟩ := inv.requests position (by simp [admitted])
  rw [SendsRange] at sends
  rw [FitsRest] at fits
  cases header : (upload.handlers position).request.contentRange with
  | absent | malformed => simp [header] at sends
  | bytes start stop total =>
    simp only [header] at sends fits checked
    simp only [parseUploadRange] at checked
    split at checked
    · cases checked
    · next bounds =>
      split at checked
      · cases checked
      · next offset =>
        cases checked
        obtain ⟨rfl, body⟩ := sends
        rw [List.take_of_length_le (by omega)] at body
        refine ⟨⟨rfl, ⟨stop, rfl, by simp only; omega⟩, ?_, body, fits⟩, ?_, ?_, rfl⟩
        · simp only [decide_eq_true_eq]
          omega
        · simpa [uploadOffset] using offset
        · simp only
          omega

theorem writtenTo_take {request : PutRequest} {range : UploadRange} {written count : Nat}
    (fits : Fits archive request range) (room : written + count ≤ request.body.length) :
    writtenTo range.append written ((request.body.drop written).take count) (archive.take (range.start + written)) =
      archive.take (range.start + (written + count)) := by
  obtain ⟨rest, body⟩ := fits.body
  have written_eq : (request.body.drop written).take count = (archive.drop (range.start + written)).take count := by
    rw [← List.drop_drop, ← body, List.drop_append_of_le_length (by omega), List.take_append_of_le_length (by
      rw [List.length_drop]
      omega)]
  have length : (archive.take (range.start + written)).length = range.start + written := by
    have := fits.room
    rw [List.length_take]
    omega
  have appended : writtenTo range.append written ((request.body.drop written).take count)
      (archive.take (range.start + written)) =
        archive.take (range.start + written) ++ (request.body.drop written).take count := by
    rcases fits.append with append | start
    · simp [writtenTo, append]
    · -- the file was opened in mode wb, so the position is the end of what was written
      rw [start, Nat.zero_add] at length ⊢
      exact writtenTo_end length
  rw [appended, written_eq, ← Nat.add_assoc]
  exact List.take_add.symm

theorem streamed_extracting {request : PutRequest} {range extracted : UploadRange}
    (fits : Fits archive request range) (ended : streamed range request.body.length = .extracting extracted) :
    range.start + request.body.length = archive.length := by
  obtain ⟨stop, stop_eq, ordered⟩ := fits.stop
  have room := fits.room
  simp only [streamed, fits.total, stop_eq, validateRangeBodySize] at ended
  split at ended
  · cases ended
  · next valid =>
    split at valid
    · next size =>
      split at ended
      · cases ended
      · omega
    · cases valid

theorem streamed_cases {range : UploadRange} {written : Nat} :
    (∃ answer, streamed range written = .answered answer) ∨ streamed range written = .extracting range := by
  rw [streamed]
  split
  · exact .inr rfl
  · split
    · exact .inl ⟨_, rfl⟩
    · split
      · exact .inl ⟨_, rfl⟩
      · split
        · exact .inl ⟨_, rfl⟩
        · exact .inr rfl

theorem Inv.arrived {request : PutRequest} (inv : upload.Inv archive) (sends : SendsRange archive request)
    (fits : FitsRest archive request) (stepped : upload.step (.arrived position request) = some next) :
    next.Inv archive := by
  simp only [step, Option.ite_none_right_eq_some, Option.some.injEq] at stepped
  obtain ⟨absent, rfl⟩ := stepped
  refine ⟨inv.isPrefix, inv.fresh, ?_, ?_, ?_⟩
  · intro i there
    by_cases same : i = position
    · subst same
      simpa using ⟨sends, fits⟩
    · simp only [Function.update_of_ne same] at there ⊢
      exact inv.requests i there
  · intro i range file written opened there
    by_cases same : i = position
    · subst same
      simp only [Function.update_self] at there
      split at there <;> cases there
    · simp only [Function.update_of_ne same] at there ⊢
      exact inv.streaming i range file written opened there
  · intro i range there
    by_cases same : i = position
    · subst same
      simp only [Function.update_self] at there
      split at there <;> cases there
    · simp only [Function.update_of_ne same] at there
      exact inv.extracting i range there

/-- An extraction that ends well unlinks the staged file, also when the job was canceled meanwhile. -/
theorem extracted_spec (position : Nat) (range : UploadRange) (upload : DatasetUpload) :
    (upload.extractionEnded position range .extracted).staged = none ∧
      (upload.extractionEnded position range .extracted).opener = upload.opener ∧
      (upload.extractionEnded position range .extracted).handlers = (upload.setPhase position
        (.answered { status := 202, uploadOffset := range.stop.map (· + 1) })).handlers := by
  simp only [DatasetUpload.extractionEnded, markDatasetReady]
  split <;> split <;> exact ⟨rfl, rfl, rfl⟩

theorem Inv.idle (inv : upload.Inv archive) (room : upload.stagedBytes.length < archive.length) (i : Nat)
    (range : UploadRange) : (upload.handlers i).phase ≠ .extracting range := by
  intro extracting
  rw [(inv.extracting i range extracting).2] at room
  exact Nat.lt_irrefl _ room

theorem openStaged_spec {range : UploadRange} (inv : upload.Inv archive)
    (append : range.append = decide (0 < range.start)) (offset : range.start = upload.stagedBytes.length) :
    (upload.openStaged range.append).1.staged = some (upload.openStaged range.append).2 ∧
      (upload.openStaged range.append).1.stagedBytes = archive.take range.start ∧
      (upload.openStaged range.append).2 < (upload.openStaged range.append).1.created ∧
      (upload.openStaged range.append).1.handlers = upload.handlers := by
  have isPrefix : upload.stagedBytes = archive.take range.start := by
    rw [offset]
    exact List.prefix_iff_eq_take.mp inv.isPrefix
  unfold openStaged
  cases staged : upload.staged with
  | some file =>
    simp only
    split
    · exact ⟨staged, isPrefix, inv.fresh file staged, rfl⟩
    · next overwrites =>
      have start : range.start = 0 := by
        rw [append] at overwrites
        simpa using overwrites
      refine ⟨rfl, ?_, inv.fresh file staged, rfl⟩
      simp [stagedBytes, start]
  | none =>
    have start : range.start = 0 := by
      rw [offset]
      simp [stagedBytes, staged]
    refine ⟨rfl, ?_, Nat.lt_succ_self _, rfl⟩
    simp [stagedBytes, start]

theorem Inv.opened {roomy : Bool} (inv : upload.Inv archive)
    (stepped : upload.step (.opened position roomy) = some next) : next.Inv archive := by
  obtain ⟨admitted, refused⟩ := opened_cases stepped
  have present : (upload.handlers position).phase ≠ .absent := by simp [admitted]
  rcases refused with ⟨answer, -, rfl⟩ | ⟨range, checked, opened⟩
  · exact inv.answered present answer
  · obtain ⟨fits, offset, room, append⟩ := inv.fits admitted checked
    have idle := inv.idle (offset ▸ room)
    rcases opened with rfl | rfl
    · refine (inv.answered present { status := 507 }).unstaged rfl rfl ?_ ?_
      · intro i range
        rw [setPhase_phase]
        split
        · simp
        · exact idle i range
      · intro i range file written opened
        obtain rfl : position = i := Option.some.inj opened
        simp [setPhase_phase]
    · obtain ⟨staged, bytes, fresh, handlers⟩ := openStaged_spec inv append offset
      refine ⟨?_, ?_, ?_, ?_, ?_⟩
      · rw [setPhase_stagedBytes]
        exact bytes ▸ List.take_prefix _ _
      · intro file named
        rw [← Option.some.inj (staged.symm.trans named)]
        exact fresh
      · intro i there
        rw [setPhase_request]
        rw [setPhase_phase] at there
        simp only [handlers] at there ⊢
        split at there
        · next same => exact inv.requests i (same ▸ present)
        · exact inv.requests i there
      · intro i range' file written opened there
        obtain rfl : position = i := Option.some.inj opened
        rw [setPhase_phase, if_pos rfl] at there
        cases there
        rw [setPhase_request]
        simp only [handlers]
        exact ⟨fits, staged, bytes⟩
      · intro i range' there
        rw [setPhase_phase] at there
        simp only [handlers] at there
        split at there
        · cases there
        · exact absurd there (idle i range')

theorem Inv.wrote {count : Nat} (inv : upload.Inv archive) (alone : upload.opener = some position)
    (stepped : upload.step (.wrote position count) = some next) : next.Inv archive := by
  simp only [step] at stepped
  split at stepped
  · next range file written streaming =>
    simp only [Option.ite_none_right_eq_some, Option.some.injEq] at stepped
    obtain ⟨room, rfl⟩ := stepped
    obtain ⟨fits, staged, bytes⟩ := inv.streaming position range file written alone streaming
    have bytesNext := writtenTo_take fits room
    rw [← bytes] at bytesNext
    simp only [stagedBytes, staged] at bytesNext
    refine ⟨?_, inv.fresh, ?_, ?_, ?_⟩
    · rw [setPhase_stagedBytes]
      simp only [stagedBytes, staged, Function.update_self, bytesNext]
      exact List.take_prefix _ _
    · intro i there
      rw [setPhase_request]
      rw [setPhase_phase] at there
      split at there
      · next same => exact inv.requests i (by simp [same, streaming])
      · exact inv.requests i there
    · intro i range' file' written' opened there
      obtain rfl : position = i := Option.some.inj (alone.symm.trans opened)
      rw [setPhase_phase, if_pos rfl] at there
      cases there
      rw [setPhase_request]
      refine ⟨fits, staged, ?_⟩
      rw [setPhase_stagedBytes]
      simp only [stagedBytes, staged, Function.update_self, bytesNext]
    · intro i range' there
      rw [setPhase_phase] at there
      split at there
      · cases there
      · next other =>
        have opened := (inv.extracting i range' there).1
        exact absurd (Option.some.inj (opened.symm.trans alone)) other
  · cases stepped

theorem Inv.streamEnded (inv : upload.Inv archive) (alone : upload.opener = some position)
    (stepped : upload.step (.streamEnded position) = some next) : next.Inv archive := by
  simp only [step] at stepped
  split at stepped
  · next range file written streaming =>
    simp only [Option.ite_none_right_eq_some, Option.some.injEq] at stepped
    obtain ⟨rfl, rfl⟩ := stepped
    obtain ⟨fits, staged, bytes⟩ := inv.streaming position range file _ alone streaming
    have present : (upload.handlers position).phase ≠ .absent := by simp [streaming]
    rcases @streamed_cases range (upload.handlers position).request.body.length with ⟨answer, answered⟩ | ends
    · rw [answered]
      exact inv.answered present answer
    · have all := streamed_extracting fits ends
      have archived : upload.stagedBytes = archive := by rw [bytes, all, List.take_length]
      rw [ends]
      refine ⟨inv.isPrefix, inv.fresh, ?_, ?_, ?_⟩
      · intro i there
        rw [setPhase_request]
        rw [setPhase_phase] at there
        split at there
        · next same => exact inv.requests i (same ▸ present)
        · exact inv.requests i there
      · intro i range' file' written' opened there
        obtain rfl : position = i := Option.some.inj (alone.symm.trans opened)
        rw [setPhase_phase, if_pos rfl] at there
        cases there
      · intro i range' there
        rw [setPhase_phase] at there
        split at there
        · next same => exact ⟨same ▸ alone, archived⟩
        · exact inv.extracting i range' there
  · cases stepped

theorem Inv.extractionEnded {outcome : Extraction} (inv : upload.Inv archive)
    (stepped : upload.step (.extractionEnded position outcome) = some next) : next.Inv archive := by
  simp only [step] at stepped
  split at stepped
  · next range extracting =>
    split at stepped
    · cases stepped
    · cases stepped
      obtain ⟨opened, archived⟩ := inv.extracting position range extracting
      have present : (upload.handlers position).phase ≠ .absent := by simp [extracting]
      -- nobody else extracts, and the last opener is the handler that is answered
      have ended (answer : Answer) (i : Nat) (range' : UploadRange) :
          ((upload.setPhase position (.answered answer)).handlers i).phase ≠ .extracting range' := by
        rw [setPhase_phase]
        split
        · simp
        · next other =>
          intro there
          exact other (Option.some.inj ((inv.extracting i range' there).1.symm.trans opened))
      have closed (answer : Answer) (i : Nat) (range' : UploadRange) (file written : Nat)
          (last : upload.opener = some i) :
          ((upload.setPhase position (.answered answer)).handlers i).phase ≠ .streaming range' file written := by
        obtain rfl : position = i := Option.some.inj (opened.symm.trans last)
        simp [setPhase_phase]
      cases outcome with
      | extracted =>
        obtain ⟨unlinked, sameOpener, sameHandlers⟩ := extracted_spec position range upload
        refine (inv.answered present _).unstaged sameHandlers unlinked (ended _) ?_
        rw [sameOpener]
        exact closed _
      | invalidArchive detail | noSpace detail =>
        exact (inv.answered present _).unstaged rfl rfl (ended _) (closed _)
      | failed => exact inv.answered present _
  · cases stepped

theorem Inv.step (inv : upload.Inv archive) (alone : upload.OneAtATime archive event)
    (stepped : upload.stepFrom archive event = some next) : next.Inv archive := by
  cases event with
  | arrived position request =>
    simp only [stepFrom, Option.ite_none_right_eq_some] at stepped
    exact inv.arrived stepped.1 alone stepped.2
  | opened position roomy => exact inv.opened stepped
  | wrote position count => exact inv.wrote alone stepped
  | interrupted position =>
    simp only [stepFrom, DatasetUpload.step] at stepped
    split at stepped
    · next admitted =>
      cases stepped
      exact inv.answered (by simp [admitted]) _
    · next streaming =>
      cases stepped
      exact inv.answered (by simp [streaming]) _
    · cases stepped
  | streamEnded position => exact inv.streamEnded alone stepped
  | extractionEnded position outcome => exact inv.extractionEnded stepped
  | canceled =>
    simp only [stepFrom, DatasetUpload.step, Option.ite_none_right_eq_some, Option.some.injEq] at stepped
    obtain ⟨-, rfl⟩ := stepped
    exact ⟨inv.isPrefix, inv.fresh, inv.requests, inv.streaming, inv.extracting⟩
  | worked status =>
    simp only [stepFrom, DatasetUpload.step] at stepped
    split at stepped
    all_goals
      cases stepped
    all_goals exact ⟨inv.isPrefix, inv.fresh, inv.requests, inv.streaming, inv.extracting⟩

theorem Inv.proceedsWith (inv : upload.Inv archive) (alone : upload.OneAtATime archive event) :
    upload.ProceedsWith archive event := by
  rintro position next rfl stepped ⟨range, extracting⟩
  exact ((inv.streamEnded alone stepped).extracting position range extracting).2

theorem Inv.initial : Inv archive {} := by
  refine ⟨?_, ?_, ?_, ?_, ?_⟩ <;> simp [stagedBytes]

end DatasetUpload

/-- In a run in which only the last opener writes and ends its body, and no body is longer than the rest of the archive,
the staged file is a prefix of the archive, and only the whole archive is extracted. -/
theorem staged_is_prefix {archive : Bytes} {history : List UploadEvent} {upload : DatasetUpload}
    (run : (datasetUpload archive).reached history = some upload)
    (alone : (datasetUpload archive).Throughout (DatasetUpload.OneAtATime archive) history) :
    upload.stagedBytes <+: archive ∧ upload.stagedBytes.length ≤ archive.length ∧
      (datasetUpload archive).Throughout (DatasetUpload.ProceedsWith archive) history := by
  have inv := System.invariant DatasetUpload.Inv.initial
    (fun before event next inv alone stepped => inv.step alone stepped) alone run
  have throughout := System.invariant_throughout DatasetUpload.Inv.initial
    (fun before event next inv alone stepped => inv.step alone stepped) alone
  refine ⟨inv.isPrefix, inv.isPrefix.length_le, throughout.mono ?_⟩
  rintro before event ⟨inv, alone⟩
  exact inv.proceedsWith alone

def restFrom (offset : Nat) : PutRequest :=
  { contentRange := .bytes offset 1 2, body := [7, 8].drop offset }

def resumedUpload : List UploadEvent :=
  [.streamEnded 1, .wrote 1 1, .opened 1 true, .arrived 1 (restFrom 1), .interrupted 0, .wrote 0 1, .opened 0 true,
    .arrived 0 (restFrom 0)]

theorem resumed_upload_staged :
    ∃ upload, (datasetUpload [7, 8]).reached resumedUpload = some upload ∧ upload.stagedBytes <+: [7, 8] ∧
      upload.stagedBytes.length ≤ 2 ∧
        (datasetUpload [7, 8]).Throughout (DatasetUpload.ProceedsWith [7, 8]) resumedUpload := by
  obtain ⟨upload, run⟩ := Option.isSome_iff_exists.mp
    (show ((datasetUpload [7, 8]).reached resumedUpload).isSome by decide +kernel)
  exact ⟨upload, run, staged_is_prefix run (by decide +kernel)⟩

/-- After the first byte two PUTs of the second pass the offset check before either has written. -/
def overlappingRetry : List UploadEvent :=
  [.wrote 2 1, .wrote 1 1, .opened 2 true, .arrived 2 (restFrom 1), .opened 1 true, .arrived 1 (restFrom 1),
    .streamEnded 0, .wrote 0 1, .opened 0 true, .arrived 0 { contentRange := .bytes 0 0 2, body := [7] }]

/-- Both handlers append the last byte. -/
theorem retry_appends_twice :
    ¬ ∀ (archive : Bytes) (history : List UploadEvent) (upload : DatasetUpload),
      (datasetUpload archive).reached history = some upload → upload.stagedBytes <+: archive := by
  intro every
  have twice : ((datasetUpload [7, 8]).reached overlappingRetry).any (¬·.stagedBytes <+: [7, 8]) := by decide +kernel
  obtain ⟨upload, run, differs⟩ := (Option.any_eq_true _ _).mp twice
  exact of_decide_eq_true differs (every [7, 8] overlappingRetry upload run)

end PhysicalAiStudio.Trainer
