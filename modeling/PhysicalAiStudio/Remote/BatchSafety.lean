import PhysicalAiStudio.Remote.BatchPhases

/-! No Batch job is lost, unless a call fails in the one moment in which only the run knows its id.

The run is followed from its first check to its end: what holds before a call, and
what every answer leaves behind.
-/

set_option autoImplicit false

namespace PhysicalAiStudio.Remote.Batch

open Interaction Interaction.Dialogue Concurrency

/-! ## Submitting -/

section Submitting

variable {context : TrainingContext} {backend : Backend} {told : History} {jobId : JobId} {rounds : Nat}

theorem Unsaved.known (unsaved : Unsaved context jobId told) : jobId ∈ submitted told := by
  obtain ⟨given, _⟩ | ⟨_, one⟩ := unsaved.only
  · exact absurd (.inl given) unsaved.unknown
  · exact one ▸ List.mem_singleton_self jobId

theorem Unsaved.sole (unsaved : Unsaved context jobId told) : ∀ other ∈ submitted told, other = jobId := by
  obtain ⟨given, _⟩ | ⟨_, one⟩ := unsaved.only
  · exact absurd (.inl given) unsaved.unknown
  · simp [one]

theorem Unsaved.waits (unsaved : Unsaved context jobId told) : Waits context backend told :=
  iff_of_true (unsaved.only.kept_iff.mpr trivial) unsaved.careful

/-- A reply that loses nothing keeps the history careful. -/
theorem Unsaved.cons (unsaved : Unsaved context jobId told) {reply : Reply Answer}
    (harmless : loses jobId reply = false) :
    Careful context (reply :: told) := by
  refine ⟨fun other listed loss => ?_, unsaved.careful⟩
  rw [unsaved.sole other listed, harmless] at loss
  cases loss

/-- A reply that loses the job ends the care, and leaves the job to nobody. -/
theorem Unsaved.lost (unsaved : Unsaved context jobId told) {reply : Reply Answer} {fault : Fault}
    (loss : loses jobId reply) (other : accepted reply = none)
    (unknown : ¬Persisted context jobId (reply :: told)) (running : ¬Terminated jobId (reply :: told))
    (plain : Accounted context jobId (reply :: told) (.raised fault) →
      Persisted context jobId (reply :: told) ∨ Terminated jobId (reply :: told)) :
    Ends context fault backend (reply :: told) := by
  refine iff_of_false (fun kept => ?_) (fun careful => ?_)
  · exact (plain ((unsaved.only.other other).kept_iff.mp kept)).elim unknown running
  · exact unsaved.unknown (careful.1 jobId unsaved.known loss)

theorem Unsaved.heard (unsaved : Unsaved context jobId told) {question : Question} {answer : Answer question}
    (neutral : question.neutral) (harmless : loses jobId ⟨question, answer⟩ = false) :
    Unsaved context jobId (⟨question, answer⟩ :: told) where
  only := unsaved.only.other (accepted_neutral neutral)
  unknown persisted := unsaved.unknown ((persisted_neutral neutral).mp persisted)
  running terminated := unsaved.running ((terminated_neutral neutral).mp terminated)
  careful := unsaved.cons harmless

theorem Unsaved.clear {kept : Backend → History → Prop} (unsaved : Unsaved context jobId told) :
    (clearIssue context).Meets (fun _ _ => Unsaved context jobId) (Fails context kept) (Waits context)
      backend told := by
  have reported : ∀ {backend told}, Unsaved context jobId told →
      (reportIssue context none).Meets (fun _ _ => Unsaved context jobId) (Fails context kept) (Waits context)
        backend told := by
    intro backend told unsaved
    unfold reportIssue
    rw [meets_ite, meets_bind]
    refine ⟨fun _ => ⟨unsaved.waits, fun answer => ?_⟩, fun _ => unsaved⟩
    cases answer with
    | ok => exact unsaved.heard rfl rfl
    | error message =>
        refine ⟨unsaved.lost rfl rfl ?_ ?_ (fun accounted => accounted), by simp⟩
        · exact fun persisted => unsaved.unknown ((persisted_neutral rfl).mp persisted)
        · exact fun terminated => unsaved.running ((terminated_neutral rfl).mp terminated)
  simp only [clearIssue, meets_bind, meets_view, meets_ite, meets_pure, meets_modify]
  refine ⟨fun _ => ⟨fun _ => reported unsaved, fun _ => unsaved⟩, fun _ => ⟨unsaved.waits, fun answer => ?_⟩⟩
  have unsaved : Unsaved context jobId (⟨.payloadIssue, answer⟩ :: told) := unsaved.heard rfl rfl
  change Meets _ _ _ (ite _ _ _) backend _
  rw [meets_ite]
  exact ⟨fun _ => reported unsaved, fun _ => unsaved⟩

theorem meets_call {Value : Type} {returns : Value → Backend → History → Prop}
    {raises : Fault → Backend → History → Prop} {pauses : Backend → History → Prop} (result : Except AwsError Value) :
    (call result).Meets returns raises pauses backend told ↔
      (∀ value, result = .ok value → returns value backend told) ∧
        ∀ error, result = .error error → raises (.call error) backend told := by
  cases result <;> simp [call, Except.mapError]

/-- The id of an accepted job is persisted, or its termination is tried. -/
theorem meets_persist (callback : context.onRemoteJobId) (unsaved : Unsaved context jobId told)
    (remote : backend.remoteJobId = some jobId) :
    (persist context jobId).Meets (fun _ => Live context jobId) (Ends context) (Waits context) backend told := by
  rw [persist, if_pos callback, meets_bind]
  refine ⟨unsaved.waits, fun answer => ?_⟩
  have only : Only context jobId (⟨.onRemoteJobId jobId, answer⟩ :: told) := unsaved.only.other rfl
  have careful : Careful context (⟨.onRemoteJobId jobId, answer⟩ :: told) := unsaved.cons rfl
  have running : ¬Terminated jobId (⟨.onRemoteJobId jobId, answer⟩ :: told) := by
    simpa [Terminated] using unsaved.running
  cases answer with
  | ok => exact ⟨⟨remote, only, .inr List.mem_cons_self, careful⟩, running⟩
  | error message =>
      have unknown : ¬Persisted context jobId (⟨.onRemoteJobId jobId, .error message⟩ :: told) := by
        simpa [Persisted] using unsaved.unknown
      have unsaved : Unsaved context jobId (⟨.onRemoteJobId jobId, .error message⟩ :: told) :=
        ⟨only, unknown, running, careful⟩
      change Meets _ _ _ (terminate jobId >>= fun _ => raise (.callback message)) backend _
      rw [meets_bind, terminate, meets_bind]
      refine ⟨unsaved.waits, fun result => (meets_call result).mpr ⟨?_, ?_⟩⟩
      · rintro _ rfl
        refine iff_of_true (Only.kept_iff ?_ |>.mpr (.inr List.mem_cons_self)) (unsaved.cons rfl)
        exact unsaved.only.other rfl
      · rintro error rfl
        refine unsaved.lost (by simp [loses]) rfl ?_ ?_ (fun accounted => accounted)
        · simpa [Persisted] using unsaved.unknown
        · simpa [Terminated] using unsaved.running

theorem meets_submit {kept : Backend → History → Prop} (fresh : Fresh context backend told) :
    submit.Meets
      (fun jobId => (clearIssue context).Meets (fun _ _ => Unsaved context jobId) (Fails context kept) (Waits context))
      (fun fault backend told => Fresh context backend told ∧ Ends context fault backend told)
      (Waits context) backend told := by
  unfold submit
  rw [meets_bind]
  refine ⟨fresh.waits, fun result => (meets_call result).mpr ⟨?_, ?_⟩⟩
  · rintro jobId rfl
    refine Unsaved.clear ⟨.inr ⟨fresh.given, ?_⟩, ?_, ?_, ?_⟩
    · rw [submitted_cons, fresh.none_submitted]
      rfl
    · simpa [Persisted] using fresh.none_persisted jobId
    · simpa [Terminated] using fresh.none_terminated jobId
    · exact fresh.careful.cons (by simp [fresh.none_submitted])
  · rintro error rfl
    have fresh : Fresh context backend (⟨.submitJob, .error error⟩ :: told) :=
      { given := fresh.given
        remote := fresh.remote
        none_submitted := (submitted_other rfl).trans fresh.none_submitted
        none_persisted := fun jobId => by simpa [Persisted] using fresh.none_persisted jobId
        none_terminated := fun jobId => by simpa [Terminated] using fresh.none_terminated jobId
        careful := fresh.careful.cons (by simp [fresh.none_submitted]) }
    exact ⟨fresh, fresh.ends _⟩

end Submitting

/-! ## Calls that touch no job -/

section Calls

variable {context : TrainingContext} {backend : Backend} {told : History} {jobId : JobId} {rounds : Nat}
  {known : Option JobId} {condition : Backend → History → Prop}

theorem Phase.query_call (phase : Phase context rounds known condition) (question : Question)
    (neutral : question.neutral) (result : Answer question → Except AwsError Unit) (holds : condition backend told) :
    (query question >>= fun answer => call (result answer) : Run Unit).Meets (fun _ => condition)
      (fun fault backend told => condition backend told ∧ Ends context fault backend told)
      (Waits context) backend told := by
  rw [meets_bind, meets_query]
  refine ⟨phase.waits holds, fun answer => (meets_call _).mpr ?_⟩
  have holds := phase.heard answer neutral holds
  exact ⟨fun _ _ => holds, fun error _ => ⟨holds, phase.errs error holds⟩⟩

theorem Phase.query_relayed (phase : Phase context rounds known condition) (question : Question)
    (neutral : question.neutral) (result : Answer question → Except AwsError Unit) (holds : condition backend told) :
    (query question >>= fun answer => relayed (result answer) : Run Unit).Meets (fun _ => condition)
      (fun fault backend told => condition backend told ∧ Ends context fault backend told)
      (Waits context) backend told := by
  rw [meets_bind, meets_query]
  refine ⟨phase.waits holds, fun answer => ?_⟩
  have holds := phase.heard answer neutral holds
  unfold relayed
  split
  · exact holds
  · rename_i error _
    rw [meets_ite]
    exact ⟨fun _ => holds, fun _ => ⟨holds, phase.errs error holds⟩⟩

theorem Phase.relayLogs (phase : Phase context rounds known condition) (job : BatchJob)
    (holds : condition backend told) :
    (relayLogs job).Meets (fun _ => condition)
      (fun fault backend told => condition backend told ∧ Ends context fault backend told)
      (Waits context) backend told := by
  unfold Batch.relayLogs
  split
  · rename_i stream group _ _
    exact phase.query_relayed (.logEvents group stream) rfl (fun answer => answer) holds
  · exact holds

theorem Phase.startingTask (phase : Phase context rounds known condition) (job : BatchJob)
    (holds : condition backend told) :
    (startingTask job).Meets (fun _ => condition)
      (fun fault backend told => condition backend told ∧ Ends context fault backend told)
      (Waits context) backend told := by
  unfold Batch.startingTask
  split
  · rename_i cluster taskArn _
    exact phase.query_relayed (.describeTasks cluster taskArn) rfl (fun answer => answer) holds
  · exact holds

theorem Phase.transfer (phase : Phase context rounds known condition) {operation : Run Unit}
    (operated : ∀ {backend told}, condition backend told →
      operation.Meets (fun _ => condition)
        (fun fault backend told => condition backend told ∧ Ends context fault backend told)
        (Waits context) backend told)
    (holds : condition backend told) :
    (transfer context rounds known operation).Meets (fun _ => condition) (Ends context) (Waits context)
      backend told := by
  unfold Batch.transfer
  rw [meets_bind, meets_caught]
  refine (phase.operation (fun _ => phase.toSteady) operated holds).mono (fun _ _ _ holds => holds)
    (fun fault backend told failed => ?_)
  dsimp only
  rw [meets_ite, meets_bind]
  refine ⟨fun stopped => ?_, fun _ => failed.1⟩
  refine (phase.check (failed.2 _ stopped)).mono (fun _ backend told holds => ?_) (fun _ _ _ ended => ended.1)
  rw [stopped]
  exact phase.errs _ holds

theorem meets_launch (callback : context.onRemoteJobId) (fresh : Fresh context backend told) :
    (launch context rounds).Meets (Live context) (Ends context) (Waits context) backend told := by
  have phase : Phase context rounds none (Fresh context) := phase_fresh context rounds
  rw [launch, meets_ite]
  refine ⟨fun _ => ?_, fun _ => fresh.ends _⟩
  rw [meets_bind, meets_query]
  refine ⟨fresh.waits, fun archive => ?_⟩
  have fresh : Fresh context backend (⟨.createDatasetArchive, archive⟩ :: told) := fresh.heard rfl
  rw [meets_bind, meets_call]
  refine ⟨fun _ _ => ?_, fun error _ => fresh.ends _⟩
  rw [meets_bind]
  refine (phase.check fresh).mono (fun _ backend told fresh => ?_) (fun _ _ _ ended => ended.1)
  rw [meets_bind]
  refine (phase.transfer (phase.query_call .uploadInputs rfl fun answer => answer) fresh).mono
    (fun _ backend told fresh => ?_) (fun _ _ _ ended => ended)
  rw [meets_bind]
  refine (phase.check fresh).mono (fun _ backend told fresh => ?_) (fun _ _ _ ended => ended.1)
  rw [meets_bind]
  refine (phase.withAuthentication meets_submit fresh).mono (fun jobId backend told unsaved => ?_)
    (fun _ _ _ ended => ended.1)
  rw [meets_bind, meets_modify, meets_bind]
  exact (meets_persist callback unsaved rfl).mono (fun _ _ _ live => live) (fun _ _ _ ended => ended)

end Calls

/-! ## Waiting -/

section Waiting

variable {context : TrainingContext} {backend : Backend} {told : History} {jobId : JobId} {rounds : Nat}

def Polled (jobId : JobId) (job : BatchJob) (status : Option BatchJobStatus) (told : History) : Prop :=
  ∃ newer older others object, status = object.toOption ∧ told = newer ++
    (⟨.statusObject, object⟩ : Reply Answer) :: ⟨.describeJobs jobId, .ok (job :: others)⟩ :: older

theorem polled_lasting {job : BatchJob} {status : Option BatchJobStatus} (reply : Reply Answer) (told : History)
    (polled : Polled jobId job status told) : Polled jobId job status (reply :: told) := by
  obtain ⟨newer, older, others, object, read, same⟩ := polled
  exact ⟨reply :: newer, older, others, object, read, by rw [same, List.cons_append]⟩

theorem succeeded_lasting (reply : Reply Answer) (told : History) (succeeded : Succeeded jobId told) :
    Succeeded jobId (reply :: told) := by
  obtain ⟨newer, older, job, others, object, same, rest⟩ := succeeded
  exact ⟨reply :: newer, older, job, others, object, by rw [same, List.cons_append], rest⟩

theorem delivered_lasting (reply : Reply Answer) (told : History) (delivered : Delivered jobId told) :
    Delivered jobId (reply :: told) := by
  obtain ⟨newer, older, same, succeeded, extracted⟩ := delivered
  exact ⟨reply :: newer, older, by rw [same, List.cons_append], succeeded, List.mem_cons_of_mem _ extracted⟩

theorem Polled.succeeded {job : BatchJob} {status : Option BatchJobStatus} (polled : Polled jobId job status told)
    (done : job.status = .succeeded) (unfailed : ¬reports status .failed) (uncanceled : ¬reports status .canceled) :
    Succeeded jobId told := by
  obtain ⟨newer, older, others, object, rfl, same⟩ := polled
  refine ⟨newer, older, job, others, object, same, done, fun status read => ?_⟩
  subst read
  simpa [reports, Except.toOption] using And.intro unfailed uncanceled

theorem meets_poll {fact : History → Prop} (lasting : ∀ reply told, fact told → fact (reply :: told))
    (live : LiveWith context jobId fact backend told) :
    (poll jobId).Meets (fun polled => LiveWith context jobId (Polled jobId polled.1 polled.2))
      (fun fault backend told => LiveWith context jobId fact backend told ∧ Ends context fault backend told)
      (Waits context) backend told := by
  have steady : Steady context (LiveWith context jobId fact) := steady_live.and_lasting lasting
  unfold poll
  rw [meets_bind]
  refine steady.query rfl live fun described live => ?_
  rw [meets_bind, meets_call]
  refine ⟨fun jobs listed => ?_, fun error _ => ⟨live, live.1.ends (by simp)⟩⟩
  cases jobs with
  | nil => exact ⟨live, live.1.ends (by simp)⟩
  | cons job others =>
      subst listed
      change Meets _ _ _ (query Question.statusObject >>= _) backend _
      rw [meets_bind]
      refine steady.query rfl live fun object live => ?_
      cases object with
      | ok status => exact ⟨live.1, [], told, others, .ok status, rfl, rfl⟩
      | error error =>
          change Meets _ _ _ (ite _ _ _) backend _
          rw [meets_ite]
          refine ⟨fun _ => ⟨live.1, [], told, others, .error error, rfl, rfl⟩, fun _ => ?_⟩
          exact ⟨live, live.1.ends (by simp)⟩

theorem meets_conclude {job : BatchJob} {status : Option BatchJobStatus}
    (live : LiveWith context jobId (Polled jobId job status) backend told) :
    (conclude jobId job status).Meets
      (Sum.elim (fun _ => LiveWith context jobId fun _ => True) (fun _ => LiveWith context jobId (Succeeded jobId)))
      (Ends context) (Waits context) backend told := by
  have failure : ∀ reason, Ends context (failureMessage reason) backend told := fun reason =>
    live.1.ends (by simp [failureMessage])
  have stopped : ¬(job.status = .failed ∨ job.status = .succeeded) →
      (terminate jobId).Meets (fun _ => Ends context (failureMessage (status.bind (·.message)))) (Ends context)
        (Waits context) backend told := fun _ =>
    (meets_terminate polled_lasting live).mono (fun _ _ _ halted => halted.ends (by simp [failureMessage]))
      (fun _ _ _ failed => failed.2)
  simp only [conclude, meets_ite, meets_bind, meets_raise, meets_pure, Sum.elim_inl, Sum.elim_inr]
  refine ⟨fun _ => ⟨fun _ => failure _, stopped⟩, fun unfailed => ⟨fun _ => failure _, fun _ => ?_⟩⟩
  refine ⟨fun done => ?_, fun _ => ?_⟩
  · exact ⟨fun _ => failure _, fun uncanceled => ⟨live.1, live.2.succeeded done unfailed uncanceled⟩⟩
  · exact ⟨live.1, trivial⟩

theorem Fault.fromAws_call {fault : Fault} (fromAws : fault.fromAws) : ∃ error, fault = .call error := by
  cases fault with
  | call error => exact ⟨error, rfl⟩
  | callback | canceled | suspended | value | runtime => cases fromAws

theorem meets_wait (live : Live context jobId backend told) :
    (wait context rounds jobId).Meets (fun _ => LiveWith context jobId (Succeeded jobId)) (Ends context)
      (Waits context) backend told := by
  have phase : Phase context rounds (some jobId) (LiveWith context jobId fun _ => True) :=
    phase_live (fun _ _ _ => trivial) rounds
  -- Each poll leaves a live job, whatever was told of it.
  have steady : ∀ polled : BatchJob × Option BatchJobStatus,
      Steady context (LiveWith context jobId (Polled jobId polled.1 polled.2)) :=
    fun _ => steady_live.and_lasting polled_lasting
  refine meets_loop (fun _ => LiveWith context jobId fun _ => True) (fun _ _ _ live => live.1.1.waits)
    (fun _ backend told live => ?_) rounds ⟨live, trivial⟩
  rw [meets_bind]
  refine (phase.check live).mono (fun _ backend told live => ?_) (fun _ _ _ ended => ended.1)
  rw [meets_bind, meets_caught]
  refine (phase.operation steady (meets_poll fun _ _ _ => trivial) live).mono (fun polled backend told live => ?_)
    (fun fault backend told failed => ?_)
  · have polledPhase : Phase context rounds (some jobId) (LiveWith context jobId (Polled jobId polled.1 polled.2)) :=
      phase_live polled_lasting rounds
    dsimp only
    rw [meets_bind]
    refine (polledPhase.operation (fun _ => polledPhase.toSteady) (polledPhase.relayLogs polled.1) live).mono
      (fun _ backend told live => ?_) (fun _ _ _ ended => ended.1)
    rw [meets_ite, meets_bind]
    refine ⟨fun _ => ?_, fun _ => meets_conclude live⟩
    exact (polledPhase.operation (fun _ => polledPhase.toSteady) (polledPhase.startingTask polled.1) live).mono
      (fun _ _ _ live => meets_conclude live) (fun _ _ _ ended => ended.1)
  · dsimp only
    rw [meets_ite, meets_bind]
    refine ⟨fun fromAws => ?_, fun _ => failed.1⟩
    obtain ⟨error, rfl⟩ := Fault.fromAws_call fromAws
    refine phase.query rfl (failed.2 error rfl) fun lost live => ?_
    rw [meets_ite]
    exact ⟨fun _ => phase.errs error live, fun _ => live⟩

theorem meets_attend (live : Live context jobId backend told) :
    (attend context rounds jobId).Meets (fun _ => LiveWith context jobId (Delivered jobId)) (Ends context)
      (Waits context) backend told := by
  have phase : Phase context rounds (some jobId) (LiveWith context jobId (Succeeded jobId)) :=
    phase_live succeeded_lasting rounds
  have delivered : Phase context rounds (some jobId) (LiveWith context jobId (Delivered jobId)) :=
    phase_live delivered_lasting rounds
  unfold attend
  rw [meets_bind]
  refine (meets_wait live).mono (fun _ backend told live => ?_) (fun _ _ _ ended => ended)
  rw [meets_bind]
  refine (phase.check live).mono (fun _ backend told live => ?_) (fun _ _ _ ended => ended.1)
  rw [meets_bind]
  refine (phase.transfer (phase.query_call .downloadArtifact rfl fun answer => answer) live).mono
    (fun _ backend told live => ?_) (fun _ _ _ ended => ended)
  rw [meets_bind]
  refine (phase.check live).mono (fun _ backend told live => ?_) (fun _ _ _ ended => ended.1)
  rw [meets_bind, meets_query]
  refine ⟨live.1.1.waits, fun extracted => ?_⟩
  have heard : LiveWith context jobId (Succeeded jobId) backend (⟨.extract, extracted⟩ :: told) :=
    phase.heard extracted rfl live
  rw [meets_bind, meets_call]
  refine ⟨fun _ done => ?_, fun error _ => phase.errs error heard⟩
  subst done
  have fetched : Delivered jobId (⟨.extract, .ok ()⟩ :: told) :=
    ⟨[⟨.extract, .ok ()⟩], told, rfl, live.2, List.mem_singleton_self _⟩
  exact (delivered.check ⟨heard.1, fetched⟩).mono (fun _ _ _ live => live) (fun _ _ _ ended => ended.1)

end Waiting

/-! ## Whole runs -/

theorem meets_train {context : TrainingContext} (callback : context.remoteJobId = none → context.onRemoteJobId)
    (rounds : Nat) :
    (train context rounds).Meets (fun _ _ told => Kept context told (.returned ()) ↔ Careful context told)
      (Ends context) (Waits context) (Backend.fresh context) [] := by
  have ended : ∀ {jobId backend told}, LiveWith context jobId (Delivered jobId) backend told →
      (Kept context told (.returned ()) ↔ Careful context told) := fun live =>
    iff_of_true (live.1.1.only.kept_iff.mpr live.2) live.1.1.careful
  unfold train
  rw [meets_bind]
  -- Without a job it is launched first; a job of an earlier run is taken as saved.
  cases given : context.remoteJobId with
  | none =>
      have fresh : Fresh context (Backend.fresh context) [] :=
        { given := given
          remote := given
          none_submitted := rfl
          none_persisted := by simp [Persisted, given]
          none_terminated := by simp [Terminated]
          careful := trivial }
      refine ((phase_fresh context rounds).check fresh).mono (fun _ backend told fresh => ?_)
        (fun _ _ _ ended => ended.1)
      rw [meets_bind]
      refine (meets_launch (callback given) fresh).mono (fun jobId backend told live => ?_) (fun _ _ _ ended => ended)
      exact (meets_attend live).mono (fun _ _ _ live => ended live) (fun _ _ _ ended => ended)
  | some jobId =>
      have saved : Saved context jobId (Backend.fresh context) [] :=
        ⟨given, .inl ⟨given, rfl⟩, .inl given, trivial⟩
      have live : LiveWith context jobId (fun _ => True) (Backend.fresh context) [] :=
        ⟨⟨saved, by simp [Terminated]⟩, trivial⟩
      refine ((phase_live (fun _ _ _ => trivial) rounds).check live).mono (fun _ backend told live => ?_)
        (fun _ _ _ ended => ended.1)
      rw [meets_bind, meets_pure]
      exact (meets_attend live.1).mono (fun _ _ _ live => ended live) (fun _ _ _ ended => ended)

/-- In a run that can persist a job id, the jobs are accounted for at its end if and only if no
call failed that loses an accepted job before its id was persisted. -/
theorem jobs_accounted_for {context : TrainingContext} (callback : context.remoteJobId = none → context.onRemoteJobId)
    (rounds : Nat) (script : List (Reply Answer)) (exit : Exit Fault Unit) (backend : Backend)
    (ran : (train context rounds).play (Backend.fresh context) script = some (exit, backend)) :
    Kept context script.reverse exit ↔ Careful context script.reverse := by
  have achieved := (meets_train callback rounds).achieved ran
  rw [List.append_nil] at achieved
  cases exit with
  | returned => exact achieved
  | raised fault => exact achieved
  | waiting => exact achieved

def freshContext : TrainingContext :=
  { remoteJobId := none, snapshot := true, onRemoteJobId := true, onAuthenticationIssue := true }

def expiredSession : AwsAuthenticationIssue :=
  { profileName := "default", code := "aws_credentials_expired", title := "AWS SSO session missing or expired"
    detail := "Renew the session", command := some "aws sso login --profile=default" }

/-- The upload and the checks before the submission, without a signal. -/
def uploaded : List (Reply Answer) :=
  [⟨.shouldStop, false⟩, ⟨.shouldCancelJob, false⟩, ⟨.createDatasetArchive, .ok ()⟩, ⟨.shouldStop, false⟩,
    ⟨.shouldCancelJob, false⟩, ⟨.shouldStop, false⟩, ⟨.shouldCancelJob, false⟩, ⟨.uploadInputs, .ok ()⟩,
    ⟨.payloadIssue, false⟩, ⟨.shouldStop, false⟩, ⟨.shouldCancelJob, false⟩, ⟨.shouldStop, false⟩,
    ⟨.shouldCancelJob, false⟩]

def rejectedId : List (Reply Answer) :=
  uploaded ++ [⟨.submitJob, .ok 7⟩, ⟨.payloadIssue, false⟩, ⟨.onRemoteJobId 7, .error "database is locked"⟩,
    ⟨.terminateJob 7, .ok ()⟩]

theorem jobs_accounted_for_rejected_id :
    Kept freshContext rejectedId.reverse (.raised (.callback "database is locked")) :=
  (jobs_accounted_for (fun _ => rfl) 1 rejectedId _ _ rfl).mpr (by
    simp [rejectedId, uploaded, Careful, submitted, accepted, loses])

/-- The session expires at the submission and is renewed, the job is accepted, and the callback
that clears the issue raises. -/
def failedClearing : List (Reply Answer) :=
  uploaded ++ [⟨.submitJob, .error (.authentication expiredSession)⟩,
    ⟨.onAuthenticationIssue (some expiredSession), .ok ()⟩, ⟨.shouldSuspend, false⟩, ⟨.shouldStop, false⟩,
    ⟨.shouldCancelJob, false⟩, ⟨.submitJob, .ok 7⟩, ⟨.onAuthenticationIssue none, .error "database is locked"⟩]

/-- The job of that run goes on, and nobody knows its id. -/
theorem accepted_job_lost :
    ¬∀ (context : TrainingContext) (rounds : Nat) (script : List (Reply Answer)) (exit : Exit Fault Unit)
      (backend : Backend), (context.remoteJobId = none → context.onRemoteJobId) →
      (train context rounds).play (Backend.fresh context) script = some (exit, backend) →
      Kept context script.reverse exit := by
  intro every
  have kept := every freshContext 2 failedClearing _ _ (fun _ => rfl) rfl
  have accounted := kept.2.2 7 (.inr (by simp [failedClearing, uploaded, submitted, accepted]))
  simp [failedClearing, uploaded, freshContext, Accounted, Persisted, Terminated] at accounted

end PhysicalAiStudio.Remote.Batch
