import PhysicalAiStudio.Interaction.Dialogue

/-! Training on AWS Batch.

The backend of one training run: it uploads the inputs, submits the Batch job or
reattaches to a submitted one, waits for it and fetches its artifact. AWS, the
callbacks and the stop signals of the context are the surroundings: every read of a
signal, every awaited callback and every AWS call is one question. Progress reports
and log lines cannot fail and are not read back, so they are left out.
-/

set_option autoImplicit false

namespace PhysicalAiStudio.Remote.Batch

open Interaction Interaction.Dialogue

abbrev JobId := Nat

structure AwsAuthenticationIssue where
  profileName : String
  code : String
  title : String
  detail : String
  command : Option String
  deriving DecidableEq

/-- What a call to AWS, or the code around it, can raise. `authentication` stands for every
error that `authentication_issue` recognises, with the issue it finds. -/
inductive AwsError where
  | authentication (issue : AwsAuthenticationIssue)
  | client (code : String)
  | botocore
  | transferStopped
  | other (message : String)
  deriving DecidableEq

inductive Fault where
  | call (error : AwsError)
  | callback (message : String)
  | canceled
  | suspended
  | value (message : String)
  | runtime (message : String)
  deriving DecidableEq

inductive JobStatus where
  | submitted
  | pending
  | runnable
  | starting
  | running
  | succeeded
  | failed
  deriving DecidableEq

/-- The parts of a `describe_jobs` entry that decide how the run goes on. -/
structure BatchJob where
  status : JobStatus
  statusReason : Option String
  logStreamName : Option String
  logGroup : Option String
  taskArn : Option String
  deriving DecidableEq

inductive TrainerJobStatus where
  | awaitingDataset
  | queued
  | running
  | completed
  | failed
  | canceled
  deriving DecidableEq

structure BatchJobStatus where
  status : TrainerJobStatus
  message : Option String
  deriving DecidableEq

inductive Question where
  | shouldStop
  | shouldCancelJob
  | shouldSuspend
  | payloadIssue
  | onAuthenticationIssue (issue : Option AwsAuthenticationIssue)
  | onRemoteJobId (jobId : JobId)
  | createDatasetArchive
  | uploadInputs
  | submitJob
  | terminateJob (jobId : JobId)
  | describeJobs (jobId : JobId)
  | statusObject
  | contactLost
  | logEvents (group stream : String)
  | describeTasks (cluster taskArn : String)
  | downloadArtifact
  | extract
  deriving DecidableEq

abbrev Answer : Question → Type
  | .shouldStop | .shouldCancelJob | .shouldSuspend | .payloadIssue | .contactLost => Bool
  | .onAuthenticationIssue _ | .onRemoteJobId _ => Except String Unit
  | .submitJob => Except AwsError JobId
  | .describeJobs _ => Except AwsError (List BatchJob)
  | .statusObject => Except AwsError BatchJobStatus
  | .createDatasetArchive | .uploadInputs | .terminateJob _ | .logEvents _ _ | .describeTasks _ _
  | .downloadArtifact | .extract => Except AwsError Unit

/-- What the run is given: the job it reattaches to, if any, whether there is a snapshot to
upload, and which of the optional callbacks are set. -/
structure TrainingContext where
  remoteJobId : Option JobId
  snapshot : Bool
  onRemoteJobId : Bool
  onAuthenticationIssue : Bool
  deriving DecidableEq

structure Backend where
  authenticationIssue : Option AwsAuthenticationIssue
  remoteJobId : Option JobId
  deriving DecidableEq

abbrev Run := Dialogue Backend Answer Fault

def Backend.fresh (context : TrainingContext) : Backend :=
  { authenticationIssue := none, remoteJobId := context.remoteJobId }

def call {Value : Type} (result : Except AwsError Value) : Run Value := unwrap (result.mapError .call)

def awaited (result : Except String Unit) : Run Unit := unwrap (result.mapError .callback)

/-! ## Authentication -/

def authenticationIssue : Fault → Option AwsAuthenticationIssue
  | .call (.authentication issue) => some issue
  | _ => none

def reportIssue (context : TrainingContext) (issue : Option AwsAuthenticationIssue) : Run Unit :=
  if context.onAuthenticationIssue then do awaited (← query (.onAuthenticationIssue issue)) else pure ()

/-- The part of `_with_authentication` after a recognised failure. -/
def noteIssue (context : TrainingContext) (issue : AwsAuthenticationIssue) : Run Unit := do
  let backend ← view
  if backend.authenticationIssue = some issue then pure ()
  else do
    modify fun backend => { backend with authenticationIssue := some issue }
    reportIssue context (some issue)

def clearIssue (context : TrainingContext) : Run Unit := do
  let backend ← view
  let pending ← if backend.authenticationIssue.isSome then pure true else query Question.payloadIssue
  if pending then do
    modify fun backend => { backend with authenticationIssue := none }
    reportIssue context none
  else pure ()

/-- `_with_authentication`. The checkpoint before each attempt is the check for a stop, except
while stopping, when there is none. -/
def authenticated {Value : Type} (context : TrainingContext) (rounds : Nat) (checkpoint : Run Unit)
    (operation : Run Value) : Run Value :=
  loop (fun _ : Unit => do
    checkpoint
    let result ← operation.caught
    match result with
    | .error fault =>
        -- Only what is recognised as a lost authentication is waited out.
        match authenticationIssue fault with
        | none => raise fault
        | some issue => do
            noteIssue context issue
            let suspend ← query .shouldSuspend
            if suspend then raise .suspended else pure (.inl ())
    | .ok value => do
        clearIssue context
        pure (.inr value)) rounds ()

/-! ## Stopping -/

def terminate (jobId : JobId) : Run Unit := do
  let result ← query (.terminateJob jobId)
  call result

def stopRequested : Run Bool := do
  let stop ← query .shouldStop
  if stop then pure true else query Question.shouldCancelJob

def suspendRequested : Run Bool := do
  let cancel ← query .shouldCancelJob
  if cancel then pure false else query Question.shouldSuspend

def stop (context : TrainingContext) (rounds : Nat) : Option JobId → Run Unit
  | none => raise .canceled
  | some jobId => do
      authenticated context rounds (pure ()) (terminate jobId)
      raise .canceled

def checkStop (context : TrainingContext) (rounds : Nat) (jobId : Option JobId) : Run Unit := do
  let requested ← stopRequested
  if requested then do
    let suspend ← suspendRequested
    if suspend then raise .suspended else stop context rounds jobId
  else pure ()

def withAuthentication {Value : Type} (context : TrainingContext) (rounds : Nat) (operation : Run Value) : Run Value :=
  authenticated context rounds
    (do
      let backend ← view
      checkStop context rounds backend.remoteJobId)
    operation

/-! ## The calls -/

/-- A key that does not exist in the bucket. -/
def AwsError.missing : AwsError → Bool
  | .client code => code = "NoSuchKey" || code = "404"
  | _ => false

/-- The errors that reading logs and startup diagnostics swallows. -/
def AwsError.ignored : AwsError → Bool
  | .client _ | .botocore => true
  | _ => false

/-- `BotoCoreError` or `ClientError`. -/
def Fault.fromAws : Fault → Bool
  | .call (.client _) | .call .botocore | .call (.authentication _) => true
  | _ => false

def poll (jobId : JobId) : Run (BatchJob × Option BatchJobStatus) := do
  let described ← query (.describeJobs jobId)
  let jobs ← call described
  match jobs with
  | [] => raise (.runtime s!"AWS Batch job {jobId} was not found")
  | job :: _ => do
      let object : Except AwsError BatchJobStatus ← query Question.statusObject
      match object with
      | .ok status => pure (job, some status)
      | .error error => if error.missing then pure (job, none) else raise (.call error)

/-- A read whose AWS errors, authentication apart, are only logged. -/
def relayed (result : Except AwsError Unit) : Run Unit :=
  match result with
  | .ok _ => pure ()
  | .error error => if error.ignored then pure () else raise (.call error)

def nonempty (text : Option String) : Option String := text.filter fun text => text ≠ ""

def relayLogs (job : BatchJob) : Run Unit :=
  match nonempty job.logStreamName, nonempty job.logGroup with
  | some stream, some group => do
      let events ← query (.logEvents group stream)
      relayed events
  | _, _ => pure ()

def taskCluster (taskArn : String) : Option String :=
  match taskArn.splitOn ":task/" with
  | _ :: first :: others =>
      let parts := (":task/".intercalate (first :: others)).splitOn "/"
      if parts.length ≤ 1 then none else some ("/".intercalate parts.dropLast)
  | _ => none

def startingTask (job : BatchJob) : Run Unit :=
  match job.taskArn.bind fun taskArn => (taskCluster taskArn).map fun cluster => (cluster, taskArn) with
  | some (cluster, taskArn) => do
      let tasks ← query (.describeTasks cluster taskArn)
      relayed tasks
  | none => pure ()

/-! ## Waiting for the job -/

def reports (status : Option BatchJobStatus) (outcome : TrainerJobStatus) : Bool :=
  status.any fun status => status.status = outcome

def failureMessage (reason : Option String) : Fault :=
  .runtime ((nonempty reason).getD "AWS Batch training failed")

/-- How a round of `_wait` ends, once the job and its status object were read. -/
def conclude (jobId : JobId) (job : BatchJob) (status : Option BatchJobStatus) : Run (Unit ⊕ Unit) :=
  if reports status .failed then do
    if job.status = .failed ∨ job.status = .succeeded then pure () else terminate jobId
    raise (failureMessage (status.bind (·.message)))
  else if job.status = .failed then raise (failureMessage job.statusReason)
  else if job.status = .succeeded then
    if reports status .canceled then raise (failureMessage (status.bind (·.message))) else pure (.inr ())
  else pure (.inl ())

def wait (context : TrainingContext) (rounds : Nat) (jobId : JobId) : Run Unit :=
  loop (fun _ : Unit => do
    checkStop context rounds (some jobId)
    let polled ← (withAuthentication context rounds (poll jobId)).caught
    match polled with
    | .error fault =>
        if fault.fromAws then do
          -- A lost contact ends the wait only once it has lasted too long.
          let lost ← query .contactLost
          if lost then raise fault else pure (.inl ())
        else raise fault
    | .ok (job, status) => do
        withAuthentication context rounds (relayLogs job)
        if job.status = .starting then withAuthentication context rounds (startingTask job) else pure ()
        conclude jobId job status) rounds ()

/-! ## The run -/

def transfer (context : TrainingContext) (rounds : Nat) (jobId : Option JobId) (operation : Run Unit) : Run Unit := do
  let result ← (withAuthentication context rounds operation).caught
  match result with
  | .ok _ => pure ()
  | .error fault => do
      if fault = .call .transferStopped then checkStop context rounds jobId else pure ()
      raise fault

def uploadInputs : Run Unit := do
  let result ← query .uploadInputs
  call result

def submit : Run JobId := do
  let result ← query .submitJob
  call result

def download : Run Unit := do
  let result ← query .downloadArtifact
  call result

def persist (context : TrainingContext) (jobId : JobId) : Run Unit :=
  if context.onRemoteJobId then do
    let result : Except String Unit ← query (Question.onRemoteJobId jobId)
    match result with
    | .ok _ => pure ()
    | .error message => do
        terminate jobId
        raise (.callback message)
  else pure ()

/-- The branch of `train` that no job id was given to. -/
def launch (context : TrainingContext) (rounds : Nat) : Run JobId :=
  if context.snapshot then do
    let archive ← query .createDatasetArchive
    call archive
    checkStop context rounds none
    transfer context rounds none uploadInputs
    checkStop context rounds none
    let jobId ← withAuthentication context rounds submit
    -- The identifier is kept before it is stored, so that an interruption in between can still cancel the job.
    modify fun backend => { backend with remoteJobId := some jobId }
    persist context jobId
    pure jobId
  else raise (.value "AWS Batch training requires a dataset snapshot")

/-- The rest of `train`, once the job id is known. -/
def attend (context : TrainingContext) (rounds : Nat) (jobId : JobId) : Run Unit := do
  wait context rounds jobId
  checkStop context rounds (some jobId)
  transfer context rounds (some jobId) download
  checkStop context rounds (some jobId)
  let extracted ← query .extract
  call extracted
  checkStop context rounds (some jobId)

def train (context : TrainingContext) (rounds : Nat) : Run Unit := do
  checkStop context rounds context.remoteJobId
  let jobId ← match context.remoteJobId with
    | some jobId => pure jobId
    | none => launch context rounds
  attend context rounds jobId

end PhysicalAiStudio.Remote.Batch
