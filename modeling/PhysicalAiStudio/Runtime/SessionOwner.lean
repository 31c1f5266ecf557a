import PhysicalAiStudio.Interaction.Dialogue
import PhysicalAiStudio.Runtime.RigIdentity

/-! The owner of a runtime session: it attaches to the session of its robot, or spawns one.

The lock registry, the metadata of whichever session answers, the child process and the
clock are the surroundings, and so is another thread that asks the child to stop. Times are
in milliseconds. What is only logged is left out, and so is the host's own lock: nothing
else starts the host.
-/

set_option autoImplicit false

namespace PhysicalAiStudio.Runtime.SessionOwner

open Strings Interaction Interaction.Dialogue

/-- `instance_id` of the metadata, which `attach` takes as a text or not at all. -/
inductive InstanceId where
  | missing
  | text (value : Text)
  | other
deriving DecidableEq

structure Metadata where
  identityDigest : Option Text
  pid : Option Int
  cameraKeys : List Text
  instanceId : InstanceId
deriving DecidableEq

structure AppError where
  message : Text
  errorCode : Text
  phase : Option Text
deriving DecidableEq

inductive Fault where
  | app (error : AppError)
  | busy (pid : Option Int)
  | os
  | overflow
  | value
  | runtime (message : Text)
deriving DecidableEq

inductive Signal where
  | term
  | kill
deriving DecidableEq

/-- A child of this owner, by the order in which it was spawned or by its pid. -/
abbrev Child := Nat

inductive Question where
  | liveSessionPid
  | probeSession (timeout : Nat)
  | probe (timeout : Nat)
  | signal (pid : Int) (signal : Signal)
  | pidExists (pid : Int)
  | monotonic
  | sleep (time : Nat)
  | popen
  | stopRequested
  | writePayload (child : Child)
  | readLine (child : Child)
  | poll (child : Child)
  | terminate (child : Child)
  | killChild (child : Child)
  | wait (child : Child) (timeout : Nat)
  | flush
deriving DecidableEq

abbrev Answer : Question → Type
  | .liveSessionPid => Except Fault (Option Int)
  | .probeSession _ | .probe _ => Except Fault (Option Metadata)
  | .signal _ _ => Except Fault Unit
  | .pidExists _ => Except Fault Bool
  | .sleep _ | .terminate _ | .killChild _ => Unit
  | .stopRequested => Bool
  | .monotonic => Nat
  | .popen => Except Unit Child
  | .writePayload _ => Bool
  | .readLine _ => Except Unit (Option Text)
  | .poll _ => Option Int
  | .wait _ _ => Bool
  | .flush => Except Fault Unit

/-- A `RuntimeProcessHost`: its process and the error of its startup. -/
structure Host where
  proc : Option Child := none
  error : Option AppError := none
deriving DecidableEq

structure Owner where
  host : Option Host := none
  metadata : Option Metadata := none
  spawned : Bool := false
deriving DecidableEq

/-- What the owner is made with. The hash function, `repr`, and what `json.loads` and the checks after
it make of a startup error, are given. -/
structure Config where
  sha256 : Text → Text
  repr : Text → Text
  parseError : Text → Option AppError
  document : RuntimeDocument
  sessionName : Text

abbrev Run := Dialogue Owner Answer Fault

abbrev inquire (question : Question) : Run (Answer question) := query question

def probeTimeout : Nat := 1000
def raceRetryTimeout : Nat := 5000
def stopTimeout : Nat := 5000

def robotConnectionFailed (message : Text) : Fault := .app ⟨message, "robot_connection_failed".toList, none⟩

/-! ### Stopping whichever session is live -/

def liveSessionPid : Run (Option Int) := do
  let answer ← inquire .liveSessionPid
  unwrap answer

/-- An `OSError` is suppressed; a pid too large for the kernel is none. -/
def signalPid (pid : Int) (signal : Signal) : Run Unit := do
  let answer ← inquire (.signal pid signal)
  unwrap answer

def waitUntilSessionGone (rounds : Nat) (pid : Int) (timeout : Nat) : Run Bool := do
  let start ← inquire .monotonic
  let gone ← loop (fun _ : Unit => do
    let now ← inquire .monotonic
    if now < start + timeout then do
      let live ← liveSessionPid
      if live = none then pure (.inr true)
      else do
        let answer ← inquire (.pidExists pid)
        let there ← unwrap answer
        if there then do
          inquire (.sleep 50)
          pure (.inl ())
        else pure (.inr true)
    else pure (.inr false)) rounds ()
  -- On the deadline it is looked at once more.
  if gone then pure true
  else do
    let live ← liveSessionPid
    pure live.isNone

/-- The pid to signal: that of the lock, else that of the metadata, if it is one. -/
def sessionPid (timeout : Nat) : Run (Option Int) := do
  let live ← liveSessionPid
  match live with
  | some pid => pure (some pid)
  | none => do
      let answer ← inquire (.probeSession (min 1000 timeout))
      let metadata ← unwrap answer
      pure ((metadata.bind Metadata.pid).filter fun pid => 0 < pid)

def stopRuntimeSession (rounds : Nat) (timeout : Nat) : Run Unit := do
  let found ← sessionPid timeout
  match found with
  | none => pure ()
  | some pid => do
      signalPid pid .term
      let gone ← waitUntilSessionGone rounds pid timeout
      if gone then pure ()
      else do
        -- Not gone after SIGTERM: killed, and waited for at most a second, whatever comes of it.
        signalPid pid .kill
        let _ ← waitUntilSessionGone rounds pid 1000
        pure ()

/-! ### The child -/

/-- `RuntimeProcessHost.stop`; another thread's request to stop makes it no different. -/
def stopChild (child : Child) : Run Unit := do
  let ended : Option Int ← inquire (.poll child)
  if ended.isSome then pure ()
  else do
    inquire (.terminate child)
    let waited ← inquire (.wait child 5000)
    if waited then pure ()
    else do
      inquire (.killChild child)
      let _ ← inquire (.wait child 1000)
      pure ()

def stop : Run Unit := do
  let owner ← view
  match owner.host.bind Host.proc with
  | none => pure ()
  | some child => stopChild child

def hostAlive (host : Host) : Run Bool :=
  match host.proc with
  | none => pure false
  | some child => do
      let ended : Option Int ← inquire (.poll child)
      pure ended.isNone

def setHost (host : Option Host) : Run Unit := modify fun owner => { owner with host }

/-- The end of `RuntimeProcessHost.start`, which reads the line of the handshake. A malformed
startup error is raised before the child is stopped. -/
def handshake (config : Config) (child : Child) : Option Text → Run Unit
  | none => do
      stopChild child
      raise (robotConnectionFailed ("Runtime session ".toList ++ config.sessionName ++
        " did not become ready within 30.0s.".toList))
  | some line =>
      if "ERROR:".toList.isPrefixOf line then
        match config.parseError (line.drop 6) with
        | none => raise (robotConnectionFailed
            ("Runtime session worker returned a malformed startup error: ".toList ++ config.repr line))
        | some error => do
            setHost (some { proc := some child, error := some error })
            stopChild child
            raise (.app error)
      else if line = "READY".toList then pure ()
      else do
        stopChild child
        raise (robotConnectionFailed
          ("Runtime session worker returned an unexpected startup response: ".toList ++ config.repr line))

def start (config : Config) : Run Unit := do
  let spawned ← inquire .popen
  let child ← unwrap (spawned.mapError fun _ => Fault.os)
  -- The child is registered before the first stop check, so a stop in between finds it.
  setHost (some { proc := some child })
  let early ← inquire .stopRequested
  if early then stopChild child
  else do
    let written ← inquire (.writePayload child)
    let requested ← inquire .stopRequested
    if written then
      if requested then stopChild child
      else do
        let answer ← inquire (.readLine child)
        let line ← unwrap (answer.mapError fun _ => Fault.value)
        let late ← inquire .stopRequested
        if late then pure () else handshake config child line
    else
      if requested then pure ()
      else do
        stopChild child
        raise (robotConnectionFailed "Failed to start the runtime session process.".toList)

/-! ### Attaching -/

def expectedDigest (config : Config) : Text := config.document.runtimeIdentityDigest config.sha256

def rejectIfDifferentRig (config : Config) (metadata : Metadata) : Run Unit :=
  if metadata.identityDigest = some (expectedDigest config) then pure () else raise (.busy metadata.pid)

/-- `RuntimeSessionClient.attach`, of which the owner sees what it raises. -/
def clientAttach (metadata : Metadata) : Run Unit :=
  if metadata.instanceId = .other ∨ metadata.instanceId = .text [] then
    raise (.runtime "Runtime session metadata instance_id must be a string".toList)
  else do
    let flushed ← inquire .flush
    unwrap flushed

def attachTo (config : Config) (metadata : Metadata) : Run Unit := do
  rejectIfDifferentRig config metadata
  clientAttach metadata
  modify fun owner => { owner with metadata := some metadata }

def needsMoreCameras (config : Config) (metadata : Metadata) : Bool :=
  !config.document.runtimeCameraKeys.all fun key => metadata.cameraKeys.contains key

def tryAttach (config : Config) (rounds : Nat) (metadata : Metadata) : Run Bool := do
  rejectIfDifferentRig config metadata
  if needsMoreCameras config metadata then do
    stopRuntimeSession rounds stopTimeout
    pure false
  else do
    attachTo config metadata
    pure true

def probeRound (remaining : Nat) : Run (Unit ⊕ Option Metadata) := do
  let answer ← inquire (.probe (min 1000 remaining))
  let metadata ← unwrap answer
  match metadata with
  | some metadata => pure (.inr (some metadata))
  | none => do
      inquire (.sleep (min 50 remaining))
      pure (.inl ())

def probeWithRetry (rounds : Nat) (timeout : Nat) : Run (Option Metadata) := do
  let start ← inquire .monotonic
  loop (fun _ : Unit => do
    let now ← inquire .monotonic
    if start + timeout ≤ now then pure (.inr none) else probeRound (start + timeout - now)) rounds ()

def childEnded (host : Host) : Fault :=
  match host.error with
  | some error => .app error
  | none => robotConnectionFailed "Runtime session stopped before answering metadata".toList

def waitForSpawnedMetadata (rounds : Nat) (timeout : Nat) : Run (Option Metadata) := do
  let start ← inquire .monotonic
  loop (fun _ : Unit => do
    let now ← inquire .monotonic
    if start + timeout ≤ now then pure (.inr none)
    else do
      let owner ← view
      match owner.host with
      | none => probeRound (start + timeout - now)
      | some host => do
          -- A child of its own that has ended ends the wait; a session of another process is only looked for.
          let alive ← hostAlive host
          if alive then probeRound (start + timeout - now) else raise (childEnded host)) rounds ()

/-! ### Connecting -/

/-- The `try` after a start: the metadata of the child is waited for and adopted. -/
def adoptSpawned (config : Config) (rounds : Nat) : Run Unit := do
  let found ← waitForSpawnedMetadata rounds raceRetryTimeout
  match found with
  | none => raise (robotConnectionFailed ("Runtime session ".toList ++ config.sessionName ++
      " reported READY but its metadata is unreachable.".toList))
  | some metadata => attachTo config metadata

/-- The part of a round after a start, with its `except Exception`. -/
def finishSpawn (config : Config) (rounds : Nat) : Run Unit := do
  modify fun owner => { owner with spawned := true }
  let result ← (adoptSpawned config rounds).caught
  match result with
  | .ok _ => pure ()
  | .error fault => do
      stop
      modify fun owner => { owner with host := none, spawned := false }
      raise fault

/-- `except AppBaseException` around the start; whether to return or to go round again. -/
def afterFailedStart (config : Config) (rounds : Nat) (error : AppError) : Run (Bool ⊕ Unit) := do
  setHost none
  if error.phase ≠ some "name_lock_contention".toList then raise (.app error)
  else do
    let found ← probeWithRetry rounds raceRetryTimeout
    match found with
    | none => raise (.app error)
    | some metadata => do
        let attached ← tryAttach config rounds metadata
        pure (if attached then .inr () else .inl false)

def spawnRound (config : Config) (rounds : Nat) : Run (Bool ⊕ Unit) := do
  setHost (some {})
  let started ← (start config).caught
  match started with
  | .ok _ => do
      finishSpawn config rounds
      pure (.inr ())
  | .error (.app error) => afterFailedStart config rounds error
  | .error fault => raise fault

def connectRound (config : Config) (rounds : Nat) (skipProbe : Bool) : Run (Bool ⊕ Unit) :=
  if skipProbe then spawnRound config rounds
  else do
    let answer ← inquire (.probe probeTimeout)
    let found ← unwrap answer
    match found with
    | none => spawnRound config rounds
    | some metadata => do
        let attached ← tryAttach config rounds metadata
        if attached then pure (.inr ()) else spawnRound config rounds

def connect (config : Config) (rounds : Nat) (replace : Bool) : Run Unit :=
  if replace then do
    stopRuntimeSession rounds stopTimeout
    loop (connectRound config rounds) rounds true
  else loop (connectRound config rounds) rounds false

end PhysicalAiStudio.Runtime.SessionOwner
