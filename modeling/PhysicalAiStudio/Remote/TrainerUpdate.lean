import PhysicalAiStudio.Strings.Text

/-! Updating a remote trainer: `update_remote_trainer` of `services/remote_trainer_service.py` and `sync_tunnel` of
`services/remote_trainer_tunnel_manager.py`.

The database, the SSH hosts and the other requests are surroundings: for every await of one call they say how it
ends. The state is the stored row of the trainer and the tunnel that is registered for it.
-/

set_option autoImplicit false

namespace PhysicalAiStudio.Remote.Trainers
open Strings

/-! ### Schemas -/

structure ManualSshConnection where
  hostname : Text
  port : Nat
  user : Option Text
  identityFile : Option Text
  deriving DecidableEq

/-- `ssh_host_alias` or `ssh_connection`; the schema takes exactly one of them. -/
inductive SshHost where
  | hostAlias (name : Text)
  | manual (connection : ManualSshConnection)
  deriving DecidableEq

structure SshConnection where
  host : SshHost
  sshRemotePort : Nat
  sshLocalPort : Option Nat
  deriving DecidableEq

structure AwsBatchTarget where
  queue : Text
  jobDefinition : Text
  deriving DecidableEq

structure AwsBatchConnection where
  region : Text
  studioRoleArn : Text
  bucket : Text
  targets : List (Text × AwsBatchTarget)
  configurationUri : Option Text
  profileName : Text
  deriving DecidableEq

inductive Connection where
  | direct (url : Text)
  | ssh (connection : SshConnection)
  | awsBatch (connection : AwsBatchConnection)
  deriving DecidableEq

/-- The URL of the trainer service; the port of the scheme is not written. -/
def Connection.url : Connection → Option Text
  | .direct url => some url
  | .ssh connection => connection.sshLocalPort.map fun port =>
    if port = 80 then "http://127.0.0.1/".toList else "http://127.0.0.1:".toList ++ decimal port ++ "/".toList
  | .awsBatch _ => none

def stripWhitespace (text : Text) : Text := stripOf isNumberSpace text

structure Name where
  text : Text
  stripped : stripWhitespace text = text
  nonempty : 1 ≤ text.length
  short : text.length ≤ 255
  deriving DecidableEq

structure RemoteTrainer where
  id : Text
  name : Name
  connection : Connection
  deriving DecidableEq

structure RemoteTrainerUpdate where
  name : Option Text
  connection : Option Connection

/-! ### Failures -/

inductive Failure where
  | cancelled
  | addressInUse
  | other
  deriving DecidableEq

inductive Fault where
  | notFound (id : Text)
  | inUse (id : Text)
  | featureDisabled (reason : Option Text)
  | alreadyExists (resource detail : Text)
  | invalid
  | failure (failure : Failure)
  deriving DecidableEq

def localPortConflict (port : Option Nat) : Fault :=
  .alreadyExists "Local port".toList
    ((port.elim "None".toList decimal) ++ " is already in use on this Studio host. ".toList ++
      "Choose another local port under Advanced settings or leave it blank to assign one automatically.".toList)

def urlConflict : Fault :=
  .alreadyExists "Remote trainer".toList "A trainer with this URL is already configured.".toList

/-! ### The state and its surroundings -/

/-- The stored row, with the time that the database writes into it on every change. -/
structure Row where
  trainer : RemoteTrainer
  updatedAt : Nat
  deriving DecidableEq

structure Tunnel where
  connection : SshConnection
  localPort : Nat
  live : Bool
  deriving DecidableEq

structure State where
  row : Option Row
  tunnel : Option Tunnel
  deriving DecidableEq

structure Availability where
  active : Bool
  reason : Option Text

inductive Commit where
  | duplicate
  | failed (failure : Failure)
  | committed (readBack : Option Failure)

inductive Opening where
  | opened (freePort : Nat)
  | failed (failure : Failure)

/-- One call of `sync_tunnel`. -/
structure Sync where
  /-- Cancelled while it waits for the manager's lock. -/
  lockCancelled : Bool
  close : Option Failure
  opening : Opening

structure Attempt where
  listedForPort : Except Failure (List RemoteTrainer)
  /-- The ports that the system offers one after the other. -/
  offered : List (Except Failure Nat)
  activeJobs : Except Failure Bool
  listed : Except Failure (List RemoteTrainer)
  written : Commit
  writtenAt : Nat
  rollback : Option Failure
  listedAgain : Except Failure (List RemoteTrainer)
  sync : Sync
  restored : Commit
  restoredAt : Nat
  reopened : Sync

structure Surroundings where
  reading : Option Failure
  installing : Bool
  lockCancelled : Bool
  feature : Availability
  attempt : Nat → Attempt
  cancelLaunch : Option Failure
  stopContainer : Option Failure

/-! ### Checks -/

/-- What a check comes to; `pending` where it still waits for a port. -/
inductive Checked (α : Type) where
  | passed (value : α)
  | raised (fault : Fault)
  | pending

def Checked.bind {α β : Type} : Checked α → (α → Checked β) → Checked β
  | .passed value, next => next value
  | .raised fault, _ => .raised fault
  | .pending, _ => .pending

def ofListing {α : Type} : Except Failure α → Checked α
  | .ok value => .passed value
  | .error failure => .raised (.failure failure)

def choosePort (reserved : List Nat) : List (Except Failure Nat) → Checked Nat
  | [] => .pending
  | .error failure :: _ => .raised (.failure failure)
  | .ok port :: offered => if port ∈ reserved then choosePort reserved offered else .passed port

def reservedPorts (trainers : List RemoteTrainer) : List Nat :=
  trainers.filterMap fun trainer =>
    match trainer.connection with
    | .ssh connection => connection.sshLocalPort
    | _ => none

def needsPort : Connection → Bool
  | .ssh connection => connection.sshLocalPort.isNone
  | _ => false

def assignLocalPort (attempt : Attempt) : Connection → Checked Connection
  | .ssh connection =>
    if connection.sshLocalPort.isSome then .passed (.ssh connection)
    else
      (ofListing attempt.listedForPort).bind fun trainers =>
        (choosePort (reservedPorts trainers) attempt.offered).bind fun port =>
          .passed (.ssh { connection with sshLocalPort := some port })
  | connection => .passed connection

def conflict (connection : Connection) (existing : RemoteTrainer) : Option Fault :=
  match connection, existing.connection with
  | .ssh own, .ssh other =>
    if other.sshRemotePort = own.sshRemotePort ∧ other.host = own.host then
      some (.alreadyExists "Remote trainer".toList ("Remote port ".toList ++ decimal own.sshRemotePort ++
        " is already used on this SSH host. Choose a different remote port under Advanced settings.".toList))
    else none
  | .ssh _, _ => none
  | own, other => if own.url.isSome ∧ other.url = own.url then some urlConflict else none

def ensureUniqueConnection (trainer : RemoteTrainer) (listed : Except Failure (List RemoteTrainer)) : Checked Unit :=
  (ofListing listed).bind fun trainers =>
    match (trainers.filter (·.id ≠ trainer.id)).findSome? (conflict trainer.connection) with
    | some fault => .raised fault
    | none => .passed ()

def isSsh : Connection → Bool
  | .ssh _ => true
  | _ => false

def requireSshFeature (feature : Availability) (connection : Connection) : Checked Unit :=
  if isSsh connection && !feature.active then .raised (.featureDisabled feature.reason) else .passed ()

def requireNoActiveJobs (id : Text) (jobs : Except Failure Bool) : Checked Unit :=
  (ofListing jobs).bind fun active => if active then .raised (.inUse id) else .passed ()

def validateConnectionUpdate (feature : Availability) (attempt : Attempt) (previous current : RemoteTrainer) :
    Checked Unit :=
  if previous.connection = current.connection then .passed ()
  else
    (requireSshFeature feature current.connection).bind fun _ =>
      (if isSsh previous.connection || isSsh current.connection then requireNoActiveJobs previous.id attempt.activeJobs
        else .passed ()).bind fun _ =>
          ensureUniqueConnection current attempt.listed

def Name.validate (text : Text) : Checked Name :=
  if fits : 1 ≤ (stripWhitespace text).length ∧ (stripWhitespace text).length ≤ 255 then
    .passed ⟨stripWhitespace text, stripOf_stripOf isNumberSpace text, fits.1, fits.2⟩
  else .raised .invalid

/-! ### One pass of the loop -/

/-- The trainer as it is to be, and whether its local port was left to Studio. -/
structure Prepared where
  validated : RemoteTrainer
  autoPort : Bool

def prepare (remote : RemoteTrainer) (update : RemoteTrainerUpdate) (feature : Availability) (attempt : Attempt) :
    Checked Prepared :=
  (Name.validate (update.name.getD remote.name.text)).bind fun name =>
    let config := update.connection.getD remote.connection
    (assignLocalPort attempt config).bind fun assigned =>
      let validated : RemoteTrainer := { id := remote.id, name := name, connection := assigned }
      (validateConnectionUpdate feature attempt remote validated).bind fun _ =>
        .passed { validated := validated, autoPort := needsPort config }

/-- `repo.update`: the row is merged and committed, and then read again. -/
def Commit.outcome : Commit → Option Failure
  | .duplicate => some .other
  | .failed failure => some failure
  | .committed readBack => readBack

def Commit.commits : Commit → Bool
  | .committed _ => true
  | _ => false

/-- A row that does not change is not written. -/
def Row.write (row : Row) (trainer : RemoteTrainer) (time : Nat) : Row :=
  if row.trainer = trainer then row else { trainer := trainer, updatedAt := time }

def Commit.apply (commit : Commit) (trainer : RemoteTrainer) (time : Nat) (state : State) : State :=
  if commit.commits then { state with row := state.row.map (·.write trainer time) } else state

def syncTunnel (feature : Availability) (trainer : RemoteTrainer) (sync : Sync) (tunnel : Option Tunnel) :
    Option Failure × Option Tunnel :=
  if sync.lockCancelled then (some .cancelled, tunnel)
  -- The tunnel is dropped before it is closed, so it is gone however closing ends.
  else if tunnel.isSome && sync.close.isSome then (sync.close, none)
  else
    match trainer.connection with
    | .ssh connection =>
      if feature.active then
        match sync.opening with
        | .failed failure => (some failure, none)
        | .opened freePort => (none, some ⟨connection, connection.sshLocalPort.getD freePort, true⟩)
      else (none, none)
    | _ => (none, none)

/-- What a pass of the loop comes to. -/
inductive Passed where
  | synced (saved : RemoteTrainer)
  | again
  | raised (fault : Fault)
  | pending

/-- `except IntegrityError`, after which an automatic port is chosen again. -/
def afterDuplicate (attempt : Attempt) (prepared : Prepared) (last : Bool) : Passed :=
  match attempt.rollback with
  | some failure => .raised (.failure failure)
  | none =>
    match ensureUniqueConnection prepared.validated attempt.listedAgain with
    | .raised fault => .raised fault
    | .pending => .pending
    | .passed _ =>
      -- A port it chose itself is chosen again, up to the last attempt.
      if prepared.autoPort && !last then .again
      else
        match prepared.validated.connection with
        | .ssh connection => .raised (localPortConflict connection.sshLocalPort)
        | _ => .raised urlConflict

/-- `except Exception` around `sync_tunnel`: the row is written back. -/
def afterSyncFailure (remote : RemoteTrainer) (feature : Availability) (attempt : Attempt) (prepared : Prepared)
    (last : Bool) (failure : Failure) (state : State) : Passed × State :=
  let state := attempt.restored.apply remote attempt.restoredAt state
  match attempt.restored.outcome with
  | some failure => (.raised (.failure failure), state)
  | none =>
    match failure, prepared.validated.connection with
    -- The local port was taken: a chosen port is chosen again, a given one reopens the old tunnel and is reported.
    | .addressInUse, .ssh connection =>
      if prepared.autoPort && !last then (.again, state)
      else
        let (reopening, tunnel) := syncTunnel feature remote attempt.reopened state.tunnel
        (.raised (reopening.elim (localPortConflict connection.sshLocalPort) .failure),
          { state with tunnel := tunnel })
    | _, _ => (.raised (.failure failure), state)

def pass (remote : RemoteTrainer) (update : RemoteTrainerUpdate) (feature : Availability) (attempt : Attempt)
    (last : Bool) (state : State) : Passed × State :=
  match prepare remote update feature attempt with
  | .raised fault => (.raised fault, state)
  | .pending => (.pending, state)
  | .passed prepared =>
    -- The row is committed before it is read back and the tunnel synchronized, so what raises from here on finds it
    -- written.
    match attempt.written with
    | .duplicate => (afterDuplicate attempt prepared last, state)
    | .failed failure => (.raised (.failure failure), state)
    | .committed readBack =>
      let state := attempt.written.apply prepared.validated attempt.writtenAt state
      match readBack with
      | some failure => (.raised (.failure failure), state)
      | none =>
        let (syncing, tunnel) := syncTunnel feature prepared.validated attempt.sync state.tunnel
        let state := { state with tunnel := tunnel }
        match syncing with
        | none => (.synced prepared.validated, state)
        | some .cancelled => (.raised (.failure .cancelled), state)
        | some failure => afterSyncFailure remote feature attempt prepared last failure state

/-! ### The update -/

inductive Outcome where
  | returned (saved : RemoteTrainer)
  | raised (fault : Fault)
  | pending

def goRound (next : State → Passed × State) : Passed × State → Passed × State
  | (.again, state) => next state
  | stopped => stopped

/-- `range(3)`; the last pass does not go round again. -/
def passes (remote : RemoteTrainer) (update : RemoteTrainerUpdate) (feature : Availability)
    (attempts : Nat → Attempt) : (left number : Nat) → State → Passed × State
  | 0, _, state => (.pending, state)
  | left + 1, number, state =>
    goRound (passes remote update feature attempts left (number + 1))
      (pass remote update feature (attempts number) (left = 0) state)

/-- Whether `_stop_replaced_container` stops the container of the connection before. -/
def replacesContainer (previous current : Connection) : Bool :=
  match previous, current with
  | .ssh previous, .ssh current => previous.host ≠ current.host || previous.sshRemotePort ≠ current.sshRemotePort
  | .ssh _, _ => true
  | _, _ => false

/-- What is left to do once the tunnel is in place. -/
def finish (remote saved : RemoteTrainer) (surroundings : Surroundings) : Outcome :=
  if saved.connection ≠ remote.connection ∧ isSsh remote.connection then
    match surroundings.cancelLaunch with
    | some failure => .raised (.failure failure)
    | none =>
      match surroundings.stopContainer with
      | some failure => if replacesContainer remote.connection saved.connection then .raised (.failure failure)
        else .returned saved
      | none => .returned saved
  else .returned saved

def updateRemoteTrainer (id : Text) (update : RemoteTrainerUpdate) (surroundings : Surroundings) (state : State) :
    Outcome × State :=
  match surroundings.reading, state.row with
  | some failure, _ => (.raised (.failure failure), state)
  | none, none => (.raised (.notFound id), state)
  | none, some row =>
    -- No update while an installation runs, and then one at a time.
    if surroundings.installing then (.raised (.inUse id), state)
    else if surroundings.lockCancelled then (.raised (.failure .cancelled), state)
    else
      match passes row.trainer update surroundings.feature surroundings.attempt 3 0 state with
      | (.synced saved, state) => (finish row.trainer saved surroundings, state)
      | (.raised fault, state) => (.raised fault, state)
      | (.again, state) | (.pending, state) => (.pending, state)

end PhysicalAiStudio.Remote.Trainers
