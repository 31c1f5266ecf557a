import Mathlib.Logic.Function.Basic
import PhysicalAiStudio.Concurrency.Transition

/-! One managed remote trainer: its row, its container, its setup, and the jobs that are submitted to it.

Every request runs on the event loop with a database session of its own, so a step here is what
happens between two awaits. One lock is held while a job is submitted and while a setup is
registered, another one while an update chooses its port and opens the tunnel. The container is
one for all connections, as its name is the trainer's; whether a tunnel is up decides nothing but
whether a request fails, which any may.
-/

set_option autoImplicit false

namespace PhysicalAiStudio.Remote

open Concurrency

structure TrainerConnection where
  /-- Managed by Studio: a container on an SSH host, behind a tunnel. -/
  ssh : Bool
  /-- `ssh_host_alias` or `ssh_connection`, or the address of a trainer that is not managed. -/
  host : Nat
  remotePort : Nat := 8001
  localPort : Nat := 0
  deriving DecidableEq

/-- What `get_launch_failure` returns. -/
inductive LaunchFailure where
  | rebootRequired
  | reloginRequired
  | rebootBlocked
  | driverUnavailable
  | other
  deriving DecidableEq

def LaunchFailure.Blocks (failure : LaunchFailure) : Prop := failure ≠ .other

instance (failure : LaunchFailure) : Decidable failure.Blocks := inferInstanceAs (Decidable (_ ≠ _))

def LaunchFailure.Rebootable (failure : LaunchFailure) : Prop :=
  failure = .rebootRequired ∨ failure = .rebootBlocked ∨ failure = .driverUnavailable

instance (failure : LaunchFailure) : Decidable failure.Rebootable := inferInstanceAs (Decidable (_ ∨ _))

inductive SetupKind where
  | install
  | reboot
  deriving DecidableEq

/-- A task in `_background_installs`; it starts the container when the host is ready. -/
inductive SetupTask where
  | working (kind : SetupKind)
  | launching (kind : SetupKind)
  deriving DecidableEq

inductive LaunchPhase where
  | absent
  | created
  | starting
  | launching
  | concluded
  deriving DecidableEq

inductive LockHolder where
  | submission (request : Nat)
  | setup (request : Nat)
  deriving DecidableEq

inductive SubmissionPhase where
  | absent
  | locked
  | preparing (connection : TrainerConnection)
  | prepared (connection : TrainerConnection)
  | concluded
  deriving DecidableEq

inductive SetupPhase where
  | absent
  | requested (kind : SetupKind)
  | locked (kind : SetupKind)
  | registering (kind : SetupKind)
  | concluded
  deriving DecidableEq

inductive DeletePhase where
  | absent
  | read (connection : TrainerConnection)
  | checked (connection : TrainerConnection)
  | stopped
  | untunneled
  | concluded
  deriving DecidableEq

inductive UpdatePhase where
  | absent
  | read (old : TrainerConnection)
  | locked (old : TrainerConnection)
  | checked (old new : TrainerConnection)
  | written (old new : TrainerConnection)
  | restoring (old new : TrainerConnection) (retry : Bool)
  | synced (old new : TrainerConnection)
  | stopped (new : TrainerConnection)
  | concluded
  deriving DecidableEq

/-- A job whose row is pending or running, with the connection that it was prepared for. -/
structure TrainerJob where
  id : Nat
  connection : TrainerConnection
  deriving DecidableEq

structure TrainerSetup where
  trainer : Option TrainerConnection
  container : Option Nat := none
  created : Nat := 0
  jobs : List TrainerJob := []
  /-- The task in `_background_installs`. -/
  install : Option SetupTask := none
  failure : Option LaunchFailure := none
  lock : Option LockHolder := none
  portLock : Option Nat := none
  launches : Nat → LaunchPhase := fun _ => .absent
  /-- The launch in `_background_launches`. -/
  tracked : Option Nat := none
  submissions : Nat → SubmissionPhase := fun _ => .absent
  setups : Nat → SetupPhase := fun _ => .absent
  deletes : Nat → DeletePhase := fun _ => .absent
  updates : Nat → UpdatePhase := fun _ => .absent

inductive SetupEvent where
  | submissionLocked (request : Nat)
  | trainerRead (request : Nat)
  | catalogRead (request : Nat)
  | jobSaved (request : Nat)
  | submissionFailed (request : Nat)
  | jobEnded (job : Nat)
  | setupRequested (request : Nat) (kind : SetupKind)
  | setupLocked (request : Nat)
  | setupChecked (request : Nat)
  | setupRegistered (request : Nat)
  | setupInspected
  | setupLaunched
  | hostRebooted
  | setupEnded (failure : Option LaunchFailure)
  | deleteRead (request : Nat)
  | deleteChecked (request : Nat)
  | deleteStopped (request : Nat) (forgetLocally : Bool)
  | deleteUntunneled (request : Nat)
  | deleteRemoved (request : Nat)
  | deleteFailed (request : Nat)
  | updateRead (request : Nat)
  | updateLocked (request : Nat)
  | updateChecked (request : Nat) (new : TrainerConnection)
  | updateWritten (request : Nat)
  | updateRetried (request : Nat)
  | tunnelSynced (request : Nat)
  | tunnelFailed (request : Nat) (retry : Bool)
  | updateRestored (request : Nat)
  | oldStopped (request : Nat)
  | launchCreated (request launch : Nat)
  | updateFailed (request : Nat)
  | launchBegan (launch : Nat)
  | launchInspected (launch : Nat)
  | launched (launch : Nat)
  | launchFailed (launch : Nat) (failure : Option LaunchFailure)
  | probed
  | containerDied
  deriving DecidableEq

namespace TrainerSetup

variable (setup : TrainerSetup)

def setSubmission (request : Nat) (phase : SubmissionPhase) : TrainerSetup :=
  { setup with submissions := Function.update setup.submissions request phase }

def setSetup (request : Nat) (phase : SetupPhase) : TrainerSetup :=
  { setup with setups := Function.update setup.setups request phase }

def setDelete (request : Nat) (phase : DeletePhase) : TrainerSetup :=
  { setup with deletes := Function.update setup.deletes request phase }

def setUpdate (request : Nat) (phase : UpdatePhase) : TrainerSetup :=
  { setup with updates := Function.update setup.updates request phase }

def cancelLaunch : TrainerSetup :=
  match setup.tracked with
  | some launch => { setup with launches := Function.update setup.launches launch .concluded, tracked := none }
  | none => setup

def endLaunch (launch : Nat) : TrainerSetup :=
  { setup with
    launches := Function.update setup.launches launch .concluded
    tracked := if setup.tracked = some launch then none else setup.tracked }

/-- `docker run`, which removes the trainer's containers that hold the port. -/
def runContainer : TrainerSetup :=
  { setup with container := some setup.created, created := setup.created + 1 }

/-- `allow_job_submission` -/
def Admits : Prop := setup.install = none ∧ ∀ failure ∈ setup.failure, ¬failure.Blocks

instance : Decidable setup.Admits := inferInstanceAs (Decidable (_ ∧ _))

/-- Whether `_stop_replaced_container` stops the container of the old connection. -/
def Replaces (old new : TrainerConnection) : Prop :=
  new.ssh = false ∨ old.host ≠ new.host ∨ old.remotePort ≠ new.remotePort

instance (old new : TrainerConnection) : Decidable (Replaces old new) := inferInstanceAs (Decidable (_ ∨ _))

def stepSubmission : SetupEvent → Option TrainerSetup
  | .submissionLocked request =>
    if setup.submissions request = .absent ∧ setup.lock = none then
      if setup.Admits then some ({ setup with lock := some (.submission request) }.setSubmission request .locked)
      else some (setup.setSubmission request .concluded)
    else none
  | .trainerRead request =>
    if setup.submissions request = .locked then
      match setup.trainer with
      | some connection => some (setup.setSubmission request (.preparing connection))
      | none => some ({ setup with lock := none }.setSubmission request .concluded)
    else none
  | .catalogRead request =>
    match setup.submissions request with
    | .preparing connection =>
      -- the catalog of a managed trainer is asked of its container
      if connection.ssh = true ∧ setup.container = none then none
      else some (setup.setSubmission request (.prepared connection))
    | _ => none
  | .jobSaved request =>
    match setup.submissions request with
    | .prepared connection =>
      some ({ setup with jobs := ⟨request, connection⟩ :: setup.jobs, lock := none }.setSubmission request .concluded)
    | _ => none
  | .submissionFailed request =>
    match setup.submissions request with
    | .locked | .preparing _ | .prepared _ => some ({ setup with lock := none }.setSubmission request .concluded)
    | _ => none
  | .jobEnded job => some { setup with jobs := setup.jobs.filter fun other => other.id ≠ job }
  | _ => none

/-- One step of `install_remote_trainer` or `reboot_installed_host`, or of its background task. -/
def stepSetup : SetupEvent → Option TrainerSetup
  | .setupRequested request kind =>
    if setup.setups request = .absent then
      match setup.trainer with
      | some connection => some (setup.setSetup request (if connection.ssh = true then .requested kind else .concluded))
      | none => some (setup.setSetup request .concluded)
    else none
  -- Under `_setup_lock`, which is held until the setup is registered or refused.
  | .setupLocked request =>
    match setup.setups request with
    | .requested kind =>
      if setup.lock = none then
        if setup.install = none ∧ (kind = .reboot → ∃ failure ∈ setup.failure, failure.Rebootable) then
          some ({ setup with lock := some (.setup request) }.setSetup request (.locked kind))
        else some (setup.setSetup request .concluded)
      else none
    | _ => none
  | .setupChecked request =>
    match setup.setups request with
    | .locked kind =>
      if setup.jobs = [] then some (setup.setSetup request (.registering kind))
      else some ({ setup with lock := none }.setSetup request .concluded)
    | _ => none
  -- An install cancels the launch that is tracked; a reboot leaves it.
  | .setupRegistered request =>
    match setup.setups request with
    | .registering .install =>
      some ({ setup.cancelLaunch with failure := none, install := some (.working .install), lock := none }.setSetup request .concluded)
    | .registering .reboot =>
      some ({ setup with install := some (.working .reboot), lock := none }.setSetup request .concluded)
    | _ => none
  -- A container that is there is taken as it is.
  | .setupInspected =>
    match setup.install with
    | some (.working kind) =>
      if setup.container = none then some { setup with install := some (.launching kind), failure := none }
      else some { setup with failure := none }
    | _ => none
  | .setupLaunched =>
    match setup.install with
    | some (.launching kind) => some { setup.runContainer with install := some (.working kind) }
    | _ => none
  | .hostRebooted =>
    if setup.install = some (.working .reboot) then some { setup with container := none } else none
  | .setupEnded failure =>
    if setup.install = none then none else some { setup with install := none, failure := failure }
  | _ => none

def stepDelete : SetupEvent → Option TrainerSetup
  | .deleteRead request =>
    if setup.deletes request = .absent then
      match setup.trainer with
      | some connection => some (setup.setDelete request (if setup.install = none then .read connection else .concluded))
      | none => some (setup.setDelete request .concluded)
    else none
  -- Nothing is locked from here on, while the container is stopped and the row removed.
  | .deleteChecked request =>
    match setup.deletes request with
    | .read connection =>
      if connection.ssh = true ∧ setup.jobs ≠ [] then some (setup.setDelete request .concluded)
      else some (setup.setDelete request (.checked connection))
    | _ => none
  | .deleteStopped request forgetLocally =>
    match setup.deletes request with
    | .checked connection =>
      let canceled := setup.cancelLaunch
      if connection.ssh = true ∧ forgetLocally = false then
        some ({ canceled with container := none, failure := none }.setDelete request .stopped)
      else some (canceled.setDelete request .stopped)
    | _ => none
  | .deleteUntunneled request =>
    if setup.deletes request = .stopped then some (setup.setDelete request .untunneled) else none
  | .deleteRemoved request =>
    if setup.deletes request = .untunneled then some ({ setup with trainer := none }.setDelete request .concluded) else none
  | .deleteFailed request =>
    match setup.deletes request with
    | .read _ | .checked _ | .stopped | .untunneled => some (setup.setDelete request .concluded)
    | _ => none
  | _ => none

/-- One step of `update_remote_trainer`, for a request that leads to the connection `new` when it is checked. -/
def stepUpdate : SetupEvent → Option TrainerSetup
  | .updateRead request =>
    if setup.updates request = .absent then
      match setup.trainer with
      | some connection => some (setup.setUpdate request (if setup.install = none then .read connection else .concluded))
      | none => some (setup.setUpdate request .concluded)
    else none
  -- `_port_allocation_lock`, which a retry with another port keeps.
  | .updateLocked request =>
    match setup.updates request with
    | .read old =>
      if setup.portLock = none then some ({ setup with portLock := some request }.setUpdate request (.locked old)) else none
    | _ => none
  | .updateChecked request new =>
    match setup.updates request with
    | .locked old =>
      if new ≠ old ∧ (old.ssh = true ∨ new.ssh = true) ∧ setup.jobs ≠ [] then
        some ({ setup with portLock := none }.setUpdate request .concluded)
      else some (setup.setUpdate request (.checked old new))
    | _ => none
  | .updateWritten request =>
    match setup.updates request with
    | .checked old new => some ({ setup with trainer := some new }.setUpdate request (.written old new))
    | _ => none
  | .updateRetried request =>
    match setup.updates request with
    | .checked old _ => some (setup.setUpdate request (.locked old))
    | _ => none
  | .tunnelSynced request =>
    match setup.updates request with
    | .written old new => some ({ setup with portLock := none }.setUpdate request (.synced old new))
    | _ => none
  -- The row is written back, and only a port that is taken is tried again.
  | .tunnelFailed request retry =>
    match setup.updates request with
    | .written old new => some (setup.setUpdate request (.restoring old new retry))
    | _ => none
  | .updateRestored request =>
    match setup.updates request with
    | .restoring old _ retry =>
      let restored := { setup with trainer := some old }
      if retry = true then some (restored.setUpdate request (.locked old))
      else some ({ restored with portLock := none }.setUpdate request .concluded)
    | _ => none
  -- The tracked launch is cancelled in any case, the container stopped only where it is replaced.
  | .oldStopped request =>
    match setup.updates request with
    | .synced old new =>
      if new ≠ old ∧ old.ssh = true then
        let canceled := setup.cancelLaunch
        if Replaces old new then
          some ({ canceled with container := none, failure := none }.setUpdate request (.stopped new))
        else some (canceled.setUpdate request (.stopped new))
      else some (setup.setUpdate request (.stopped new))
    | _ => none
  | .launchCreated request launch =>
    match setup.updates request with
    | .stopped new =>
      if new.ssh = true then
        if setup.launches launch = .absent then
          some ({ setup with
            launches := Function.update setup.launches launch .created
            tracked := some launch }.setUpdate request .concluded)
        else none
      else some (setup.setUpdate request .concluded)
    | _ => none
  | .updateFailed request =>
    match setup.updates request with
    | .locked _ | .checked _ _ => some ({ setup with portLock := none }.setUpdate request .concluded)
    | .synced _ _ => some (setup.setUpdate request .concluded)
    | _ => none
  | _ => none

def stepLaunch : SetupEvent → Option TrainerSetup
  | .launchBegan launch =>
    if setup.launches launch = .created then
      some { setup with launches := Function.update setup.launches launch .starting, failure := none }
    else none
  -- A container that runs already ends the launch.
  | .launchInspected launch =>
    if setup.launches launch = .starting then
      if setup.container = none then some { setup with launches := Function.update setup.launches launch .launching }
      else some (setup.endLaunch launch)
    else none
  | .launched launch =>
    if setup.launches launch = .launching then some (setup.runContainer.endLaunch launch) else none
  | .launchFailed launch failure =>
    if setup.launches launch = .starting ∨ setup.launches launch = .launching then
      some ({ setup with failure := failure }.endLaunch launch)
    else none
  | .probed => some { setup with failure := none }
  | .containerDied => some { setup with container := none }
  | _ => none

def step (event : SetupEvent) : Option TrainerSetup :=
  (setup.stepSubmission event).or ((setup.stepSetup event).or ((setup.stepDelete event).or
    ((setup.stepUpdate event).or (setup.stepLaunch event))))

end TrainerSetup

def trainerSetup (connection : TrainerConnection) : System TrainerSetup SetupEvent where
  initial := {
    trainer := some connection
    launches := Function.update (fun _ => .absent) 0 .created
    tracked := some 0 }
  step := TrainerSetup.step

end PhysicalAiStudio.Remote
