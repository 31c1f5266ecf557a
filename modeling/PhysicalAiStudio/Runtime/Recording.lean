import Mathlib.Logic.Function.Basic
import PhysicalAiStudio.Concurrency.Program
import PhysicalAiStudio.Runtime.Contract

/-! Recording episodes: the control thread writes frames, the command worker
loads datasets and saves, discards and finalizes episodes.

The two share `RecordingState`, whose methods are lock sections. What a mutation
does outside the lock takes time, so its beginning and its end are actions of
their own. Frames are numbered as they are accepted; what their observations and
actions hold only passes through. The finalize of a teardown runs when the
worker has drained, so it is one more job after the last.
-/

set_option autoImplicit false

namespace PhysicalAiStudio.Runtime.Recording

open Concurrency

structure RecordingState where
  datasetLoaded : Bool := false
  isRecording : Bool := false
  episodesRecorded : Nat := 0
  task : Option String := none
  mutation : Option Nat := none
  closed : Bool := false
  deriving DecidableEq

namespace RecordingState

def start (task : String) (recording : RecordingState) : Bool × RecordingState :=
  if recording.mutation = none ∨ recording.closed then (false, recording)
  else (true, { recording with task := some task, isRecording := true })

def attachMutation (mutation : Nat) (recording : RecordingState) : RecordingState :=
  { recording with mutation := some mutation, datasetLoaded := true, isRecording := false }

def markSaved (recording : RecordingState) : RecordingState :=
  { recording with isRecording := false, episodesRecorded := recording.episodesRecorded + 1 }

def markDiscarded (recording : RecordingState) : RecordingState :=
  { recording with isRecording := false }

/-- The mutation that `add_frame` writes to. -/
def target (recording : RecordingState) : Option Nat :=
  if recording.closed ∨ ¬ recording.isRecording ∨ recording.task = none then none else recording.mutation

def stopEpisode (recording : RecordingState) : Except Fault Nat × RecordingState :=
  match recording.mutation with
  | some mutation =>
    if recording.isRecording then (.ok mutation, { recording with isRecording := false })
    else (.error (.runtimeError "No episode is being recorded."), recording)
  | none => (.error (.runtimeError "No episode is being recorded."), recording)

def currentMutation (recording : RecordingState) : Option Nat × RecordingState :=
  (recording.mutation, { recording with isRecording := false })

def takeMutation (recording : RecordingState) : Option Nat × RecordingState :=
  (recording.mutation, { recording with
    mutation := none, isRecording := false, datasetLoaded := false, task := none, episodesRecorded := 0 })

def close (recording : RecordingState) : RecordingState :=
  { recording with closed := true }

end RecordingState

inductive RecordingJob where
  | loadDataset
  | saveEpisode
  | discardEpisode
  | finalizeRecording
  deriving DecidableEq

/-- What the calls on the way of one job raise. -/
structure JobScript where
  devicesReady : Option Fault := none
  teardown : Option Fault := none
  openDataset : Option Fault := none
  saveEpisode : Option Fault := none
  discardBuffer : Option Fault := none

inductive RecordingEvent where
  | submitted (job : Nat)
  /-- `start` returned true; an episode was opened if none was open. -/
  | started (mutation : Option Nat) (opened : Bool)
  | frameAdded (mutation frame : Nat)
  | frameRaised (mutation : Nat)
  /-- A job cleared the recording flag while it was set. -/
  | ended (job : Nat)
  | saveBegan (mutation : Nat)
  | saveEnded (mutation : Nat) (landed : Bool)
  | discardBegan (mutation : Nat)
  | discardEnded (mutation : Nat) (cleared : Bool)
  | attached (mutation : Nat)
  | detached (mutation : Nat) (buffer : List Nat)
  | toreDown (mutation : Nat)
  /-- A job is past the last of its calls on the recording. -/
  | released (job : Nat)
  | published (event : RuntimeEvent)
  deriving DecidableEq

/-- What the threads of a session share of the recording. -/
structure RecordingMemory where
  recording : RecordingState := {}
  buffers : Nat → List Nat := fun _ => []
  mutations : Nat := 0
  frames : Nat := 0
  saved : List (List Nat) := []
  discarded : List (List Nat) := []
  queue : List (Nat × RecordingJob) := []
  jobs : Nat := 0
  history : List RecordingEvent := []

structure RecordingTick where
  followerSource : FollowerSource
  actionSent : Bool := true
  jointNames : Bool := true
  addFrameRaises : Bool := false

namespace RecordingMemory

def log (event : RecordingEvent) (m : RecordingMemory) : RecordingMemory :=
  { m with history := event :: m.history }

def locked (job : Nat) (change : RecordingState → RecordingState) (m : RecordingMemory) : RecordingMemory :=
  let changed := { m with recording := change m.recording }
  if m.recording.isRecording ∧ ¬ (change m.recording).isRecording then changed.log (.ended job) else changed

/-! ### The control thread -/

/-- `StudioActionSource._handle_start_recording`. -/
def handleStartRecording (task : String) (m : RecordingMemory) : RecordingMemory :=
  match m.recording.start task with
  | (false, _) =>
    m.log (.published (.error "Load a dataset before starting a recording." "dataset_not_loaded"))
  | (true, recording) =>
    { m with recording := recording }.log (.started m.recording.mutation (!m.recording.isRecording))

def addFrame (raises : Bool) (m : RecordingMemory) : RecordingMemory :=
  match m.recording.target with
  | none => m
  | some mutation =>
    if raises then m.log (.frameRaised mutation)
    else { m with
      buffers := Function.update m.buffers mutation (m.buffers mutation ++ [m.frames])
      frames := m.frames + 1 }.log (.frameAdded mutation m.frames)

/-- `RecordingCallback.on_tick`, which logs what `add_frame` raises. -/
def onTick (tick : RecordingTick) (m : RecordingMemory) : RecordingMemory :=
  if tick.followerSource = .hold then m
  else if ¬ tick.actionSent ∨ ¬ tick.jointNames then m
  else m.addFrame tick.addFrameRaises

def close (m : RecordingMemory) : RecordingMemory :=
  { m with recording := m.recording.close }

/-! ### The queue of the command worker -/

def submit (job : RecordingJob) (m : RecordingMemory) : RecordingMemory :=
  { m with queue := m.queue ++ [(m.jobs, job)], jobs := m.jobs + 1 }.log (.submitted m.jobs)

def takeJob (m : RecordingMemory) : Option (Nat × RecordingJob) × RecordingMemory :=
  match m.queue with
  | [] => (none, m)
  | next :: rest => (some next, { m with queue := rest })

/-! ### Sections of the jobs -/

def release (job : Nat) (m : RecordingMemory) : RecordingMemory := m.log (.released job)

/-- Without an open episode `stop_episode` raises, which ends the job. -/
def stopEpisode (job : Nat) (m : RecordingMemory) : Except Fault Nat × RecordingMemory :=
  match m.recording.stopEpisode with
  | (.ok mutation, _) => (.ok mutation, m.locked job fun recording => recording.stopEpisode.2)
  | (.error fault, _) => (.error fault, m.release job)

/-- Without a dataset a discard has nothing more to do. -/
def currentMutation (job : Nat) (m : RecordingMemory) : Option Nat × RecordingMemory :=
  let cleared := m.locked job fun recording => recording.currentMutation.2
  match m.recording.mutation with
  | some mutation => (some mutation, cleared)
  | none => (none, cleared.release job)

def takeMutation (job : Nat) (m : RecordingMemory) : Option Nat × RecordingMemory :=
  let taken := m.locked job fun recording => recording.takeMutation.2
  match m.recording.mutation with
  | some mutation => (some mutation, taken.log (.detached mutation (m.buffers mutation)))
  | none => (none, taken)

def attachMutation (job : Nat) (m : RecordingMemory) : RecordingMemory :=
  { m with mutations := m.mutations + 1 }.locked job (·.attachMutation m.mutations)
    |>.log (.attached m.mutations) |>.release job

def markSaved (job : Nat) (m : RecordingMemory) : RecordingMemory :=
  m.locked job RecordingState.markSaved

def markDiscarded (job : Nat) (m : RecordingMemory) : RecordingMemory :=
  m.locked job RecordingState.markDiscarded

def saveBuffer (mutation : Nat) (m : RecordingMemory) : RecordingMemory :=
  { m with
    saved := m.buffers mutation :: m.saved
    buffers := Function.update m.buffers mutation [] }.log (.saveEnded mutation true)

def discardBuffer (mutation : Nat) (m : RecordingMemory) : RecordingMemory :=
  { m with
    discarded := m.buffers mutation :: m.discarded
    buffers := Function.update m.buffers mutation [] }.log (.discardEnded mutation true)

end RecordingMemory

inductive RecordingThread where
  | control
  | worker
  | client (index : Nat)
  deriving DecidableEq

abbrev RecordingTask := Program RecordingThread Fault RecordingMemory

namespace RuntimeSession

open RecordingMemory

def fromExcept {Value : Type} : Except Fault Value → RecordingTask Value
  | .ok value => pure value
  | .error fault => .raise fault

def callOrRelease (job : Nat) : Option Fault → RecordingTask Unit
  | none => pure ()
  | some fault => do
    .modify (·.release job)
    .raise fault

def saveEpisode (script : JobScript) (job : Nat) : RecordingTask Unit := do
  let mutation ← fromExcept (← .act (stopEpisode job))
  .modify (·.log (.saveBegan mutation))
  match script.saveEpisode with
  | some fault => do
    -- The buffer stays as it is: discard is what clears it.
    .modify fun m => (m.log (.saveEnded mutation false)).release job
    .raise fault
  | none => do
    .modify (saveBuffer mutation)
    .modify fun m => (m.markSaved job).release job

def discardEpisode (script : JobScript) (job : Nat) : RecordingTask Unit := do
  match ← .act (currentMutation job) with
  | none => .raise (.runtimeError "No dataset is loaded.")
  | some mutation => do
    .modify (·.log (.discardBegan mutation))
    -- A failing discard keeps the mutation, and only the lock is given back.
    match script.discardBuffer with
    | some fault => do
      .modify fun m => (m.log (.discardEnded mutation false)).release job
      .raise fault
    | none => do
      .modify (discardBuffer mutation)
      .modify fun m => (m.markDiscarded job).release job

def discardOpenEpisode (script : JobScript) (job : Nat) : RecordingTask Unit := do
  let recording ← .read (·.recording.isRecording)
  if recording then do
    let mutation ← fromExcept (← .act (stopEpisode job))
    .modify (·.log (.discardBegan mutation))
    -- What the discard raises is only logged.
    match script.discardBuffer with
    | some _ => .modify (·.log (.discardEnded mutation false))
    | none => .modify (discardBuffer mutation)
    .modify (·.markDiscarded job)
  else pure ()

def finalizeRecording (script : JobScript) (job : Nat) : RecordingTask Unit := do
  discardOpenEpisode script job
  let mutation ← .act fun m => ((takeMutation job m).1, (takeMutation job m).2.release job)
  match mutation with
  | none => pure ()
  | some mutation => .modify (·.log (.toreDown mutation))

def openDataset (script : JobScript) (job : Nat) : RecordingTask Unit := do
  callOrRelease job script.devicesReady
  match ← .act (takeMutation job) with
  | none => pure ()
  | some previous => do
    .modify (·.log (.toreDown previous))
    callOrRelease job script.teardown
  callOrRelease job script.openDataset
  .modify (attachMutation job)

def loadDataset (script : JobScript) (job : Nat) : RecordingTask Unit :=
  .attempt
    (fun fault => do
      .modify (·.log (.published (.error (fault.textOr "Failed to load the dataset.") "dataset_load_failed")))
      .raise fault)
    (openDataset script job)

def runJob (script : JobScript) (job : Nat) : RecordingJob → RecordingTask Unit
  | .loadDataset => loadDataset script job
  | .saveEpisode => saveEpisode script job
  | .discardEpisode => discardEpisode script job
  | .finalizeRecording => finalizeRecording script job

/-- `CommandWorker._run`. A look at an empty queue is one more wait. -/
def worker (scripts : Nat → JobScript) : Nat → RecordingTask Unit
  | 0 => pure ()
  | looks + 1 => do
    match ← .act takeJob with
    | none => pure ()
    | some (job, kind) => .attempt (fun _ => pure ()) (runJob (scripts job) job kind)
    worker scripts looks

inductive ControlInput where
  | startRecording (task : String)
  | tick (tick : RecordingTick)
  | close

def ControlInput.handle : ControlInput → RecordingMemory → RecordingMemory
  | .startRecording task => handleStartRecording task
  | .tick input => onTick input
  | .close => RecordingMemory.close

def control : List ControlInput → RecordingTask Unit
  | [] => pure ()
  | input :: rest => do
    .modify input.handle
    control rest

/-- What submits jobs: the request handlers, and `finalize_recording` of an abandoned session. -/
def client : List RecordingJob → RecordingTask Unit
  | [] => pure ()
  | .finalizeRecording :: rest => do
    let loaded ← .read (·.recording.datasetLoaded)
    if loaded then .modify (submit .finalizeRecording) else pure ()
    client rest
  | job :: rest => do
    .modify (submit job)
    client rest

end RuntimeSession

structure RecordingSession where
  inputs : List RuntimeSession.ControlInput
  clients : List (List RecordingJob)
  scripts : Nat → JobScript := fun _ => {}
  looks : Nat

def RecordingSession.pool (session : RecordingSession) : Pool RecordingThread Fault RecordingMemory where
  memory := {}
  threads :=
    ⟨.control, RuntimeSession.control session.inputs⟩ ::
    ⟨.worker, RuntimeSession.worker session.scripts session.looks⟩ ::
    session.clients.mapIdx fun index jobs => ⟨.client index, RuntimeSession.client jobs⟩

/-- The recording after its threads have moved in the order the schedule gives. None starts another. -/
@[irreducible] def RecordingSession.run (session : RecordingSession) (schedule : List Nat) :
    Pool RecordingThread Fault RecordingMemory :=
  session.pool.run (fun _ => pure ()) schedule

end PhysicalAiStudio.Runtime.Recording
