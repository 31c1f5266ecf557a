import PhysicalAiStudio.Concurrency.History
import PhysicalAiStudio.Concurrency.RelyGuarantee
import PhysicalAiStudio.Runtime.Recording

/-! What the threads of a session may do to the recording, and what holds of it between their actions.

The history tells which call of a mutation is under way, whether its buffer is
left from a failed save, and which jobs may still touch the recording.
-/

set_option autoImplicit false

namespace PhysicalAiStudio.Runtime.Recording

open Concurrency

namespace RecordingEvent

def reaches : RecordingEvent → Option Nat
  | .frameAdded mutation _ | .frameRaised mutation => some mutation
  | _ => none

/-- Whether the event leaves a call of a mutation's `save_episode` or `discard_buffer` under way. -/
def calls (mutation : Nat) : RecordingEvent → Option Bool
  | .saveBegan other | .discardBegan other => if other = mutation then some true else none
  | .saveEnded other _ | .discardEnded other _ => if other = mutation then some false else none
  | _ => none

/-- Whether the event leaves a mutation's buffer with frames whose save has failed. -/
def taints (mutation : Nat) : RecordingEvent → Option Bool
  | .saveEnded other false => if other = mutation then some true else none
  | .discardEnded other true | .detached other _ => if other = mutation then some false else none
  | _ => none

def about : RecordingEvent → Option Nat
  | .saveBegan mutation | .saveEnded mutation _ | .discardBegan mutation | .discardEnded mutation _
  | .detached mutation _ => some mutation
  | _ => none

/-- The event opens no episode, is about no buffer and concerns no job's way through the worker. -/
def isQuiet : RecordingEvent → Bool
  | .started _ opened => !opened
  | .frameAdded .. | .frameRaised .. | .ended .. | .attached .. | .toreDown .. | .published .. => true
  | _ => false

def opens : RecordingEvent → Bool
  | .started _ opened => opened
  | _ => false

end RecordingEvent

def InCall (mutation : Nat) (history : List RecordingEvent) : Prop :=
  history.findSome? (·.calls mutation) = some true

def Tainted (mutation : Nat) (history : List RecordingEvent) : Prop :=
  history.findSome? (·.taints mutation) = some true

def Unreleased (job : Nat) (history : List RecordingEvent) : Prop :=
  .submitted job ∈ history ∧ .released job ∉ history

/-- What happened since the current episode was opened. -/
def sinceOpened (history : List RecordingEvent) : List RecordingEvent :=
  history.takeWhile (!·.opens)

/-! ### What is to hold of every event -/

/-- No frame reaches a mutation between the begin and the end of its save or discard. -/
def NotDuringCall (older : List RecordingEvent) (event : RecordingEvent) : Prop :=
  ∀ mutation, event.reaches = some mutation → ¬ InCall mutation older

def EndedByLater (older : List RecordingEvent) (event : RecordingEvent) : Prop :=
  ∀ job, event = .ended job → .submitted job ∈ sinceOpened older

def NotTainted (older : List RecordingEvent) (event : RecordingEvent) : Prop :=
  ∀ mutation frame, event = .frameAdded mutation frame → ¬ Tainted mutation older

def Lawful (older : List RecordingEvent) (event : RecordingEvent) : Prop :=
  NotDuringCall older event ∧ EndedByLater older event ∧ NotTainted older event

namespace RecordingMemory

def pending (m : RecordingMemory) : List Nat :=
  m.recording.mutation.elim [] m.buffers

/-- Every frame accepted is in exactly one saved or discarded episode, or still in the attached buffer. -/
def FramesSettled (m : RecordingMemory) : Prop :=
  (m.saved.flatten ++ m.discarded.flatten ++ m.pending).Perm (List.range m.frames)

end RecordingMemory

/-- An episode is opened with no job accepted that may still touch the recording and no buffer left from a
failed save, and a mutation is detached with an empty buffer. -/
def Orderly (older : List RecordingEvent) (event : RecordingEvent) : Prop :=
  (∀ mutation, event = .started mutation true →
    (∀ job, ¬ Unreleased job older) ∧ ∀ attached, mutation = some attached → ¬ Tainted attached older) ∧
  ∀ mutation buffer, event = .detached mutation buffer → buffer = []

/-! ### The steps -/

open RecordingMemory

def ControlAction (m n : RecordingMemory) : Prop :=
  (∃ task, n = m.handleStartRecording task) ∨ (∃ raises, n = m.addFrame raises) ∨ n = m.close

def ClientAction (m n : RecordingMemory) : Prop :=
  ∃ job, n = m.submit job

inductive WorkerAction (job : Nat) : RecordingMemory → RecordingMemory → Prop
  | took {m : RecordingMemory} {kind : RecordingJob} {rest : List (Nat × RecordingJob)}
      (queued : m.queue = (job, kind) :: rest) : WorkerAction job m { m with queue := rest }
  | cleared {m : RecordingMemory} (change : RecordingState → RecordingState)
      (mutation : (change m.recording).mutation = m.recording.mutation)
      (clears : (change m.recording).isRecording = false)
      (running : Unreleased job m.history) : WorkerAction job m (m.locked job change)
  | detached {m : RecordingMemory} (running : Unreleased job m.history)
      (idle : ∀ mutation, ¬ InCall mutation m.history) : WorkerAction job m (m.takeMutation job).2
  | attached {m : RecordingMemory} (running : Unreleased job m.history)
      (unqueued : ∀ entry ∈ m.queue, entry.1 ≠ job) (idle : ∀ mutation, ¬ InCall mutation m.history)
      (none : m.recording.mutation = none) : WorkerAction job m (m.attachMutation job)
  | began {m : RecordingMemory} {event : RecordingEvent} {mutation : Nat}
      (call : event = .saveBegan mutation ∨ event = .discardBegan mutation)
      (running : Unreleased job m.history) (held : m.recording.mutation = some mutation)
      (stopped : Always Orderly m.history → m.recording.isRecording = false) : WorkerAction job m (m.log event)
  | failed {m : RecordingMemory} {event : RecordingEvent} {mutation : Nat}
      (call : event = .saveEnded mutation false ∨ event = .discardEnded mutation false)
      (held : m.recording.mutation = some mutation) (inCall : InCall mutation m.history) :
      WorkerAction job m (m.log event)
  | saved {m : RecordingMemory} {mutation : Nat} (held : m.recording.mutation = some mutation) :
      WorkerAction job m (m.saveBuffer mutation)
  | discarded {m : RecordingMemory} {mutation : Nat} (held : m.recording.mutation = some mutation) :
      WorkerAction job m (m.discardBuffer mutation)
  | released {m : RecordingMemory} (running : Unreleased job m.history)
      (unqueued : ∀ entry ∈ m.queue, entry.1 ≠ job) (idle : ∀ mutation, ¬ InCall mutation m.history) :
      WorkerAction job m (m.release job)
  | toreDown {m : RecordingMemory} (mutation : Nat) : WorkerAction job m (m.log (.toreDown mutation))
  | published {m : RecordingMemory} (event : RuntimeEvent) : WorkerAction job m (m.log (.published event))

def RecordingStep : RecordingThread → RecordingMemory → RecordingMemory → Prop
  | .control => ControlAction
  | .client _ => ClientAction
  | .worker => Relation.ReflTransGen fun m n => ∃ job, WorkerAction job m n

/-! ### The invariant -/

/-- What holds between two actions. -/
structure RecordingInv (m : RecordingMemory) : Prop where
  queued : ∀ entry ∈ m.queue, Unreleased entry.1 m.history
  distinct : (m.queue.map Prod.fst).Nodup
  numbered : ∀ job, .submitted job ∈ m.history ∨ .released job ∈ m.history → job < m.jobs
  attached : ∀ mutation, m.recording.mutation = some mutation → mutation < m.mutations
  fresh : ∀ mutation, m.mutations ≤ mutation →
    m.buffers mutation = [] ∧ ∀ event ∈ m.history, event.about ≠ some mutation
  opened : m.recording.isRecording = true → m.recording.mutation ≠ none
  calling : ∀ mutation, InCall mutation m.history →
    m.recording.mutation = some mutation ∧ ∃ job, Unreleased job m.history
  /-- In an orderly history, no episode is open that a job accepted before could end. -/
  since : Always Orderly m.history → m.recording.isRecording = true →
    ∀ job, Unreleased job m.history → .submitted job ∈ sinceOpened m.history
  stopped : Always Orderly m.history → ∀ mutation, m.recording.mutation = some mutation →
    InCall mutation m.history ∨ Tainted mutation m.history → m.recording.isRecording = false
  frames : Always Orderly m.history → m.FramesSettled
  lawful : Always Orderly m.history → Always Lawful m.history

end PhysicalAiStudio.Runtime.Recording
