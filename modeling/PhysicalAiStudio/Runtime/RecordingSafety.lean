import PhysicalAiStudio.Runtime.RecordingInvariant

/-! The threads of a session keep to the steps of the recording.

Only the worker relies on what it has found: the assertions of its jobs survive
whatever the control thread and the clients do in between.
-/

set_option autoImplicit false

namespace PhysicalAiStudio.Runtime.Recording

open Concurrency RecordingMemory Protocol

def recordingProtocol (clients : Nat) : Protocol RecordingThread RecordingThread RecordingMemory where
  key := id
  roster _ := .control :: .worker :: (List.range clients).map .client
  Step := RecordingStep
  Inv := RecordingInv
  Entry _ _ := False

variable {clients job mutation : Nat} {m n : RecordingMemory}

def Idle (m : RecordingMemory) : Prop :=
  ∀ mutation, ¬ InCall mutation m.history

/-- The worker runs the job, which may still touch the recording. -/
structure Running (job : Nat) (m : RecordingMemory) : Prop where
  unreleased : Unreleased job m.history
  unqueued : ∀ entry ∈ m.queue, entry.1 ≠ job

structure Holds (job mutation : Nat) (m : RecordingMemory) : Prop extends Running job m where
  held : m.recording.mutation = some mutation
  stopped : Always Orderly m.history → m.recording.isRecording = false

structure Calling (job mutation : Nat) (m : RecordingMemory) : Prop extends Holds job mutation m where
  inCall : ∀ other, InCall other m.history ↔ other = mutation

/-! ### What the other threads leave alone -/

/-- What the worker can rely on between two of its actions. -/
structure WorkerFrame (m n : RecordingMemory) : Prop where
  inCall : ∀ mutation, InCall mutation n.history ↔ InCall mutation m.history
  mutation : n.recording.mutation = m.recording.mutation
  unreleased : ∀ job, Unreleased job m.history → Unreleased job n.history
  unqueued : ∀ job, Unreleased job m.history → (∀ entry ∈ m.queue, entry.1 ≠ job) → ∀ entry ∈ n.queue, entry.1 ≠ job
  stopped : ∀ job, Unreleased job m.history → (Always Orderly m.history → m.recording.isRecording = false) →
    Always Orderly n.history → n.recording.isRecording = false

theorem WorkerFrame.of_quiet (event : RecordingEvent) (history : n.history = m.history ∨ n.history = event :: m.history)
    (quiet : Quiet event) (queue : n.queue = m.queue) (mutation : n.recording.mutation = m.recording.mutation)
    (recorded : n.recording.isRecording = m.recording.isRecording) : WorkerFrame m n where
  inCall other := by
    rcases history with same | logged
    · rw [same]
    · rw [logged, inCall_cons_iff (quiet.calls other)]
  mutation := mutation
  unreleased job running := by
    rcases history with same | logged
    · rwa [same]
    · rwa [logged, unreleased_cons_iff (quiet.submits job) (quiet.releases job)]
  unqueued job _ unqueued := queue ▸ unqueued
  stopped job _ stopped orderly := by
    rw [recorded]
    refine stopped ?_
    rcases history with same | logged
    · rwa [same] at orderly
    · rw [logged] at orderly
      exact orderly.2

theorem WorkerFrame.startRecording (task : String) : WorkerFrame m (m.handleStartRecording task) := by
  unfold handleStartRecording RecordingState.start
  by_cases refused : m.recording.mutation = none ∨ m.recording.closed
  · rw [if_pos refused]
    exact .of_quiet _ (.inr rfl) (.of rfl) rfl rfl rfl
  · rw [if_neg refused]
    exact
      { inCall := fun other => inCall_cons_iff rfl
        mutation := rfl
        unreleased := fun job running => (unreleased_cons_iff (by simp) (by simp)).mpr running
        unqueued := fun job _ => id
        stopped := fun job running stopped orderly => by
          -- Only an episode that was open already stays open beside a running job.
          cases recorded : m.recording.isRecording with
          | true => rw [stopped orderly.2] at recorded; cases recorded
          | false => exact absurd running ((orderly.1.1 m.recording.mutation (by rw [recorded]; rfl)).1 job) }

theorem WorkerFrame.addFrame (raises : Bool) : WorkerFrame m (m.addFrame raises) := by
  unfold RecordingMemory.addFrame
  cases m.recording.target with
  | none => exact .of_quiet (.toreDown 0) (.inl rfl) (.of rfl) rfl rfl rfl
  | some mutation =>
    cases raises with
    | true =>
      exact .of_quiet _ (.inr rfl) (.of rfl) rfl rfl rfl
    | false =>
      exact .of_quiet _ (.inr rfl) (.of rfl) rfl rfl rfl

theorem WorkerFrame.submit (inv : RecordingInv m) (kind : RecordingJob) : WorkerFrame m (m.submit kind) where
  inCall other := inCall_cons_iff rfl
  mutation := rfl
  unreleased job running := ⟨List.mem_cons_of_mem _ running.1, by simpa [RecordingMemory.submit, log] using running.2⟩
  unqueued job running unqueued entry member := by
    rcases List.mem_append.mp member with member | member
    · exact unqueued entry member
    · rw [List.mem_singleton.mp member]
      exact (inv.numbered job (.inl running.1)).ne'
  stopped job running stopped orderly := stopped orderly.2

theorem WorkerFrame.foreign (foreign : (recordingProtocol clients).Foreign .worker m n) : WorkerFrame m n := by
  obtain ⟨inv, other, unlike, step⟩ := foreign
  cases other with
  | worker => exact absurd rfl unlike
  | control =>
    rcases step with ⟨task, rfl⟩ | ⟨raises, rfl⟩ | rfl
    · exact .startRecording task
    · exact .addFrame raises
    · exact .of_quiet (.toreDown 0) (.inl rfl) (.of rfl) rfl rfl rfl
  | client index =>
    obtain ⟨kind, rfl⟩ := step
    exact .submit inv kind

namespace WorkerFrame

variable (frame : WorkerFrame m n)
include frame

theorem idle (idle : Idle m) : Idle n :=
  fun mutation inCall => idle mutation ((frame.inCall mutation).mp inCall)

theorem running (running : Running job m) : Running job n :=
  ⟨frame.unreleased job running.unreleased, frame.unqueued job running.unreleased running.unqueued⟩

theorem holds (holds : Holds job mutation m) : Holds job mutation n :=
  ⟨frame.running holds.toRunning, frame.mutation.trans holds.held, frame.stopped job holds.unreleased holds.stopped⟩

theorem calling (calling : Calling job mutation m) : Calling job mutation n :=
  ⟨frame.holds calling.toHolds, fun other => (frame.inCall other).trans (calling.inCall other)⟩

end WorkerFrame

/-! ### The sections of a job -/

section Rules

variable {Value : Type} {post : Value → RecordingMemory → Prop} {fault : Fault → RecordingMemory → Prop}

theorem safe_worker_act {assertion : RecordingMemory → Prop}
    (stable : ∀ m n, WorkerFrame m n → assertion m → assertion n) (holds : assertion m)
    (action : RecordingMemory → Value × RecordingMemory)
    (here : ∀ n, RecordingInv n → assertion n →
      ((action n).2 = n ∨ RecordingStep .worker n (action n).2) ∧ post (action n).1 (action n).2) :
    (recordingProtocol clients).Safe .worker post fault (.act action : RecordingTask Value) m := by
  rw [safe_act]
  intro n interference inv
  have kept := interference.stable (fun _ _ foreign => stable _ _ (.foreign foreign)) holds
  exact ⟨(here n inv kept).1, rfl, (here n inv kept).2⟩

theorem safe_worker_modify {post : Unit → RecordingMemory → Prop} {assertion : RecordingMemory → Prop}
    (stable : ∀ m n, WorkerFrame m n → assertion m → assertion n) (holds : assertion m)
    (change : RecordingMemory → RecordingMemory)
    (here : ∀ n, RecordingInv n → assertion n →
      (change n = n ∨ RecordingStep .worker n (change n)) ∧ post () (change n)) :
    (recordingProtocol clients).Safe .worker post fault (.modify change : RecordingTask Unit) m :=
  safe_worker_act stable holds _ here

end Rules

/-- The worker runs a job outside any call. -/
def Ready (job : Nat) (m : RecordingMemory) : Prop :=
  Running job m ∧ Idle m

def HoldsIdle (job mutation : Nat) (m : RecordingMemory) : Prop :=
  Holds job mutation m ∧ Idle m

theorem Ready.frame (m n : RecordingMemory) (frame : WorkerFrame m n) (ready : Ready job m) : Ready job n :=
  ⟨frame.running ready.1, frame.idle ready.2⟩

theorem HoldsIdle.frame (m n : RecordingMemory) (frame : WorkerFrame m n) (holds : HoldsIdle job mutation m) :
    HoldsIdle job mutation n :=
  ⟨frame.holds holds.1, frame.idle holds.2⟩

theorem Calling.frame (m n : RecordingMemory) (frame : WorkerFrame m n) (calling : Calling job mutation m) :
    Calling job mutation n :=
  frame.calling calling

theorem HoldsIdle.ready (holds : HoldsIdle job mutation m) : Ready job m :=
  ⟨holds.1.toRunning, holds.2⟩

theorem log_idle {event : RecordingEvent} (quiet : ∀ mutation, event.calls mutation = none) (idle : Idle m) :
    Idle (m.log event) :=
  fun mutation inCall => idle mutation ((inCall_cons_iff (quiet mutation)).mp inCall)

theorem release_idle (idle : Idle m) : Idle (m.release job) := log_idle (fun _ => rfl) idle

theorem locked_history (job : Nat) (change : RecordingState → RecordingState) (m : RecordingMemory) :
    (m.locked job change).history = m.history ∨ (m.locked job change).history = .ended job :: m.history := by
  unfold RecordingMemory.locked
  split
  · exact .inr rfl
  · exact .inl rfl

@[simp] theorem locked_recording (job : Nat) (change : RecordingState → RecordingState) (m : RecordingMemory) :
    (m.locked job change).recording = change m.recording := by
  unfold RecordingMemory.locked
  split <;> rfl

@[simp] theorem locked_queue (job : Nat) (change : RecordingState → RecordingState) (m : RecordingMemory) :
    (m.locked job change).queue = m.queue := by
  unfold RecordingMemory.locked
  split <;> rfl

theorem locked_idle {change : RecordingState → RecordingState} (idle : Idle m) : Idle (m.locked job change) := by
  intro mutation
  rcases locked_history job change m with same | ended
  · rw [same]
    exact idle mutation
  · rw [ended, inCall_cons_iff rfl]
    exact idle mutation

theorem locked_running {change : RecordingState → RecordingState} (running : Running job m) :
    Running job (m.locked job change) where
  unreleased := by
    rcases locked_history job change m with same | ended
    · rw [same]
      exact running.unreleased
    · rw [ended, unreleased_cons_iff (by simp) (by simp)]
      exact running.unreleased
  unqueued := by
    rw [locked_queue]
    exact running.unqueued

theorem log_running {event : RecordingEvent} (submits : event ≠ .submitted job) (releases : event ≠ .released job)
    (running : Running job m) : Running job (m.log event) where
  unreleased := (unreleased_cons_iff submits releases).mpr running.unreleased
  unqueued := running.unqueued

theorem worker_cleared (change : RecordingState → RecordingState) (running : Running job m)
    (same : (change m.recording).mutation = m.recording.mutation) (clears : (change m.recording).isRecording = false) :
    RecordingStep .worker m (m.locked job change) :=
  .single ⟨job, .cleared change same clears running.unreleased⟩

theorem worker_released (ready : Ready job m) : RecordingStep .worker m (m.release job) :=
  .single ⟨job, .released ready.1.unreleased ready.1.unqueued ready.2⟩

theorem stopEpisode_ok {recording next : RecordingState} (stopped : recording.stopEpisode = (.ok mutation, next)) :
    recording.mutation = some mutation ∧ next.mutation = some mutation ∧ next.isRecording = false := by
  unfold RecordingState.stopEpisode at stopped
  split at stopped
  · rename_i attached held
    split at stopped
    · cases stopped
      exact ⟨held, held, rfl⟩
    · cases stopped
  · cases stopped

section Jobs

variable {post : Unit → RecordingMemory → Prop} {fault : Fault → RecordingMemory → Prop} (script : JobScript)

theorem safe_stopEpisode {next : Nat → RecordingTask Unit} (ready : Ready job m)
    (proceeds : ∀ mutation n, HoldsIdle job mutation n →
      (recordingProtocol clients).Safe .worker post fault (next mutation) n)
    (fails : ∀ reason n, Idle n → fault reason n) :
    (recordingProtocol clients).Safe .worker post fault
      (Program.act (stopEpisode job) >>= fun stopped => RuntimeSession.fromExcept stopped >>= next) m := by
  rw [safe_bind]
  refine safe_worker_act Ready.frame ready _ fun n _ ready => ?_
  unfold RecordingMemory.stopEpisode
  rcases stopped : n.recording.stopEpisode with ⟨_ | mutation, recording⟩
  · exact ⟨.inr (worker_released ready), fails _ _ (release_idle ready.2)⟩
  · obtain ⟨held, same, clears⟩ := stopEpisode_ok stopped
    refine ⟨.inr (worker_cleared (fun recording => recording.stopEpisode.2) ready.1 ?_ ?_), ?_⟩
    · rw [stopped, same, held]
    · rw [stopped, clears]
    · refine proceeds mutation (n.locked job fun recording => recording.stopEpisode.2)
        ⟨⟨locked_running ready.1, ?_, fun _ => ?_⟩, locked_idle ready.2⟩
      · rw [locked_recording, stopped, same]
      · rw [locked_recording, stopped, clears]

theorem safe_begin {post : Unit → RecordingMemory → Prop} {event : RecordingEvent}
    (call : event = .saveBegan mutation ∨ event = .discardBegan mutation) (holds : HoldsIdle job mutation m)
    (proceeds : ∀ n, Calling job mutation n → post () n) :
    (recordingProtocol clients).Safe .worker post fault (Program.modify (·.log event) : RecordingTask Unit) m := by
  refine safe_worker_modify HoldsIdle.frame holds _ fun n _ holds => ⟨.inr (.single ⟨job, ?_⟩), proceeds _ ?_⟩
  · exact .began call holds.1.unreleased holds.1.held holds.1.stopped
  · refine ⟨⟨log_running ?_ ?_ holds.1.toRunning, holds.1.held, fun orderly => holds.1.stopped orderly.2⟩, ?_⟩
    · rcases call with rfl | rfl <;> simp
    · rcases call with rfl | rfl <;> simp
    · intro other
      by_cases same : mutation = other
      · rcases call with rfl | rfl <;> simp [InCall, log, RecordingEvent.calls, same]
      · have quiet : event.calls other = none := by
          rcases call with rfl | rfl <;> simp [RecordingEvent.calls, same]
        rw [log, inCall_cons_iff quiet]
        exact iff_of_false (holds.2 other) (Ne.symm same)

/-- A call that ends, whatever became of the buffer. -/
theorem Calling.concluded (calling : Calling job mutation m) (event : RecordingEvent)
    (ends : ∀ other, event.calls other = if mutation = other then some false else none)
    (history : n.history = event :: m.history) (recording : n.recording = m.recording) (queue : n.queue = m.queue) :
    HoldsIdle job mutation n := by
  have unlike : event ≠ .submitted job ∧ event ≠ .released job := by
    constructor <;> rintro rfl <;> simpa [RecordingEvent.calls] using ends mutation
  refine ⟨⟨⟨?_, ?_⟩, ?_, fun orderly => ?_⟩, fun other => ?_⟩
  · rw [history]
    exact (unreleased_cons_iff unlike.1 unlike.2).mpr calling.unreleased
  · rw [queue]
    exact calling.unqueued
  · rw [recording]
    exact calling.held
  · rw [history] at orderly
    rw [recording]
    exact calling.stopped orderly.2
  · rw [history]
    by_cases same : mutation = other
    · simp [InCall, ends, same]
    · rw [inCall_cons_iff (by rw [ends, if_neg same]), calling.inCall]
      exact Ne.symm same

theorem worker_failed {event : RecordingEvent} (calling : Calling job mutation m)
    (call : event = .saveEnded mutation false ∨ event = .discardEnded mutation false) :
    RecordingStep .worker m (m.log event) ∧ HoldsIdle job mutation (m.log event) := by
  refine ⟨.single ⟨job, .failed call calling.held ((calling.inCall mutation).mpr rfl)⟩, ?_⟩
  rcases call with rfl | rfl <;> exact calling.concluded _ (fun _ => rfl) rfl rfl rfl

theorem safe_fail {post : Unit → RecordingMemory → Prop} {event : RecordingEvent}
    (call : event = .saveEnded mutation false ∨ event = .discardEnded mutation false)
    (calling : Calling job mutation m) (proceeds : ∀ n, Idle n → post () n) :
    (recordingProtocol clients).Safe .worker post fault
      (Program.modify fun m => (m.log event).release job : RecordingTask Unit) m := by
  refine safe_worker_modify Calling.frame calling _ fun n _ calling => ?_
  obtain ⟨failed, ended⟩ := worker_failed calling call
  exact ⟨.inr (failed.trans (worker_released ended.ready)), proceeds _ (release_idle ended.2)⟩

theorem safe_saveBuffer {post : Unit → RecordingMemory → Prop} (calling : Calling job mutation m)
    (proceeds : ∀ n, HoldsIdle job mutation n → post () n) :
    (recordingProtocol clients).Safe .worker post fault (Program.modify (saveBuffer mutation) : RecordingTask Unit) m :=
  safe_worker_modify Calling.frame calling _ fun _ _ calling =>
    ⟨.inr (.single ⟨job, .saved calling.held⟩),
      proceeds _ (calling.concluded (.saveEnded mutation true) (fun _ => rfl) rfl rfl rfl)⟩

theorem safe_discardBuffer {post : Unit → RecordingMemory → Prop} (calling : Calling job mutation m)
    (proceeds : ∀ n, HoldsIdle job mutation n → post () n) :
    (recordingProtocol clients).Safe .worker post fault
      (Program.modify (discardBuffer mutation) : RecordingTask Unit) m :=
  safe_worker_modify Calling.frame calling _ fun _ _ calling =>
    ⟨.inr (.single ⟨job, .discarded calling.held⟩),
      proceeds _ (calling.concluded (.discardEnded mutation true) (fun _ => rfl) rfl rfl rfl)⟩

/-- A section that clears the flag and ends the job. -/
theorem safe_clear_release {post : Unit → RecordingMemory → Prop} {change : RecordingState → RecordingState}
    (same : ∀ recording, (change recording).mutation = recording.mutation)
    (clears : ∀ recording, (change recording).isRecording = false) (ready : Ready job m)
    (proceeds : ∀ n, Idle n → post () n) :
    (recordingProtocol clients).Safe .worker post fault
      (Program.modify fun m => (m.locked job change).release job : RecordingTask Unit) m := by
  refine safe_worker_modify Ready.frame ready _ fun n _ ready => ?_
  have cleared : Ready job (n.locked job change) := ⟨locked_running ready.1, locked_idle ready.2⟩
  exact ⟨.inr ((worker_cleared _ ready.1 (same _) (clears _)).trans (worker_released cleared)),
    proceeds _ (release_idle cleared.2)⟩

theorem safe_saveEpisode (ready : Ready job m) (done : ∀ n, Idle n → post () n)
    (failed : ∀ reason n, Idle n → fault reason n) :
    (recordingProtocol clients).Safe .worker post fault (RuntimeSession.saveEpisode script job) m := by
  refine safe_stopEpisode ready (fun mutation n holds => ?_) failed
  rw [safe_bind]
  refine safe_begin (.inl rfl) holds fun n calling => ?_
  cases script.saveEpisode with
  | some reason =>
    rw [safe_bind]
    exact safe_fail (.inl rfl) calling fun n idle => failed reason n idle
  | none =>
    rw [safe_bind]
    refine safe_saveBuffer calling fun n holds => ?_
    exact safe_clear_release (fun _ => rfl) (fun _ => rfl) holds.ready done

theorem safe_discardEpisode (ready : Ready job m) (done : ∀ n, Idle n → post () n)
    (failed : ∀ reason n, Idle n → fault reason n) :
    (recordingProtocol clients).Safe .worker post fault (RuntimeSession.discardEpisode script job) m := by
  unfold RuntimeSession.discardEpisode
  rw [safe_bind]
  refine safe_worker_act Ready.frame ready _ fun n _ ready => ?_
  have cleared : RecordingStep .worker n (n.locked job fun recording => recording.currentMutation.2) :=
    worker_cleared _ ready.1 rfl rfl
  have after : Ready job (n.locked job fun recording => recording.currentMutation.2) :=
    ⟨locked_running ready.1, locked_idle ready.2⟩
  unfold RecordingMemory.currentMutation
  cases held : n.recording.mutation with
  | none => exact ⟨.inr (cleared.trans (worker_released after)), failed _ _ (release_idle after.2)⟩
  | some mutation =>
    refine ⟨.inr cleared, ?_⟩
    have holds : HoldsIdle job mutation (n.locked job fun recording => recording.currentMutation.2) :=
      ⟨⟨after.1, by rw [locked_recording]; exact held, fun _ => by rw [locked_recording]; rfl⟩, after.2⟩
    rw [safe_bind]
    refine safe_begin (.inr rfl) holds fun n calling => ?_
    cases script.discardBuffer with
    | some reason =>
      rw [safe_bind]
      exact safe_fail (.inr rfl) calling fun n idle => failed reason n idle
    | none =>
      rw [safe_bind]
      refine safe_discardBuffer calling fun n holds => ?_
      exact safe_clear_release (fun _ => rfl) (fun _ => rfl) holds.ready done

theorem safe_discardOpenEpisode (ready : Ready job m) (done : ∀ n, Ready job n → post () n)
    (failed : ∀ reason n, Idle n → fault reason n) :
    (recordingProtocol clients).Safe .worker post fault (RuntimeSession.discardOpenEpisode script job) m := by
  unfold RuntimeSession.discardOpenEpisode
  rw [safe_bind]
  refine safe_worker_act Ready.frame ready _ fun n _ ready => ⟨.inl rfl, ?_⟩
  split
  · refine safe_stopEpisode ready (fun mutation n holds => ?_) failed
    rw [safe_bind]
    refine safe_begin (.inr rfl) holds fun n calling => ?_
    have mark : ∀ n, HoldsIdle job mutation n → (recordingProtocol clients).Safe .worker post fault
        (Program.modify (·.markDiscarded job) : RecordingTask Unit) n := by
      intro n holds
      refine safe_worker_modify HoldsIdle.frame holds _ fun n _ holds => ?_
      exact ⟨.inr (worker_cleared _ holds.1.toRunning rfl rfl), done _ ⟨locked_running holds.1.toRunning, locked_idle holds.2⟩⟩
    cases script.discardBuffer with
    | some reason =>
      rw [safe_bind]
      refine safe_worker_modify Calling.frame calling _ fun n _ calling => ?_
      obtain ⟨failed, ended⟩ := worker_failed calling (.inr rfl)
      exact ⟨.inr failed, mark _ ended⟩
    | none =>
      rw [safe_bind]
      exact safe_discardBuffer calling mark
  · exact done n ready

/-- Taking the mutation away leaves none attached. -/
theorem worker_detached (ready : Ready job m) :
    RecordingStep .worker m (m.takeMutation job).2 ∧ Ready job (m.takeMutation job).2 ∧
      (m.takeMutation job).2.recording.mutation = none := by
  refine ⟨.single ⟨job, .detached ready.1.unreleased ready.2⟩, ?_⟩
  have taken : Ready job (m.locked job fun recording => recording.takeMutation.2) :=
    ⟨locked_running ready.1, locked_idle ready.2⟩
  have none : (m.locked job fun recording => recording.takeMutation.2).recording.mutation = none := by
    rw [locked_recording]
    rfl
  unfold RecordingMemory.takeMutation
  cases m.recording.mutation with
  | none => exact ⟨taken, none⟩
  | some mutation => exact ⟨⟨log_running (by simp) (by simp) taken.1, log_idle (fun _ => rfl) taken.2⟩, none⟩

theorem safe_finalizeRecording (ready : Ready job m) (done : ∀ n, Idle n → post () n)
    (failed : ∀ reason n, Idle n → fault reason n) :
    (recordingProtocol clients).Safe .worker post fault (RuntimeSession.finalizeRecording script job) m := by
  unfold RuntimeSession.finalizeRecording
  rw [safe_bind]
  refine safe_discardOpenEpisode script ready (fun n ready => ?_) failed
  rw [safe_bind]
  refine safe_worker_act Ready.frame ready _ fun n _ ready => ?_
  obtain ⟨detached, after, -⟩ := worker_detached ready
  refine ⟨.inr (detached.trans (worker_released after)), ?_⟩
  have idle : Idle ((n.takeMutation job).2.release job) := release_idle after.2
  cases (n.takeMutation job).1 with
  | none => exact done _ idle
  | some mutation =>
    refine safe_worker_modify (fun _ _ frame => frame.idle) idle _ fun n _ idle => ?_
    exact ⟨.inr (.single ⟨job, .toreDown mutation⟩), done _ (log_idle (fun _ => rfl) idle)⟩

theorem safe_callOrRelease (assertion : RecordingMemory → Prop) (raises : Option Fault)
    (ready : Ready job m) (holds : assertion m) (done : ∀ n, Ready job n → assertion n → post () n)
    (failed : ∀ reason n, Idle n → fault reason n) :
    (recordingProtocol clients).Safe .worker post fault (RuntimeSession.callOrRelease job raises) m := by
  cases raises with
  | none => exact done m ready holds
  | some reason =>
    unfold RuntimeSession.callOrRelease
    rw [safe_bind]
    refine safe_worker_modify Ready.frame ready _ fun n _ ready => ?_
    exact ⟨.inr (worker_released ready), failed reason _ (release_idle ready.2)⟩

def Unattached (job : Nat) (m : RecordingMemory) : Prop :=
  Ready job m ∧ m.recording.mutation = none

theorem Unattached.frame (m n : RecordingMemory) (frame : WorkerFrame m n) (unattached : Unattached job m) :
    Unattached job n :=
  ⟨unattached.1.frame m n frame, frame.mutation.trans unattached.2⟩

theorem safe_openDataset (ready : Ready job m) (done : ∀ n, Idle n → post () n)
    (failed : ∀ reason n, Idle n → fault reason n) :
    (recordingProtocol clients).Safe .worker post fault (RuntimeSession.openDataset script job) m := by
  have attach : ∀ n, Unattached job n → (recordingProtocol clients).Safe .worker post fault
      (do RuntimeSession.callOrRelease job script.openDataset; Program.modify (attachMutation job)) n := by
    intro n unattached
    rw [safe_bind]
    refine safe_callOrRelease _ script.openDataset unattached.1 unattached (fun n _ unattached => ?_) failed
    refine safe_worker_modify Unattached.frame unattached _ fun n _ unattached => ?_
    refine ⟨.inr (.single ⟨job, .attached unattached.1.1.unreleased unattached.1.1.unqueued unattached.1.2 unattached.2⟩),
      done _ ?_⟩
    exact release_idle (log_idle (fun _ => rfl) (locked_idle unattached.1.2))
  unfold RuntimeSession.openDataset
  rw [safe_bind]
  refine safe_callOrRelease (fun _ => True) script.devicesReady ready trivial (fun n ready _ => ?_) failed
  rw [safe_bind]
  refine safe_worker_act Ready.frame ready _ fun n _ ready => ?_
  obtain ⟨detached, unattached⟩ := worker_detached ready
  refine ⟨.inr detached, ?_⟩
  cases (n.takeMutation job).1 with
  | none => exact attach _ unattached
  | some previous =>
    rw [safe_bind]
    refine safe_worker_modify Unattached.frame unattached _ fun n _ unattached => ⟨.inr (.single ⟨job, .toreDown previous⟩), ?_⟩
    have after : Unattached job (n.log (.toreDown previous)) :=
      ⟨⟨log_running (by simp) (by simp) unattached.1.1, log_idle (fun _ => rfl) unattached.1.2⟩, unattached.2⟩
    rw [safe_bind]
    exact safe_callOrRelease _ script.teardown after.1 after (fun n _ unattached => attach n unattached) failed

theorem safe_loadDataset (ready : Ready job m) (done : ∀ n, Idle n → post () n)
    (failed : ∀ reason n, Idle n → fault reason n) :
    (recordingProtocol clients).Safe .worker post fault (RuntimeSession.loadDataset script job) m := by
  unfold RuntimeSession.loadDataset
  rw [safe_attempt]
  refine safe_openDataset script ready done fun reason n idle => ?_
  rw [safe_bind]
  refine safe_worker_modify (fun _ _ frame => frame.idle) idle _ fun n _ idle => ?_
  exact ⟨.inr (.single ⟨job, .published _⟩), failed reason _ (log_idle (fun _ => rfl) idle)⟩

theorem safe_runJob (ready : Ready job m) (kind : RecordingJob) (done : ∀ n, Idle n → post () n)
    (failed : ∀ reason n, Idle n → fault reason n) :
    (recordingProtocol clients).Safe .worker post fault (RuntimeSession.runJob script job kind) m := by
  cases kind with
  | loadDataset => exact safe_loadDataset script ready done failed
  | saveEpisode => exact safe_saveEpisode script ready done failed
  | discardEpisode => exact safe_discardEpisode script ready done failed
  | finalizeRecording => exact safe_finalizeRecording script ready done failed

end Jobs

/-! ### The threads -/

section Threads

variable {post : Unit → RecordingMemory → Prop} {fault : Fault → RecordingMemory → Prop}

theorem safe_worker (scripts : Nat → JobScript) (looks : Nat) (idle : Idle m) :
    (recordingProtocol clients).Safe .worker (fun _ _ => True) (fun _ _ => True)
      (RuntimeSession.worker scripts looks) m := by
  induction looks generalizing m with
  | zero => trivial
  | succ looks ih =>
    unfold RuntimeSession.worker
    rw [safe_bind]
    refine safe_worker_act (fun _ _ frame => frame.idle) idle _ fun n inv idle => ?_
    unfold takeJob
    cases queued : n.queue with
    | nil => exact ⟨.inl rfl, ih idle⟩
    | cons entry rest =>
      obtain ⟨job, kind⟩ := entry
      refine ⟨.inr (.single ⟨job, .took queued⟩), ?_⟩
      have distinct := inv.distinct
      rw [queued, List.map_cons, List.nodup_cons] at distinct
      have ready : Ready job { n with queue := rest } :=
        ⟨⟨inv.queued (job, kind) (by simp [queued]), fun entry member same =>
          distinct.1 (List.mem_map.mpr ⟨entry, member, same⟩)⟩, idle⟩
      show (recordingProtocol clients).Safe .worker _ _ (Program.attempt _ _ >>= _) _
      rw [safe_bind, safe_attempt]
      exact safe_runJob (scripts job) ready kind (fun n idle => ih idle) fun _ n idle => ih idle

theorem safe_control (inputs : List RuntimeSession.ControlInput) (m : RecordingMemory) :
    (recordingProtocol clients).Safe .control (fun _ _ => True) (fun _ _ => True)
      (RuntimeSession.control inputs) m := by
  induction inputs generalizing m with
  | nil => trivial
  | cons input rest ih =>
    unfold RuntimeSession.control
    rw [safe_bind, safe_modify]
    refine fun n _ _ => ⟨?_, rfl, ih _⟩
    cases input with
    | startRecording task => exact .inr (.inl ⟨task, rfl⟩)
    | close => exact .inr (.inr (.inr rfl))
    | tick tick =>
      show n.onTick tick = n ∨ RecordingStep .control n (n.onTick tick)
      unfold onTick
      split
      · exact .inl rfl
      · split
        · exact .inl rfl
        · exact .inr (.inr (.inl ⟨_, rfl⟩))

theorem safe_client (index : Nat) (jobs : List RecordingJob) (m : RecordingMemory) :
    (recordingProtocol clients).Safe (.client index) (fun _ _ => True) (fun _ _ => True)
      (RuntimeSession.client jobs) m := by
  induction jobs generalizing m with
  | nil => trivial
  | cons job rest ih =>
    have submits : ∀ kind m, (recordingProtocol clients).Safe (.client index) (fun _ n =>
        (recordingProtocol clients).Safe (.client index) (fun _ _ => True) (fun _ _ => True)
          (RuntimeSession.client rest) n) (fun _ _ => True) (Program.modify (submit kind) : RecordingTask Unit) m := by
      intro kind m
      rw [safe_modify]
      exact fun n _ _ => ⟨.inr ⟨kind, rfl⟩, rfl, ih _⟩
    cases job with
    | loadDataset | saveEpisode | discardEpisode =>
      show (recordingProtocol clients).Safe (.client index) _ _ (Program.modify _ >>= _) m
      rw [safe_bind]
      exact submits _ m
    | finalizeRecording =>
      show (recordingProtocol clients).Safe (.client index) _ _ (Program.read _ >>= _) m
      rw [safe_bind, safe_read]
      refine fun n _ _ => ?_
      split
      · show (recordingProtocol clients).Safe (.client index) _ _ (Program.modify _ >>= _) n
        rw [safe_bind]
        exact submits _ n
      · exact ih n

theorem recording_sound (clients : Nat) :
    (recordingProtocol clients).Sound (fun _ => (pure () : RecordingTask Unit)) fun _ _ => True where
  preserved _ _ _ step inv := inv.step step
  lasting _ _ _ _ _ := trivial
  safe _ _ entry _ := entry.elim

theorem recording_valid (session : RecordingSession) :
    (recordingProtocol session.clients.length).Valid (fun _ _ => True) session.pool where
  inv := .initial
  roster := by
    refine List.Perm.of_eq ?_
    simp only [RecordingSession.pool, recordingProtocol, List.map_cons, List.cons.injEq, true_and]
    exact List.ext_getElem (by simp) fun index _ _ => by simp
  distinct := by
    simp only [recordingProtocol, List.map_cons, List.map_map, id, List.nodup_cons, List.mem_cons, reduceCtorEq,
      List.mem_map, Function.comp, and_false, exists_false, or_self, not_false_eq_true, true_and]
    exact List.nodup_range.map fun one two same => RecordingThread.client.inj same
  safe thread member := by
    rcases List.mem_cons.mp member with rfl | member
    · exact safe_control session.inputs _
    · rcases List.mem_cons.mp member with rfl | member
      · exact safe_worker session.scripts session.looks (by simp [Idle, InCall, RecordingSession.pool])
      · obtain ⟨index, bound, rfl⟩ := List.mem_mapIdx.mp member
        exact safe_client index _ _

end Threads

theorem recording_inv (session : RecordingSession) (schedule : List Nat) :
    RecordingInv (session.run schedule).memory := by
  unfold RecordingSession.run
  exact ((recording_valid session).run (recording_sound session.clients.length) schedule).inv

end PhysicalAiStudio.Runtime.Recording
