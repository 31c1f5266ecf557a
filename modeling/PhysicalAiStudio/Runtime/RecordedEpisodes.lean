import PhysicalAiStudio.Runtime.RecordingSafety

/-! Where the frames of a recording end up.

A save clears the recording flag, encodes outside the lock and only then marks
the episode as saved, so what holds of the frames depends on when the next
episode is opened.
-/

set_option autoImplicit false

namespace PhysicalAiStudio.Runtime.Recording

open Concurrency

/-- In every run in which episodes are opened and mutations detached in order, no frame reaches a mutation during a
save or discard or after a failed save, an episode is ended by a later job only, and every accepted frame is in
exactly one saved or discarded episode or still in the attached buffer. -/
theorem orderly_recordings_settle (session : RecordingSession) (schedule : List Nat)
    (orderly : Always Orderly (session.run schedule).memory.history) :
    Always Lawful (session.run schedule).memory.history ∧ (session.run schedule).memory.FramesSettled := by
  have inv := recording_inv session schedule
  exact ⟨inv.lawful orderly, inv.frames orderly⟩

def savedEpisode : RecordingSession where
  inputs := [.startRecording "pick", .tick { followerSource := .teleop }]
  clients := [[.loadDataset, .saveEpisode]]
  looks := 2

/-- The dataset is loaded, the episode recorded, and then saved. -/
def saveAfterwards : List Nat := [2, 1, 1, 1, 0, 0, 2, 1, 1, 1, 1, 1]

def restartedEpisode : RecordingSession where
  inputs := [.startRecording "pick", .startRecording "pick", .tick { followerSource := .teleop }]
  clients := [[.loadDataset, .saveEpisode]]
  looks := 2

def restartDuringSave : List Nat := [2, 1, 1, 1, 0, 2, 1, 1, 1, 0, 0]

theorem saved_episode_settles :
    Always Lawful (savedEpisode.run saveAfterwards).memory.history ∧
      (savedEpisode.run saveAfterwards).memory.FramesSettled := by
  have history : (savedEpisode.run saveAfterwards).memory.history =
      [.released 1, .saveEnded 0 true, .saveBegan 0, .ended 1, .submitted 1, .frameAdded 0 0,
        .started (some 0) true, .released 0, .attached 0, .submitted 0] := by
    decide +kernel
  refine orderly_recordings_settle savedEpisode saveAfterwards ?_
  rw [history]
  simp [Orderly, Unreleased, Tainted, RecordingEvent.taints]

/-- The frame of an episode started during a save reaches the mutation that is saving. -/
theorem restart_writes_during_save :
    ¬ ∀ (session : RecordingSession) (schedule : List Nat),
      Always Lawful (session.run schedule).memory.history ∧ (session.run schedule).memory.FramesSettled := by
  intro every
  have lawful := (every restartedEpisode restartDuringSave).1
  have history : (restartedEpisode.run restartDuringSave).memory.history =
      [.frameAdded 0 0, .started (some 0) true, .saveBegan 0, .ended 1, .submitted 1, .started (some 0) true,
        .released 0, .attached 0, .submitted 0] := by
    decide +kernel
  rw [history] at lawful
  exact lawful.1.1 0 rfl (by simp [InCall, RecordingEvent.calls])
end PhysicalAiStudio.Runtime.Recording
