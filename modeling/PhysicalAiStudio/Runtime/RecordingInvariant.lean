import PhysicalAiStudio.Runtime.RecordingProtocol

/-! Every action on the recording preserves its invariant. -/

set_option autoImplicit false

namespace PhysicalAiStudio.Runtime.Recording

open Concurrency RecordingMemory

variable {m n : RecordingMemory} {event : RecordingEvent} {history : List RecordingEvent} {mutation job : Nat}

theorem inCall_cons_iff (none : event.calls mutation = none) :
    InCall mutation (event :: history) ↔ InCall mutation history := by
  simp [InCall, none]

theorem tainted_cons_iff (none : event.taints mutation = none) :
    Tainted mutation (event :: history) ↔ Tainted mutation history := by
  simp [Tainted, none]

theorem unreleased_cons_iff (submits : event ≠ .submitted job) (releases : event ≠ .released job) :
    Unreleased job (event :: history) ↔ Unreleased job history := by
  simp [Unreleased, Ne.symm submits, Ne.symm releases]

theorem sinceOpened_cons (quiet : event.opens = false) :
    sinceOpened (event :: history) = event :: sinceOpened history := by
  simp [sinceOpened, quiet]

/-- An event that no part of the invariant looks at. -/
structure Quiet (event : RecordingEvent) : Prop where
  calls : ∀ mutation, event.calls mutation = none
  taints : ∀ mutation, event.taints mutation = none
  about : event.about = none
  opens : event.opens = false
  submits : ∀ job, event ≠ .submitted job
  releases : ∀ job, event ≠ .released job

theorem Quiet.of (quiet : event.isQuiet = true) : Quiet event := by
  cases event with
  | started mutation opened =>
    cases opened with
    | true => cases quiet
    | false => exact ⟨fun _ => rfl, fun _ => rfl, rfl, rfl, by simp, by simp⟩
  | frameAdded | frameRaised | ended | attached | toreDown | published =>
    exact ⟨fun _ => rfl, fun _ => rfl, rfl, rfl, by simp, by simp⟩
  | submitted | saveBegan | saveEnded | discardBegan | discardEnded | detached | released => cases quiet

theorem lawful_of_silent (reaches : event.reaches = none) (ends : ∀ job, event ≠ .ended job) :
    Lawful history event := by
  refine ⟨fun mutation reached => ?_, fun job ended => absurd ended (ends job), fun mutation frame added => ?_⟩
  · rw [reaches] at reached
    cases reached
  · rw [added] at reaches
    cases reaches

namespace RecordingInv

theorem log_quiet (inv : RecordingInv m) (quiet : Quiet event)
    (law : Always Orderly m.history → Lawful m.history event) : RecordingInv (m.log event) where
  queued entry member := (unreleased_cons_iff (quiet.submits _) (quiet.releases _)).mpr (inv.queued entry member)
  distinct := inv.distinct
  numbered job member := by
    simp only [log, List.mem_cons, (quiet.submits job).symm, (quiet.releases job).symm, false_or] at member
    exact inv.numbered job member
  attached := inv.attached
  fresh mutation late := by
    refine ⟨(inv.fresh mutation late).1, fun one member => ?_⟩
    rcases List.mem_cons.mp member with rfl | member
    · simp [quiet.about]
    · exact (inv.fresh mutation late).2 one member
  opened := inv.opened
  calling mutation inCall := by
    obtain ⟨held, job, running⟩ := inv.calling mutation ((inCall_cons_iff (quiet.calls mutation)).mp inCall)
    exact ⟨held, job, (unreleased_cons_iff (quiet.submits job) (quiet.releases job)).mpr running⟩
  since orderly recording job running := by
    rw [log, sinceOpened_cons quiet.opens]
    have before := (unreleased_cons_iff (quiet.submits job) (quiet.releases job)).mp running
    exact List.mem_cons_of_mem event (inv.since orderly.2 recording job before)
  stopped orderly mutation held bad := by
    refine inv.stopped orderly.2 mutation held ?_
    rwa [log, inCall_cons_iff (quiet.calls mutation), tainted_cons_iff (quiet.taints mutation)] at bad
  frames orderly := inv.frames orderly.2
  lawful orderly := ⟨law orderly.2, inv.lawful orderly.2⟩

/-- A section that keeps the mutation and opens no episode. -/
theorem setRecording (inv : RecordingInv m) (recording : RecordingState)
    (same : recording.mutation = m.recording.mutation)
    (shut : recording.isRecording = true → m.recording.isRecording = true) :
    RecordingInv { m with recording := recording } where
  queued := inv.queued
  distinct := inv.distinct
  numbered := inv.numbered
  attached mutation held := inv.attached mutation (same ▸ held)
  fresh := inv.fresh
  opened recorded := same ▸ inv.opened (shut recorded)
  calling mutation inCall := by
    obtain ⟨held, job, running⟩ := inv.calling mutation inCall
    exact ⟨same.trans held, job, running⟩
  since orderly recorded := inv.since orderly (shut recorded)
  stopped orderly mutation held bad := by
    have stopped := inv.stopped orderly mutation (same ▸ held) bad
    by_contra recorded
    rw [shut (by simpa using recorded)] at stopped
    cases stopped
  frames orderly := by
    have frames := inv.frames orderly
    unfold FramesSettled pending at frames ⊢
    rwa [same]
  lawful := inv.lawful

/-! ### The control thread and the clients -/

theorem close (inv : RecordingInv m) : RecordingInv m.close :=
  inv.setRecording m.recording.close rfl id

theorem startRecording (inv : RecordingInv m) (task : String) : RecordingInv (m.handleStartRecording task) := by
  unfold handleStartRecording RecordingState.start
  by_cases refused : m.recording.mutation = none ∨ m.recording.closed
  · rw [if_pos refused]
    exact inv.log_quiet (.of rfl)
      fun _ => lawful_of_silent rfl (by simp)
  · rw [if_neg refused]
    cases recorded : m.recording.isRecording with
    | true =>
      have next := inv.setRecording { m.recording with task := some task, isRecording := true }
        rfl fun _ => recorded
      exact next.log_quiet (.of rfl)
        fun _ => lawful_of_silent rfl (by simp)
    | false =>
      -- An episode is opened: an orderly history leaves no job to end it and no failed save behind.
      have quiet : ∀ job, Unreleased job (.started m.recording.mutation true :: m.history) ↔
          Unreleased job m.history := fun job => unreleased_cons_iff (by simp) (by simp)
      refine
        { queued := fun entry member => (quiet _).mpr (inv.queued entry member)
          distinct := inv.distinct
          numbered := fun job member => inv.numbered job (by simpa [log] using member)
          attached := inv.attached
          fresh := fun mutation late => ⟨(inv.fresh mutation late).1, fun event member => ?_⟩
          opened := fun _ => fun none => refused (.inl none)
          calling := fun mutation inCall => ?_
          since := fun orderly _ job running => ?_
          stopped := fun orderly mutation held bad => ?_
          frames := fun orderly => inv.frames orderly.2
          lawful := fun orderly => ⟨lawful_of_silent rfl (by simp), inv.lawful orderly.2⟩ }
      · rcases List.mem_cons.mp member with rfl | member
        · simp [RecordingEvent.about]
        · exact (inv.fresh mutation late).2 event member
      · obtain ⟨held, job, running⟩ := inv.calling mutation ((inCall_cons_iff rfl).mp inCall)
        exact ⟨held, job, (quiet job).mpr running⟩
      · exact absurd ((quiet job).mp running) ((orderly.1.1 _ rfl).1 job)
      · obtain ⟨released, clean⟩ := orderly.1.1 _ rfl
        rcases bad with inCall | tainted
        · obtain ⟨-, job, running⟩ := inv.calling mutation ((inCall_cons_iff rfl).mp inCall)
          exact absurd running (released job)
        · exact absurd ((tainted_cons_iff rfl).mp tainted) (clean mutation held)

theorem target_eq {recording : RecordingState} (target : recording.target = some mutation) :
    recording.mutation = some mutation ∧ recording.isRecording = true := by
  unfold RecordingState.target at target
  split at target
  · cases target
  · rename_i accepts
    simp only [not_or, Decidable.not_not] at accepts
    exact ⟨target, accepts.2.1⟩

theorem addFrame (inv : RecordingInv m) (raises : Bool) : RecordingInv (m.addFrame raises) := by
  unfold RecordingMemory.addFrame
  cases target : m.recording.target with
  | none => exact inv
  | some mutation =>
    obtain ⟨held, recorded⟩ := target_eq target
    -- While the flag is set, the attached mutation is neither saving nor left with frames of a failed save.
    have clear : Always Orderly m.history → ¬ InCall mutation m.history ∧ ¬ Tainted mutation m.history := by
      intro orderly
      rw [← not_or]
      intro bad
      rw [inv.stopped orderly mutation held bad] at recorded
      cases recorded
    cases raises with
    | true =>
      refine inv.log_quiet (.of rfl) fun orderly => ?_
      refine ⟨?_, fun job ended => (by cases ended), fun _ _ added => (by cases added)⟩
      rintro _ ⟨⟩
      exact (clear orderly).1
    | false =>
      have added : RecordingInv (m.log (.frameAdded mutation m.frames)) :=
        inv.log_quiet (.of rfl) fun orderly => by
          refine ⟨?_, fun job ended => (by cases ended), ?_⟩
          · rintro _ ⟨⟩
            exact (clear orderly).1
          · rintro _ _ ⟨⟩
            exact (clear orderly).2
      exact
        { queued := added.queued
          distinct := added.distinct
          numbered := added.numbered
          attached := added.attached
          fresh := fun other late => by
            have early := inv.attached mutation held
            have late : m.mutations ≤ other := late
            refine ⟨?_, (added.fresh other late).2⟩
            rw [← (inv.fresh other late).1]
            exact Function.update_of_ne (by rintro rfl; omega) _ _
          opened := added.opened
          calling := added.calling
          since := added.since
          stopped := added.stopped
          frames := fun orderly => by
            have frames := inv.frames orderly.2
            unfold FramesSettled pending at frames ⊢
            rw [held] at frames
            simp only [log, Bool.false_eq_true, if_false, held, Option.elim_some, Function.update_self,
              List.range_succ, ← List.append_assoc] at frames ⊢
            exact frames.append_right _
          lawful := added.lawful }

theorem submit (inv : RecordingInv m) (kind : RecordingJob) : RecordingInv (m.submit kind) := by
  have unnumbered : ∀ job, .submitted job ∈ m.history ∨ .released job ∈ m.history → job ≠ m.jobs := by
    rintro job member rfl
    exact absurd (inv.numbered m.jobs member) (by omega)
  have older : ∀ job, Unreleased job m.history → Unreleased job (.submitted m.jobs :: m.history) :=
    fun job running => ⟨List.mem_cons_of_mem _ running.1, by simpa using running.2⟩
  have newer : ∀ job, Unreleased job (.submitted m.jobs :: m.history) → job = m.jobs ∨ Unreleased job m.history := by
    rintro job ⟨submitted, released⟩
    rcases List.mem_cons.mp submitted with same | submitted
    · exact .inl (RecordingEvent.submitted.inj same)
    · exact .inr ⟨submitted, fun member => released (List.mem_cons_of_mem _ member)⟩
  -- Everything but the new job is as before; the job is unreleased, and was submitted since the episode was opened.
  refine
    { queued := fun entry member => ?_
      distinct := ?_
      numbered := fun job member => ?_
      attached := inv.attached
      fresh := fun mutation late => ⟨(inv.fresh mutation late).1, fun event member => ?_⟩
      opened := inv.opened
      calling := fun mutation inCall => ?_
      since := fun orderly recorded job running => ?_
      stopped := fun orderly mutation held bad => ?_
      frames := fun orderly => inv.frames orderly.2
      lawful := fun orderly => ⟨lawful_of_silent rfl (by simp), inv.lawful orderly.2⟩ }
  · rcases List.mem_append.mp member with member | member
    · exact older _ (inv.queued entry member)
    · rw [List.mem_singleton.mp member]
      refine ⟨List.mem_cons_self, fun released => ?_⟩
      exact unnumbered m.jobs (.inr (by simpa [RecordingMemory.submit, log] using released)) rfl
  · simp only [RecordingMemory.submit, log, List.map_append, List.map_cons, List.map_nil]
    refine List.nodup_append.mpr ⟨inv.distinct, by simp, ?_⟩
    rintro job member _ new rfl
    obtain ⟨entry, queued, rfl⟩ := List.mem_map.mp member
    exact unnumbered _ (.inl (inv.queued entry queued).1) (by simpa using new)
  · simp only [RecordingMemory.submit, log, List.mem_cons, RecordingEvent.submitted.injEq, reduceCtorEq,
      false_or] at member ⊢
    rcases member with (rfl | submitted) | released
    · omega
    · exact Nat.lt_succ_of_lt (inv.numbered job (.inl submitted))
    · exact Nat.lt_succ_of_lt (inv.numbered job (.inr released))
  · rcases List.mem_cons.mp member with rfl | member
    · simp [RecordingEvent.about]
    · exact (inv.fresh mutation late).2 event member
  · obtain ⟨held, job, running⟩ := inv.calling mutation ((inCall_cons_iff rfl).mp inCall)
    exact ⟨held, job, older job running⟩
  · show .submitted job ∈ sinceOpened (.submitted m.jobs :: m.history)
    rw [sinceOpened_cons rfl]
    rcases newer job running with rfl | running
    · exact List.mem_cons_self
    · exact List.mem_cons_of_mem _ (inv.since orderly.2 recorded job running)
  · refine inv.stopped orderly.2 mutation held ?_
    exact bad.imp (inCall_cons_iff rfl).mp (tainted_cons_iff rfl).mp

/-! ### The worker -/

theorem took (inv : RecordingInv m) {entry : Nat × RecordingJob} {rest : List (Nat × RecordingJob)}
    (queued : m.queue = entry :: rest) : RecordingInv { m with queue := rest } where
  queued other member := inv.queued other (queued ▸ List.mem_cons_of_mem entry member)
  distinct := by
    have distinct := inv.distinct
    rw [queued, List.map_cons, List.nodup_cons] at distinct
    exact distinct.2
  numbered := inv.numbered
  attached := inv.attached
  fresh := inv.fresh
  opened := inv.opened
  calling := inv.calling
  since := inv.since
  stopped := inv.stopped
  frames := inv.frames
  lawful := inv.lawful

theorem locked (inv : RecordingInv m) (change : RecordingState → RecordingState)
    (same : (change m.recording).mutation = m.recording.mutation)
    (clears : (change m.recording).isRecording = false) (running : Unreleased job m.history) :
    RecordingInv (m.locked job change) := by
  have next := inv.setRecording _ same fun recorded => absurd recorded (by simp [clears])
  unfold RecordingMemory.locked
  split
  · rename_i ends
    refine next.log_quiet (.of rfl) fun orderly => ?_
    refine ⟨fun _ reached => (by cases reached), ?_, fun _ _ added => (by cases added)⟩
    rintro _ ⟨⟩
    exact inv.since orderly ends.1 job running
  · exact next

/-- The mutation is taken away once no episode is open. -/
theorem detach (inv : RecordingInv m) {recording : RecordingState} (none : recording.mutation = none)
    (shut : recording.isRecording = false) (idle : ∀ mutation, ¬ InCall mutation m.history)
    (held : m.recording.mutation = some mutation) :
    RecordingInv ({ m with recording := recording }.log (.detached mutation (m.buffers mutation))) where
  queued entry member := (unreleased_cons_iff (by simp) (by simp)).mpr (inv.queued entry member)
  distinct := inv.distinct
  numbered job member := inv.numbered job (by simpa [log] using member)
  attached other attached := by simp [log, none] at attached
  fresh other late := by
    refine ⟨(inv.fresh other late).1, fun event member => ?_⟩
    rcases List.mem_cons.mp member with rfl | member
    · have early := inv.attached mutation held
      have late : m.mutations ≤ other := late
      simp only [RecordingEvent.about, ne_eq, Option.some.injEq]
      omega
    · exact (inv.fresh other late).2 event member
  opened recorded := by simp [log, shut] at recorded
  calling other inCall := absurd ((inCall_cons_iff rfl).mp inCall) (idle other)
  since _ recorded := by simp [log, shut] at recorded
  stopped _ _ _ _ := shut
  frames orderly := by
    have frames := inv.frames orderly.2
    have empty : m.buffers mutation = [] := orderly.1.2 _ _ rfl
    unfold FramesSettled pending at frames ⊢
    rw [held, Option.elim_some, empty] at frames
    simpa only [log, none, Option.elim_none] using frames
  lawful orderly := ⟨lawful_of_silent rfl (by simp), inv.lawful orderly.2⟩

theorem detached (inv : RecordingInv m) (running : Unreleased job m.history)
    (idle : ∀ mutation, ¬ InCall mutation m.history) : RecordingInv (m.takeMutation job).2 := by
  unfold RecordingMemory.takeMutation
  cases held : m.recording.mutation with
  | none =>
    exact inv.locked (fun recording => recording.takeMutation.2) held.symm rfl running
  | some mutation =>
    have cleared := inv.locked (fun recording => { recording with isRecording := false }) rfl rfl running
    by_cases recorded : m.recording.isRecording = true
    · simp only [RecordingMemory.locked, recorded, RecordingState.takeMutation, Bool.false_eq_true, not_false_eq_true,
        and_self, if_true] at cleared ⊢
      refine cleared.detach rfl rfl (fun other inCall => idle other ((inCall_cons_iff rfl).mp inCall)) held
    · simp only [RecordingMemory.locked, recorded, RecordingState.takeMutation, Bool.false_eq_true, false_and,
        if_false] at cleared ⊢
      exact cleared.detach rfl rfl idle held

theorem released (inv : RecordingInv m) (running : Unreleased job m.history)
    (unqueued : ∀ entry ∈ m.queue, entry.1 ≠ job) (idle : ∀ mutation, ¬ InCall mutation m.history) :
    RecordingInv (m.release job) := by
  have older : ∀ other, Unreleased other (.released job :: m.history) → Unreleased other m.history :=
    fun other open_ => ⟨by simpa using open_.1, fun member => open_.2 (List.mem_cons_of_mem _ member)⟩
  -- No call is under way when a job is past its last one, so releasing it takes no call from anyone.
  refine
    { queued := fun entry member => ?_
      distinct := inv.distinct
      numbered := fun other member => ?_
      attached := inv.attached
      fresh := fun mutation late => ⟨(inv.fresh mutation late).1, fun event member => ?_⟩
      opened := inv.opened
      calling := fun mutation inCall => absurd ((inCall_cons_iff rfl).mp inCall) (idle mutation)
      since := fun orderly recorded other open_ => ?_
      stopped := fun orderly mutation held bad => ?_
      frames := fun orderly => inv.frames orderly.2
      lawful := fun orderly => ⟨lawful_of_silent rfl (by simp), inv.lawful orderly.2⟩ }
  · obtain ⟨submitted, open_⟩ := inv.queued entry member
    refine ⟨List.mem_cons_of_mem _ submitted, ?_⟩
    simpa [RecordingMemory.release, log, open_] using unqueued entry member
  · rcases member with submitted | released
    · exact inv.numbered other (.inl (by simpa [RecordingMemory.release, log] using submitted))
    · rcases List.mem_cons.mp released with same | released
      · cases same
        exact inv.numbered job (.inl running.1)
      · exact inv.numbered other (.inr released)
  · rcases List.mem_cons.mp member with rfl | member
    · simp [RecordingEvent.about]
    · exact (inv.fresh mutation late).2 event member
  · show .submitted other ∈ sinceOpened (.released job :: m.history)
    rw [sinceOpened_cons rfl]
    exact List.mem_cons_of_mem _ (inv.since orderly.2 recorded other (older other open_))
  · refine inv.stopped orderly.2 mutation held ?_
    exact bad.imp (inCall_cons_iff rfl).mp (tainted_cons_iff rfl).mp

theorem attach (inv : RecordingInv m) (recording : RecordingState) (new : recording.mutation = some m.mutations)
    (shut : recording.isRecording = false) (idle : ∀ mutation, ¬ InCall mutation m.history)
    (none : m.recording.mutation = none) :
    RecordingInv ({ m with mutations := m.mutations + 1, recording := recording }.log (.attached m.mutations)) where
  queued entry member := (unreleased_cons_iff (by simp) (by simp)).mpr (inv.queued entry member)
  distinct := inv.distinct
  numbered job member := inv.numbered job (by simpa [log] using member)
  attached other attached := by
    cases new.symm.trans attached
    exact Nat.lt_succ_self _
  fresh other late := by
    have earlier : m.mutations ≤ other := Nat.le_of_succ_le late
    refine ⟨(inv.fresh other earlier).1, fun event member => ?_⟩
    rcases List.mem_cons.mp member with rfl | member
    · simp [RecordingEvent.about]
    · exact (inv.fresh other earlier).2 event member
  opened recorded := by simp [log, shut] at recorded
  calling other inCall := absurd ((inCall_cons_iff rfl).mp inCall) (idle other)
  since _ recorded := by simp [log, shut] at recorded
  stopped _ _ _ _ := shut
  frames orderly := by
    have frames := inv.frames orderly.2
    have empty := (inv.fresh m.mutations le_rfl).1
    unfold FramesSettled pending at frames ⊢
    rw [none, Option.elim_none] at frames
    simpa only [log, new, Option.elim_some, empty] using frames
  lawful orderly := ⟨lawful_of_silent rfl (by simp), inv.lawful orderly.2⟩

theorem attachMutation (inv : RecordingInv m) (running : Unreleased job m.history)
    (unqueued : ∀ entry ∈ m.queue, entry.1 ≠ job) (idle : ∀ mutation, ¬ InCall mutation m.history)
    (none : m.recording.mutation = none) : RecordingInv (m.attachMutation job) := by
  have shut : m.recording.isRecording = false := by
    by_contra recorded
    exact inv.opened (by simpa using recorded) none
  have next := inv.attach (m.recording.attachMutation m.mutations) rfl rfl idle none
  have same : m.attachMutation job = ({ m with
      mutations := m.mutations + 1, recording := m.recording.attachMutation m.mutations }.log
        (.attached m.mutations)).release job := by
    simp [RecordingMemory.attachMutation, RecordingMemory.locked, shut]
  rw [same]
  exact next.released ((unreleased_cons_iff (by simp) (by simp)).mpr running) unqueued
    fun other inCall => idle other ((inCall_cons_iff rfl).mp inCall)

theorem about_cons (inv : RecordingInv m) (held : m.recording.mutation = some mutation)
    (about : event.about = some mutation) {other : Nat} (late : m.mutations ≤ other) :
    ∀ one ∈ event :: m.history, one.about ≠ some other := by
  intro one member
  rcases List.mem_cons.mp member with rfl | member
  · have early := inv.attached mutation held
    rw [about, ne_eq, Option.some.injEq]
    omega
  · exact (inv.fresh other late).2 one member

theorem began (inv : RecordingInv m) (call : event = .saveBegan mutation ∨ event = .discardBegan mutation)
    (running : Unreleased job m.history) (held : m.recording.mutation = some mutation)
    (shut : Always Orderly m.history → m.recording.isRecording = false) : RecordingInv (m.log event) := by
  have quiet : ∀ other, Unreleased other (event :: m.history) ↔ Unreleased other m.history := by
    intro other
    rcases call with rfl | rfl <;> exact unreleased_cons_iff (by simp) (by simp)
  -- The only call that is new is that of the mutation; it begins with the flag cleared.
  have calls : ∀ other, InCall other (event :: m.history) → other = mutation ∨ InCall other m.history := by
    intro other inCall
    by_cases same : other = mutation
    · exact .inl same
    · refine .inr ((inCall_cons_iff ?_).mp inCall)
      rcases call with rfl | rfl <;> simp [RecordingEvent.calls, Ne.symm same]
  have opens : event.opens = false := by rcases call with rfl | rfl <;> rfl
  have taints : ∀ other, event.taints other = none := by rcases call with rfl | rfl <;> exact fun _ => rfl
  refine
    { queued := fun entry member => (quiet _).mpr (inv.queued entry member)
      distinct := inv.distinct
      numbered := fun other member => inv.numbered other ?_
      attached := inv.attached
      fresh := fun other late => ⟨(inv.fresh other late).1, inv.about_cons held ?_ late⟩
      opened := inv.opened
      calling := fun other inCall => ?_
      since := fun orderly recorded other open_ => ?_
      stopped := fun orderly other attached bad => shut orderly.2
      frames := fun orderly => inv.frames orderly.2
      lawful := fun orderly => ⟨?_, inv.lawful orderly.2⟩ }
  · rcases call with rfl | rfl <;> simpa [log] using member
  · rcases call with rfl | rfl <;> rfl
  · rcases calls other inCall with rfl | before
    · exact ⟨held, job, (quiet job).mpr running⟩
    · obtain ⟨attached, running_job, open_⟩ := inv.calling other before
      exact ⟨attached, running_job, (quiet _).mpr open_⟩
  · rw [log, sinceOpened_cons opens]
    exact List.mem_cons_of_mem _ (inv.since orderly.2 recorded other ((quiet other).mp open_))
  · rcases call with rfl | rfl <;> exact lawful_of_silent rfl (by simp)

theorem ended (inv : RecordingInv m) (event : RecordingEvent) {after : RecordingMemory}
    (calls : ∀ other, event.calls other = if mutation = other then some false else none)
    (about : event.about = some mutation) (silent : event.reaches = none) (opens : event.opens = false)
    (unlike : ∀ other, event ≠ .submitted other ∧ event ≠ .released other ∧ event ≠ .ended other ∧
      (∀ opened, event ≠ .started opened true) ∧ ∀ buffer, event ≠ .detached other buffer)
    (history : after.history = event :: m.history) (recording : after.recording = m.recording)
    (jobs : after.queue = m.queue ∧ after.jobs = m.jobs ∧ after.mutations = m.mutations)
    (buffers : ∀ other, m.buffers other = [] → after.buffers other = [])
    (held : m.recording.mutation = some mutation)
    (stopped : Always Orderly m.history → Tainted mutation (event :: m.history) →
      m.recording.isRecording = false)
    (frames : m.FramesSettled → after.FramesSettled) : RecordingInv after := by
  have quiet : ∀ other, Unreleased other (event :: m.history) ↔ Unreleased other m.history :=
    fun other => unreleased_cons_iff (unlike other).1 (unlike other).2.1
  -- Calls of other mutations go on, if there were any.
  have apart : ∀ other, InCall other (event :: m.history) → other ≠ mutation ∧ InCall other m.history := by
    intro other inCall
    by_cases same : mutation = other
    · simp [InCall, calls, same] at inCall
    · exact ⟨Ne.symm same, (inCall_cons_iff (by rw [calls, if_neg same])).mp inCall⟩
  refine
    { queued := fun entry member => ?_
      distinct := jobs.1 ▸ inv.distinct
      numbered := fun other member => ?_
      attached := fun other attached => ?_
      fresh := fun other late => ?_
      opened := fun recorded => ?_
      calling := fun other inCall => ?_
      since := fun orderly recorded other open_ => ?_
      stopped := fun orderly other attached bad => ?_
      frames := fun orderly => frames (inv.frames ?_)
      lawful := fun orderly => ?_ }
  · rw [history]
    exact (quiet _).mpr (inv.queued entry (jobs.1 ▸ member))
  · rw [history] at member
    rw [jobs.2.1]
    refine inv.numbered other ?_
    simpa [(unlike other).1.symm, (unlike other).2.1.symm] using member
  · rw [jobs.2.2]
    exact inv.attached other (recording ▸ attached)
  · rw [jobs.2.2] at late
    rw [history]
    exact ⟨buffers other (inv.fresh other late).1, inv.about_cons held about late⟩
  · rw [recording] at recorded ⊢
    exact inv.opened recorded
  · rw [history] at inCall ⊢
    obtain ⟨attached, running, open_⟩ := inv.calling other (apart other inCall).2
    exact ⟨recording ▸ attached, running, (quiet running).mpr open_⟩
  · rw [history] at orderly open_ ⊢
    rw [recording] at recorded
    rw [sinceOpened_cons opens]
    exact List.mem_cons_of_mem _ (inv.since orderly.2 recorded other ((quiet other).mp open_))
  · rw [history] at orderly bad
    rw [recording] at attached ⊢
    cases held.symm.trans attached
    rcases bad with inCall | tainted
    · exact absurd rfl (apart mutation inCall).1
    · exact stopped orderly.2 tainted
  · rw [history] at orderly
    exact orderly.2
  · rw [history] at orderly ⊢
    exact ⟨lawful_of_silent silent fun other => (unlike other).2.2.1, inv.lawful orderly.2⟩

theorem failed (inv : RecordingInv m)
    (call : event = .saveEnded mutation false ∨ event = .discardEnded mutation false)
    (held : m.recording.mutation = some mutation) (inCall : InCall mutation m.history) :
    RecordingInv (m.log event) := by
  have shut : Always Orderly m.history → m.recording.isRecording = false :=
    fun orderly => inv.stopped orderly mutation held (.inl inCall)
  rcases call with rfl | rfl
  · exact inv.ended _ (fun _ => rfl) rfl rfl rfl (by simp) rfl rfl ⟨rfl, rfl, rfl⟩ (fun _ => id) held
      (fun orderly _ => shut orderly) id
  · exact inv.ended _ (fun _ => rfl) rfl rfl rfl (by simp) rfl rfl ⟨rfl, rfl, rfl⟩ (fun _ => id) held
      (fun orderly _ => shut orderly) id

theorem update_empty {buffers : Nat → List Nat} {other : Nat} (empty : buffers other = []) :
    Function.update buffers mutation [] other = [] := by
  by_cases same : other = mutation
  · rw [same, Function.update_self]
  · rw [Function.update_of_ne same, empty]

theorem saved (inv : RecordingInv m) (held : m.recording.mutation = some mutation) :
    RecordingInv (m.saveBuffer mutation) := by
  refine inv.ended (.saveEnded mutation true) (fun _ => rfl) rfl rfl rfl (by simp) rfl rfl ⟨rfl, rfl, rfl⟩
    (fun _ => update_empty) held (fun orderly tainted => ?_) fun frames => ?_
  · exact inv.stopped orderly mutation held (.inr ((tainted_cons_iff rfl).mp tainted))
  · unfold FramesSettled pending at frames ⊢
    simp only [saveBuffer, log, held, Option.elim_some, Function.update_self, List.append_nil, List.flatten_cons] at frames ⊢
    refine List.Perm.trans ?_ frames
    rw [List.append_assoc]
    exact List.perm_append_comm.trans (by simp)

theorem discarded (inv : RecordingInv m) (held : m.recording.mutation = some mutation) :
    RecordingInv (m.discardBuffer mutation) := by
  refine inv.ended (.discardEnded mutation true) (fun _ => rfl) rfl rfl rfl (by simp) rfl rfl ⟨rfl, rfl, rfl⟩
    (fun _ => update_empty) held (fun orderly tainted => ?_) fun frames => ?_
  · simp [Tainted, RecordingEvent.taints] at tainted
  · unfold FramesSettled pending at frames ⊢
    simp only [discardBuffer, log, held, Option.elim_some, Function.update_self, List.append_nil,
      List.flatten_cons, List.append_assoc] at frames ⊢
    exact (List.Perm.append_left _ List.perm_append_comm).trans frames

theorem worker (inv : RecordingInv m) (action : WorkerAction job m n) : RecordingInv n := by
  cases action with
  | took queued => exact inv.took queued
  | cleared change same clears running => exact inv.locked change same clears running
  | detached running idle => exact inv.detached running idle
  | attached running unqueued idle none => exact inv.attachMutation running unqueued idle none
  | began call running held shut => exact inv.began call running held shut
  | failed call held inCall => exact inv.failed call held inCall
  | saved held => exact inv.saved held
  | discarded held => exact inv.discarded held
  | released running unqueued idle => exact inv.released running unqueued idle
  | toreDown mutation | published event =>
    exact inv.log_quiet (.of rfl) fun _ => lawful_of_silent rfl (by simp)

theorem step (inv : RecordingInv m) {thread : RecordingThread} (step : RecordingStep thread m n) : RecordingInv n := by
  cases thread with
  | control =>
    rcases step with ⟨task, rfl⟩ | ⟨raises, rfl⟩ | rfl
    · exact inv.startRecording task
    · exact inv.addFrame raises
    · exact inv.close
  | client index =>
    obtain ⟨kind, rfl⟩ := step
    exact inv.submit kind
  | worker =>
    induction step with
    | refl => exact inv
    | tail _ action ih =>
      obtain ⟨job, action⟩ := action
      exact ih.worker action

theorem initial : RecordingInv {} where
  queued := by simp
  distinct := by simp
  numbered := by simp
  attached := by simp
  fresh := by simp
  opened := by simp
  calling := by simp [InCall]
  since := by simp
  stopped := by simp
  frames _ := by simp [FramesSettled, pending]
  lawful _ := trivial

end RecordingInv

end PhysicalAiStudio.Runtime.Recording
