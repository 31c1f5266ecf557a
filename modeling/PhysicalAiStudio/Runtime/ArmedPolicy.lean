import PhysicalAiStudio.Runtime.HoldLatch

/-! Which arming put a policy in charge of the arm, and which armings are void.

An arming is live from its start until it is cancelled, fails or is replaced, and
only a live arming switches the source to its policy.
-/

set_option autoImplicit false

namespace PhysicalAiStudio.Runtime

open Concurrency

/-! ## The arming behind a switch -/

def runningTask : List Event → Option String
  | [] => none
  | .switched _ _ :: older => publishedTask older
  | _ :: older => runningTask older

/-- The source entered its mode by an arming of this policy, with this task, that began after
the policy was attached and was not cancelled before it completed. -/
def Completed (source : PolicySource) (task : Option String) (history : List Event) : Prop :=
  ∃ later generation previous between background before,
    history = later ++ .switched generation previous :: (between ++ .armed generation source task background :: before) ∧
      (∀ event ∈ later, event.mode = none) ∧ (∀ event ∈ between, event.arming = none) ∧ WasAttached source before

theorem liveArming_split {history : List Event} {generation : Nat} {source : PolicySource} {task : Option String}
    (live : liveArming history = some (generation, source, task)) :
    ∃ between background before, history = between ++ .armed generation source task background :: before ∧
      (∀ event ∈ between, event.arming = none) ∧ publishedTask history = task := by
  obtain ⟨between, event, before, rfl, told, quiet⟩ :=
    List.findSome?_eq_some_iff.mp (Option.join_eq_some_iff.mp live)
  have armed : ∃ background, event = .armed generation source task background := by
    cases event <;> simp [Event.arming] at told
    obtain ⟨rfl, rfl, rfl⟩ := told
    exact ⟨_, rfl⟩
  obtain ⟨background, rfl⟩ := armed
  refine ⟨between, background, before, rfl, quiet, ?_⟩
  have silent : between.findSome? Event.task = none := List.findSome?_eq_none_iff.mpr fun event member => by
    have := quiet event member
    cases event <;> first | rfl | simp [Event.arming] at this
  rw [publishedTask, List.findSome?_append, silent]
  rfl

def ArmedAttached (older : List Event) : Event → Prop
  | .armed _ source _ _ => WasAttached source older
  | _ => True

/-- The action of a policy is sent only on behalf of a completed arming with the published task. -/
def Driven (older : List Event) : Event → Prop
  | .returned (.policy source _) _ => Completed source (publishedTask older) older
  | _ => True

def Uncut (older : List Event) : Event → Prop
  | .attached _ _ mode => mode ≠ .policy
  | .warmupFailed _ mode => mode = .policy → publishedTask older = runningTask older
  | .cancelled .loadModel mode live => mode = .policy → live → publishedTask older = runningTask older
  | _ => True

structure DrivenInv (s : SourceState) : Prop where
  ran : s.followerSource = .policy → ∀ source, s.policy = some source → Completed source (runningTask s.history) s.history
  same : s.followerSource = .policy → s.policy.isSome → withdrawn s.history = false → s.arming = false →
    publishedTask s.history = runningTask s.history
  inferred : ∀ source action, .inferred source action ∈ currentTick s.history → s.followerSource = .policy →
    Completed source (publishedTask s.history) s.history
  driven : Always Driven s.history

theorem Completed.cons {source : PolicySource} {task : Option String} {history : List Event} {event : Event}
    (completed : Completed source task history) (stays : event.mode = none) : Completed source task (event :: history) := by
  obtain ⟨later, generation, previous, between, background, before, rfl, still, quiet, attached⟩ := completed
  refine ⟨event :: later, generation, previous, between, background, before, rfl, fun e member => ?_, quiet, attached⟩
  rcases List.mem_cons.mp member with rfl | old
  · exact stays
  · exact still e old

theorem Completed.armed {source : PolicySource} {task : Option String} {history : List Event}
    (completed : Completed source task history) :
    ∃ generation background, .armed generation source task background ∈ history := by
  obtain ⟨later, generation, previous, between, background, before, rfl, -, -, -⟩ := completed
  exact ⟨generation, background, by simp⟩

theorem runningTask_cons {event : Event} {older : List Event} (stays : event.mode = none) :
    runningTask (event :: older) = runningTask older := by
  cases event <;> first | rfl | cases stays

namespace DrivenInv

variable {rig : Rig} {s t : SourceState} {event : Event}

theorem quiet (inv : DrivenInv s) (history : t.history = event :: s.history)
    (fields : (t.followerSource, t.policy, t.arming) = (s.followerSource, s.policy, s.arming))
    (still : event.mode = none ∧ event.task = none ∧ event.withdraws = none)
    (noInference : ∀ source action, event ≠ .inferred source action) (sound : Driven s.history event) : DrivenInv t := by
  obtain ⟨mode, policy, arming⟩ := by simpa only [Prod.mk.injEq] using fields
  obtain ⟨noMode, noTask, noWithdraw⟩ := still
  have published : publishedTask t.history = publishedTask s.history := by simp [history, noTask]
  have running : runningTask t.history = runningTask s.history := by rw [history, runningTask_cons noMode]
  refine ⟨fun inPolicy source attached => ?_, fun inPolicy loaded standing idle => ?_,
    fun source action inside inPolicy => ?_, ?_⟩
  · rw [running, history]
    exact (inv.ran (mode ▸ inPolicy) source (policy ▸ attached)).cons noMode
  · rw [published, running]
    rw [history, withdrawn_cons, noWithdraw] at standing
    exact inv.same (mode ▸ inPolicy) (policy ▸ loaded) standing (arming ▸ idle)
  · rw [published, history]
    rw [history] at inside
    have inside := (mem_currentTick_cons inside).resolve_left (noInference source action).symm
    exact (inv.inferred source action inside (mode ▸ inPolicy)).cons noMode
  · rw [history]
    exact ⟨sound, inv.driven⟩

theorem leaves (inv : DrivenInv s) (history : t.history = event :: s.history) (other : t.followerSource ≠ .policy)
    (sound : Driven s.history event) : DrivenInv t :=
  ⟨fun inPolicy => absurd inPolicy other, fun inPolicy => absurd inPolicy other,
    fun _ _ _ inPolicy => absurd inPolicy other, by rw [history]; exact ⟨sound, inv.driven⟩⟩

theorem interrupts (inv : DrivenInv s) (history : t.history = event :: s.history) (mode : t.followerSource = s.followerSource)
    (policy : t.policy = s.policy ∨ t.policy = none) (still : event.mode = none ∧ event.task = none)
    (noInference : ∀ source action, event ≠ .inferred source action) (sound : Driven s.history event)
    (uncut : s.followerSource = .policy → t.policy.isSome → withdrawn t.history = false →
      publishedTask s.history = runningTask s.history) : DrivenInv t := by
  obtain ⟨noMode, noTask⟩ := still
  have published : publishedTask t.history = publishedTask s.history := by simp [history, noTask]
  have running : runningTask t.history = runningTask s.history := by rw [history, runningTask_cons noMode]
  refine ⟨fun inPolicy source attached => ?_, fun inPolicy loaded standing _ => ?_,
    fun source action inside inPolicy => ?_, ?_⟩
  · have attached : s.policy = some source := by
      rcases policy with same | none
      · exact same ▸ attached
      · simp [none] at attached
    rw [running, history]
    exact (inv.ran (mode ▸ inPolicy) source attached).cons noMode
  · rw [published, running]
    exact uncut (mode ▸ inPolicy) loaded standing
  · rw [published, history]
    rw [history] at inside
    have inside := (mem_currentTick_cons inside).resolve_left (noInference source action).symm
    exact (inv.inferred source action inside (mode ▸ inPolicy)).cons noMode
  · rw [history]
    exact ⟨sound, inv.driven⟩

theorem arm (inv : DrivenInv s) (source : PolicySource) (task : Option String)
    (before : ∀ source action, .inferred source action ∉ currentTick s.history) : DrivenInv (s.arm source task) := by
  refine ⟨fun inPolicy other attached => ?_, fun _ _ _ idle => ?_, fun other action inside _ => ?_, ?_⟩
  · exact (inv.ran inPolicy other attached).cons rfl
  · cases idle
  · exact absurd ((mem_currentTick_cons inside).resolve_left (by simp)) (before other action)
  · exact ⟨trivial, inv.driven⟩

theorem infer (inv : DrivenInv s) {source : PolicySource} (action : Joints) (attached : s.policy = some source)
    (idle : s.arming = false) (settled : Settled s) : DrivenInv (s.log (.inferred source action)) := by
  refine ⟨fun inPolicy other attached => (inv.ran inPolicy other attached).cons rfl, inv.same,
    fun other action' inside inPolicy => ?_, trivial, inv.driven⟩
  rcases mem_currentTick_cons inside with same | old
  · cases same
    have published := inv.same inPolicy (by simp [attached]) (settled inPolicy) idle
    exact (published ▸ inv.ran inPolicy source attached).cons rfl
  · exact (inv.inferred other action' old inPolicy).cons rfl

theorem switch (inv : DrivenInv s) (arm : ArmInv s) (armed : Always ArmedAttached s.history) (live : s.arming) :
    DrivenInv (s.switchToPolicy s.armGeneration) := by
  obtain ⟨⟨generation, source, task⟩, found⟩ := Option.isSome_iff_exists.mp (arm.live live)
  obtain ⟨rfl, attached⟩ := arm.newest _ _ _ found
  obtain ⟨between, background, before, history, quiet, published⟩ := liveArming_split found
  have was : WasAttached source before := (history ▸ armed).suffix.1
  refine ⟨fun _ other attached' => ?_, fun _ _ _ _ => rfl, fun other action inside _ => ?_, trivial, inv.driven⟩
  · have same : other = source := Option.some.inj (attached'.symm.trans attached)
    subst same
    refine ⟨[], s.armGeneration, s.followerSource, between, background, before, ?_, (by simp), quiet, was⟩
    simp only [SourceState.switchToPolicy, SourceState.log, runningTask, published, List.nil_append]
    rw [← history]
  · have inside := (mem_currentTick_cons inside).resolve_left (by simp)
    simp [arm.inferred other action inside] at live

theorem control (inv : DrivenInv s) (step : ControlStep rig s t) (uncut : Always Uncut t.history) : DrivenInv t := by
  cases step with
  | unset => exact ⟨inv.ran, inv.same, inv.inferred, inv.driven⟩
  | arm source task attached valid observed before => exact inv.arm source task before
  | cancel cause =>
    refine inv.interrupts rfl rfl (.inl rfl) ⟨rfl, rfl⟩ (by simp) trivial fun inPolicy loaded standing => ?_
    cases cause with
    | loadModel =>
      cases arming : s.arming with
      | true => exact uncut.1 inPolicy arming
      | false => exact inv.same inPolicy loaded standing arming
    | stopTask | setFollowerSource => cases standing
  | enterTeleop | enterHold | disableLeader => exact inv.leaves rfl (by rintro ⟨⟩) trivial
  | infer source action attached idle settled => exact inv.infer action attached idle settled
  | detach => exact inv.interrupts rfl rfl (.inr rfl) ⟨rfl, rfl⟩ (by simp) trivial (by rintro _ ⟨⟩)
  | send sent sends =>
    refine inv.quiet rfl rfl ⟨rfl, rfl, rfl⟩ (by simp) ?_
    cases sends with
    | policy source action inPolicy inferred => exact inv.inferred source action inferred inPolicy
    | _ => trivial
  | _ => exact inv.quiet rfl rfl ⟨rfl, rfl, rfl⟩ (by simp) trivial

theorem loader (inv : DrivenInv s) {own : PolicySource} (step : LoaderStep own s t) (uncut : Always Uncut t.history) :
    DrivenInv t := by
  cases step with
  | attach => exact inv.leaves rfl uncut.1 trivial
  | _ => exact inv.quiet rfl rfl ⟨rfl, rfl, rfl⟩ (by simp) trivial

theorem arming (inv : DrivenInv s) (arm : ArmInv s) (armed : Always ArmedAttached s.history) {generation : Nat}
    (step : ArmStep generation s t) (uncut : Always Uncut t.history) : DrivenInv t := by
  cases step with
  | emit event => exact inv.quiet rfl rfl ⟨rfl, rfl, rfl⟩ (by simp) trivial
  | switch live current => exact current ▸ inv.switch arm armed live
  | fail live current =>
    exact inv.interrupts rfl rfl (.inl rfl) ⟨rfl, rfl⟩ (by simp) trivial fun inPolicy _ _ => uncut.1 inPolicy

end DrivenInv

/-! ## Every run -/

def ArmedOnce (older : List Event) : Event → Prop
  | .armed generation _ _ _ => ∀ source task background, .armed generation source task background ∉ older
  | _ => True

structure ArmedInv (s : SourceState) : Prop where
  attached : Always ArmedAttached s.history
  once : Always ArmedOnce s.history
  driven : Always Uncut s.history → DrivenInv s

section Run

variable (rig : Rig) (script : Script) (ticks : List Tick) (shutdownRaises : Option Fault) (schedule : List Nat)

theorem run_armed : ArmedInv (run rig script ticks shutdownRaises schedule).memory := by
  refine run_invariant rig script ticks shutdownRaises schedule ArmedInv
    ⟨trivial, trivial, fun _ => ⟨(by intros; contradiction), (by intros; contradiction), (by intros; contradiction), trivial⟩⟩ ?_ ?_ ?_
  · intro s t step inv armed
    have driven uncut := (armed.driven (step.suffix uncut)).control step uncut
    cases step with
    | unset => exact ⟨armed.attached, armed.once, driven⟩
    | arm source task loaded =>
      exact ⟨⟨inv.owner.wasAttached source ((inv.owner.attached source).mp loaded), armed.attached⟩,
        ⟨fun _ _ _ again => absurd (inv.arm.bounded _ _ _ _ again) (by omega), armed.once⟩, driven⟩
    | _ => exact ⟨⟨trivial, armed.attached⟩, ⟨trivial, armed.once⟩, driven⟩
  · intro own s t _ step _ armed
    have driven uncut := (armed.driven (step.suffix uncut)).loader step uncut
    cases step <;> exact ⟨⟨trivial, armed.attached⟩, ⟨trivial, armed.once⟩, driven⟩
  · intro generation s t step inv armed
    have driven uncut := (armed.driven (step.suffix uncut)).arming inv.arm armed.attached step uncut
    cases step <;> exact ⟨⟨trivial, armed.attached⟩, ⟨trivial, armed.once⟩, driven⟩

end Run

/-- If no policy is attached in policy mode, and no arming with another task is cut short there,
every action of a policy is sent on behalf of a completed arming of that policy. -/
theorem policy_sends_when_armed (rig : Rig) (script : Script) (ticks : List Tick) (shutdownRaises : Option Fault)
    (schedule : List Nat) (uncut : Always Uncut (run rig script ticks shutdownRaises schedule).memory.history) :
    Always Driven (run rig script ticks shutdownRaises schedule).memory.history :=
  ((run_armed rig script ticks shutdownRaises schedule).driven uncut).driven

instance (older : List Event) (event : Event) : Decidable (Uncut older event) := by
  unfold Uncut
  split <;> infer_instance

theorem policy_sends_when_armed_restart :
    Always Driven (run aloneRig {} restartTask none restartSchedule).memory.history :=
  policy_sends_when_armed aloneRig {} restartTask none restartSchedule (by decide +kernel)

def swapPolicy : List Tick :=
  let moving : PolicySource → Except Fault Joints := fun source => .ok [source.generation]
  [{ jointPositions := [0], commands := [{ command := .loadModel sampleLoad }] },
    { jointPositions := [0], commands := [{ command := .startTask "pick" }], policyUpdate := moving },
    { jointPositions := [1], commands := [{ command := .loadModel { sampleLoad with modelId := 2 } }], policyUpdate := moving },
    { jointPositions := [1], policyUpdate := moving }]

/-- The second loader attaches between the last two ticks. -/
def swapSchedule : List Nat :=
  List.replicate 13 0 ++ List.replicate 8 1 ++ List.replicate 9 0 ++ List.replicate 2 2 ++ List.replicate 13 0 ++
    List.replicate 8 3 ++ List.replicate 7 0

/-- The second policy drives the arm without having been armed. -/
theorem swapped_policy_drives_unarmed : ¬Always Driven (run aloneRig {} swapPolicy none swapSchedule).memory.history := by
  intro driven
  have swapped : (run aloneRig {} swapPolicy none swapSchedule).memory.history =
      .returned (.policy ⟨2, 2, .torch, "cpu"⟩ [2]) .policy ::
        (run aloneRig {} swapPolicy none swapSchedule).memory.history.tail := by decide +kernel
  have unarmed : ∀ event ∈ (run aloneRig {} swapPolicy none swapSchedule).memory.history.tail,
      event.arming.join.all (·.2.1.generation ≠ 2) := by decide +kernel
  rw [swapped] at driven
  obtain ⟨generation, background, armed⟩ := Completed.armed driven.1
  simpa [Event.arming] using unarmed _ armed

/-! ## Cancelled armings -/

theorem ArmStep.live {generation : Nat} {s t : SourceState} (step : ArmStep generation s t) (inv : ArmInv s)
    (changed : t.followerSource ≠ s.followerSource ∨ t.arming ≠ s.arming) :
    ∃ source task, liveArming s.history = some (generation, source, task) := by
  have found (live : s.arming) (current : generation = s.armGeneration) :
      ∃ source task, liveArming s.history = some (generation, source, task) := by
    obtain ⟨⟨generation', source, task⟩, found⟩ := Option.isSome_iff_exists.mp (inv.live live)
    obtain ⟨rfl, -⟩ := inv.newest _ _ _ found
    exact ⟨source, task, current ▸ found⟩
  cases step with
  | emit event => simp [SourceState.emit, SourceState.log] at changed
  | switch live current => exact found live current
  | fail live current => exact found live current

end PhysicalAiStudio.Runtime
