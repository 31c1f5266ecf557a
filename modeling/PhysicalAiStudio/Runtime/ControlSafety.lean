import PhysicalAiStudio.Runtime.LoaderSafety

/-! The control thread keeps to its steps, and so does a whole session. -/

set_option autoImplicit false

namespace PhysicalAiStudio.Runtime

open Concurrency

/-! ## What the control thread knows -/

structure Running (s : SourceState) : Prop where
  valid : .invalidated ∉ s.history
  attached : ∀ previous, .detached previous ∉ s.history

/-- Inside a tick, before the policy's turn. -/
structure Early (jointPositions : Joints) (s : SourceState) : Prop extends Running s where
  observed : s.lastRobotState = some jointPositions
  notInferred : ∀ source action, .inferred source action ∉ currentTick s.history
  notSkipped : .inferenceSkipped ∉ currentTick s.history

structure Between (s : SourceState) : Prop extends Running s where
  settled : Settled s

structure Ticking (jointPositions : Joints) (s : SourceState) : Prop extends Early jointPositions s where
  settled : Settled s

def Event.beforePolicy : Event → Bool
  | .emitted _ | .skipped _ | .cleared _ | .requested _ _ | .cancelled _ _ _ | .armed _ _ _ _ | .enteredTeleop
  | .latched _ _ _ | .leaderRead _ => true
  | _ => false

section Assertions

variable {s t : SourceState} {jointPositions : Joints} {event : Event}

theorem PoolFrame.currentTick (frame : PoolFrame s t) : ∃ events,
    Runtime.currentTick t.history = events ++ Runtime.currentTick s.history ∧ ∀ event ∈ events, event.ofPool :=
  frame.history.currentTick_eq fun event ofPool => by cases event <;> first | rfl | cases ofPool

theorem PoolFrame.readsEnabled (frame : PoolFrame s t) : t.leaderReadsEnabled = s.leaderReadsEnabled :=
  (Prod.mk.inj (Prod.mk.inj (Prod.mk.inj frame.fields).2).2).1

theorem PoolFrame.lastRobotState (frame : PoolFrame s t) : t.lastRobotState = s.lastRobotState :=
  (Prod.mk.inj (Prod.mk.inj (Prod.mk.inj frame.fields).2).2).2

theorem PoolFrame.holdTarget (frame : PoolFrame s t) : t.holdTarget = s.holdTarget :=
  (Prod.mk.inj frame.fields).1

theorem PoolFrame.lastLeaderAction (frame : PoolFrame s t) : t.lastLeaderAction = s.lastLeaderAction :=
  (Prod.mk.inj (Prod.mk.inj frame.fields).2).1

theorem PoolFrame.mem_currentTick (frame : PoolFrame s t) (member : event ∈ Runtime.currentTick s.history) :
    event ∈ Runtime.currentTick t.history := by
  obtain ⟨events, same, -⟩ := frame.currentTick
  exact same ▸ List.mem_append_right _ member

theorem PoolFrame.not_mem_currentTick (frame : PoolFrame s t) (other : event.ofPool = false)
    (fresh : event ∉ Runtime.currentTick s.history) : event ∉ Runtime.currentTick t.history := by
  obtain ⟨events, same, are⟩ := frame.currentTick
  rw [same, List.mem_append]
  rintro (new | old)
  · simp [are event new] at other
  · exact fresh old

theorem Settled.quiet (settled : Settled s) (history : t.history = event :: s.history)
    (mode : t.followerSource = s.followerSource) (standing : event.withdraws ≠ some true) : Settled t := by
  intro policy
  rw [history, withdrawn_cons]
  cases told : event.withdraws with
  | none => exact settled (mode ▸ policy)
  | some gone =>
    cases gone with
    | false => rfl
    | true => exact absurd told standing

namespace Running

theorem frame (running : Running s) (frame : PoolFrame s t) : Running t where
  valid := frame.history.not_mem (by simp [Event.ofPool, Event.loader, Event.arm]) running.valid
  attached previous := frame.history.not_mem (by simp [Event.ofPool, Event.loader, Event.arm]) (running.attached previous)

theorem cons (running : Running s) (history : t.history = event :: s.history) (valid : event ≠ .invalidated)
    (attached : ∀ previous, event ≠ .detached previous) : Running t := by
  constructor
  · rw [history]
    exact List.not_mem_cons_of_ne_of_not_mem valid.symm running.valid
  · intro previous
    rw [history]
    exact List.not_mem_cons_of_ne_of_not_mem (attached previous).symm (running.attached previous)

end Running

namespace Early

theorem frame (early : Early jointPositions s) (frame : PoolFrame s t) : Early jointPositions t where
  toRunning := early.toRunning.frame frame
  observed := frame.lastRobotState.trans early.observed
  notInferred source action :=
    frame.not_mem_currentTick (by simp [Event.ofPool, Event.loader, Event.arm]) (early.notInferred source action)
  notSkipped := frame.not_mem_currentTick (by simp [Event.ofPool, Event.loader, Event.arm]) early.notSkipped

/-- A step of a command, or of the leader, keeps the tick going. -/
theorem step (early : Early jointPositions s) (history : t.history = event :: s.history)
    (observed : t.lastRobotState = s.lastRobotState) (before : event.beforePolicy) : Early jointPositions t := by
  have notTicked : event.measures = none := by cases event <;> first | rfl | cases before
  refine ⟨early.toRunning.cons history ?_ ?_, observed.trans early.observed, fun source action => ?_, ?_⟩
  · rintro rfl
    cases before
  · rintro previous rfl
    cases before
  · rw [history, currentTick_cons, notTicked, if_neg (by simp)]
    refine List.not_mem_cons_of_ne_of_not_mem ?_ (early.notInferred source action)
    rintro rfl
    cases before
  · rw [history, currentTick_cons, notTicked, if_neg (by simp)]
    refine List.not_mem_cons_of_ne_of_not_mem ?_ early.notSkipped
    rintro rfl
    cases before

end Early

theorem Between.frame (rest : Between s) (frame : PoolFrame s t) : Between t :=
  ⟨rest.toRunning.frame frame, frame.settled rest.settled⟩

theorem Between.cons (rest : Between s) (history : t.history = event :: s.history) (settled : Settled t)
    (valid : event ≠ .invalidated) (attached : ∀ previous, event ≠ .detached previous) : Between t :=
  ⟨rest.toRunning.cons history valid attached, settled⟩

namespace Ticking

theorem between (ticking : Ticking jointPositions s) : Between s := ⟨ticking.toRunning, ticking.settled⟩

theorem frame (ticking : Ticking jointPositions s) (frame : PoolFrame s t) : Ticking jointPositions t :=
  ⟨ticking.toEarly.frame frame, frame.settled ticking.settled⟩

theorem step (ticking : Ticking jointPositions s) (history : t.history = event :: s.history)
    (observed : t.lastRobotState = s.lastRobotState) (settled : Settled t) (before : event.beforePolicy) :
    Ticking jointPositions t :=
  ⟨ticking.toEarly.step history observed before, settled⟩

end Ticking

theorem mem_startedJobs {job : Job} {history : List Event} :
    job ∈ startedJobs history ↔ (∃ event ∈ history, event.job = some job) ∨ job = .control := by
  simp [startedJobs]

theorem job_eq_load {generation : Nat} {command : LoadModelCommand} :
    event.job = some (.load generation command) ↔ event = .requested generation command := by
  cases event with
  | armed g source task background => cases background <;> simp [Event.job]
  | _ => simp [Event.job]

theorem job_eq_arm {generation : Nat} {source : PolicySource} :
    event.job = some (.arm generation source) ↔ ∃ task, event = .armed generation source task true := by
  cases event with
  | armed g source task background => cases background <;> simp [Event.job]
  | _ => simp [Event.job]

/-- A generation that was never requested is free for a loader thread. -/
theorem loader_key_fresh {generation : Nat} {history : List Event}
    (fresh : ∀ command, .requested generation command ∉ history) :
    Key.loader generation ∉ (startedJobs history).map Job.key := by
  rw [List.mem_map]
  rintro ⟨_ | ⟨g, command⟩ | ⟨g, source⟩, member, same⟩ <;> cases same
  rcases mem_startedJobs.mp member with ⟨event, inside, started⟩ | control
  · exact fresh command (job_eq_load.mp started ▸ inside)
  · cases control

theorem arming_key_fresh {generation : Nat} {history : List Event}
    (fresh : ∀ source task background, .armed generation source task background ∉ history) :
    Key.arming generation ∉ (startedJobs history).map Job.key := by
  rw [List.mem_map]
  rintro ⟨_ | ⟨g, command⟩ | ⟨g, source⟩, member, same⟩ <;> cases same
  rcases mem_startedJobs.mp member with ⟨event, inside, started⟩ | control
  · obtain ⟨task, armed⟩ := job_eq_arm.mp started
    exact fresh source task true (armed ▸ inside)
  · cases control

end Assertions

/-! ## Commands -/

section Commands

variable (rig : Rig) {m : SourceState} {jointPositions : Joints}

abbrev ControlSafe {Value : Type} (post : Value → SourceState → Prop) : Task Value → SourceState → Prop :=
  (sourceProtocol rig).Safe .control post fun _ => Running

theorem controlStep {s t : SourceState} (step : ControlStep rig s t) : (sourceProtocol rig).Step .control s t :=
  .single step

theorem Ticking.emitted {s : SourceState} (ticking : Ticking jointPositions s) (event : RuntimeEvent) :
    Ticking jointPositions (s.emit event) :=
  ticking.step rfl rfl (ticking.settled.quiet rfl rfl (by rintro ⟨⟩)) rfl

theorem safe_emitError (ticking : Ticking jointPositions m) (message errorCode : String) :
    ControlSafe rig (fun _ => Ticking jointPositions) (ActionSource.emitError message errorCode) m := by
  simp only [ControlSafe, ActionSource.emitError, Protocol.safe_modify]
  exact fun n between inv => ⟨.inr (controlStep rig (.emit n _)), rfl, (ticking.frame (.interference between)).emitted _⟩

theorem safe_emitState (ticking : Ticking jointPositions m) :
    ControlSafe rig (fun _ => Ticking jointPositions) ActionSource.emitState m := by
  simp only [ControlSafe, ActionSource.emitState, Protocol.safe_modify]
  exact fun n between inv => ⟨.inr (controlStep rig (.emit n _)), rfl, (ticking.frame (.interference between)).emitted _⟩

theorem lastLoad_frame {s t : SourceState} (frame : PoolFrame s t) : lastLoad t.history = lastLoad s.history := by
  rw [lastLoad, frame.history.findSome?_eq fun event ofPool => ?_, lastLoad]
  cases event <;> first | rfl | cases ofPool

theorem requestLoad_starts {n : SourceState} (inv : SourceInv rig n) (command : LoadModelCommand) :
    (sourceProtocol rig).Starts [.load (n.loaderGeneration + 1) command] n (n.requestLoad command) where
  recorded := by simp [sourceProtocol, SourceState.requestLoad, SourceState.log, Event.job]
  distinct := by simp
  fresh job member := by
    rw [List.mem_singleton.mp member]
    exact loader_key_fresh fun other requested => absurd (inv.load.bounded _ _ requested) (by omega)
  entry job member := by
    rw [List.mem_singleton.mp member]
    refine ⟨.head _, fun event inside author => ?_, by_contra fun known => ?_⟩
    · rcases List.mem_cons.mp inside with rfl | old
      · cases author
      · obtain ⟨other, requested⟩ := inv.load.authored event old _ author
        exact absurd (inv.load.bounded _ _ requested) (by omega)
    · exact absurd (inv.load.generation_le (inv.owner.built _ known)) (by simp)

theorem arm_starts {n : SourceState} (inv : SourceInv rig n) (source : PolicySource) (task : Option String)
    (observed : n.lastRobotState.isSome) :
    (sourceProtocol rig).Starts [.arm (n.armGeneration + 1) source] n (n.arm source task) where
  recorded := by simp [sourceProtocol, SourceState.arm, SourceState.log, Event.job, observed]
  distinct := by simp
  fresh job member := by
    rw [List.mem_singleton.mp member]
    exact arming_key_fresh fun _ _ _ armed => absurd (inv.arm.bounded _ _ _ _ armed) (by omega)
  entry job member := by
    rw [List.mem_singleton.mp member]
    refine ⟨⟨task, by simp [SourceState.arm, SourceState.log, observed]⟩, fun event inside author => ?_⟩
    rcases List.mem_cons.mp inside with rfl | old
    · cases author
    · exact absurd (inv.arm.ended event old _ author) (by omega)

theorem safe_handleLoadModel (ticking : Ticking jointPositions m) (command : LoadModelCommand) :
    ControlSafe rig (fun _ => Ticking jointPositions) (ActionSource.handleLoadModel rig command) m := by
  simp only [ControlSafe, ActionSource.handleLoadModel, Protocol.safe_bind, Protocol.safe_act]
  intro n between inv
  have ticking := ticking.frame (.interference between)
  unfold ActionSource.skipLoad
  split
  next same =>
    exact ⟨.inr (controlStep rig (.skip n command same.2)), rfl, ticking.step rfl rfl (ticking.settled.quiet rfl rfl (by rintro ⟨⟩)) rfl⟩
  next =>
    refine ⟨.inl rfl, rfl, ?_⟩
    simp only [Bool.false_eq_true, if_false, Protocol.safe_bind, Protocol.safe_modify, ActionSource.cancelArming,
      ActionSource.emitState]
    intro o between inv
    have ticking := ticking.frame (.interference between)
    refine ⟨.inr (controlStep rig (.clear o command)), rfl, fun p between inv => ?_⟩
    have ticking : Ticking jointPositions (o.clearIdentity command) :=
      ticking.step rfl rfl (ticking.settled.quiet rfl rfl (by rintro ⟨⟩)) rfl
    have frame := PoolFrame.interference between
    have ticking := ticking.frame frame
    -- No loader attaches while the identity is cleared, and nothing starts one before the end of this handler.
    have unloaded : lastLoad p.history = none := lastLoad_frame frame
    refine ⟨.inr (controlStep rig (.cancel p .loadModel)), rfl, fun q between inv => ?_⟩
    have ticking : Ticking jointPositions (p.cancelArming .loadModel) :=
      ticking.step rfl rfl (ticking.settled.quiet rfl rfl (by rintro ⟨⟩)) rfl
    have frame := PoolFrame.interference between
    have ticking := ticking.frame frame
    have unloaded : lastLoad q.history = none := (lastLoad_frame frame).trans unloaded
    refine ⟨.inr (controlStep rig (.unset q unloaded)), rfl, fun r between inv => ?_⟩
    have ticking : Ticking jointPositions q.unsetModel := { ticking with }
    have frame := PoolFrame.interference between
    have ticking := ticking.frame frame
    have unloaded : lastLoad r.history = none := (lastLoad_frame frame).trans unloaded
    refine ⟨.inr (controlStep rig (.emit r _)), rfl, ?_⟩
    have ticking : Ticking jointPositions r.emitState := ticking.emitted _
    split
    next => exact safe_emitError rig ticking _ _
    next =>
      rw [Protocol.safe_start]
      intro u between inv
      have frame := PoolFrame.interference between
      have ticking := ticking.frame frame
      have unloaded : lastLoad u.history = none := (lastLoad_frame frame).trans unloaded
      exact ⟨.inr (controlStep rig (.request u command unloaded ticking.toRunning.valid)), requestLoad_starts rig inv command,
        ticking.step rfl rfl (ticking.settled.quiet rfl rfl (by rintro ⟨⟩)) rfl⟩

/-- Within a tick a measurement exists, so arming always leaves the switch to a thread. -/
theorem safe_armPolicy (ticking : Ticking jointPositions m) (drained : Drained) (task : Option String) :
    ControlSafe rig (fun armed s => armed = false ∧ Ticking jointPositions s)
      (ActionSource.armPolicy drained task) m := by
  simp only [ControlSafe, ActionSource.armPolicy, Protocol.safe_bind, Protocol.safe_start]
  intro n between inv
  have ticking := ticking.frame (.interference between)
  unfold ActionSource.armLocked
  cases attached : n.policy with
  | none =>
    exact ⟨.inr (controlStep rig (.emit n _)), (Protocol.starts_nil _ _).mpr rfl, rfl, ticking.emitted _⟩
  | some source =>
    dsimp only
    split
    next message _ =>
      exact ⟨.inr (controlStep rig (.emit n _)), (Protocol.starts_nil _ _).mpr rfl, rfl, ticking.emitted _⟩
    next fault _ _ =>
      exact ⟨.inl rfl, (Protocol.starts_nil _ _).mpr rfl, ticking.toRunning⟩
    next =>
      have observed : n.lastRobotState.isSome := by simp [ticking.observed]
      refine ⟨.inr (controlStep rig (.arm n source task attached ticking.valid observed ticking.notInferred)), ?_, ?_⟩
      · simpa [ActionSource.Armed.jobs, observed] using arm_starts rig inv source task observed
      · simp only [Protocol.safe_bind, Protocol.safe_read]
        intro o between inv
        have armed : Ticking jointPositions (n.arm source task) :=
          ticking.step rfl rfl (fun _ => by simp [SourceState.arm, SourceState.log, Event.withdraws]) rfl
        have ticking := armed.frame (.interference between)
        simp only [ticking.observed, Option.isSome_some, if_true]
        exact ⟨rfl, ticking⟩

/-- What follows an arming that is left to a thread publishes nothing. -/
theorem safe_arming (ticking : Ticking jointPositions m) (drained : Drained) (task : Option String) :
    ControlSafe rig (fun _ => Ticking jointPositions)
      (do
        let armed ← ActionSource.armPolicy drained task
        if armed then ActionSource.emitState else pure ()) m := by
  rw [ControlSafe, Protocol.safe_bind]
  refine (safe_armPolicy rig ticking drained task).mono (fun armed n pending => ?_) fun _ _ => id
  obtain ⟨rfl, ticking⟩ := pending
  exact ticking

theorem safe_handleStopTask (ticking : Ticking jointPositions m) :
    ControlSafe rig (fun _ => Ticking jointPositions) (ActionSource.handleStopTask jointPositions) m := by
  simp only [ControlSafe, ActionSource.handleStopTask, ActionSource.cancelArming, Protocol.safe_bind, Protocol.safe_modify,
    Protocol.safe_read]
  intro n between inv
  have ticking := ticking.frame (.interference between)
  refine ⟨.inr (controlStep rig (.cancel n .stopTask)), rfl, fun o between inv => ?_⟩
  -- from here on the mode is not settled, but nothing can switch it either
  have early : Early jointPositions (n.cancelArming .stopTask) := ticking.toEarly.step rfl rfl rfl
  have frame := PoolFrame.interference between
  have early := early.frame frame
  split
  next hold => exact ⟨early, fun policy => by simp [hold] at policy⟩
  next other =>
    simp only [Protocol.safe_bind, Protocol.safe_modify]
    intro p between inv
    have frame' := PoolFrame.interference between
    have early := early.frame frame'
    have other : p.followerSource ≠ .hold := by rwa [(frame'.idle (frame.idle rfl).1).2]
    refine ⟨.inr (controlStep rig (.enterHold p .command _ (by simp) (fun _ => other) early.observed)), rfl, ?_⟩
    exact safe_emitState rig ⟨early.step rfl rfl rfl, (by rintro ⟨⟩)⟩

theorem safe_handleSetFollowerSource (ticking : Ticking jointPositions m) (drained : Drained) (requested : FollowerSource) :
    ControlSafe rig (fun _ => Ticking jointPositions)
      (ActionSource.handleSetFollowerSource rig drained requested jointPositions) m := by
  simp only [ControlSafe, ActionSource.handleSetFollowerSource, Protocol.safe_bind, Protocol.safe_read]
  intro n between inv
  have frame := PoolFrame.interference between
  have ticking := ticking.frame frame
  split
  next => exact safe_emitError rig ticking _ _
  next hasLeader =>
    split
    next => exact safe_emitError rig ticking _ _
    next readable =>
      split
      next =>
        rw [Protocol.safe_bind, Protocol.safe_read]
        intro o between inv
        exact safe_arming rig (ticking.frame (.interference between)) drained o.task
      next notPolicy =>
        simp only [ActionSource.cancelArming, Protocol.safe_bind, Protocol.safe_modify, Protocol.safe_read]
        intro o between inv
        have frame := PoolFrame.interference between
        have ticking := ticking.frame frame
        refine ⟨.inr (controlStep rig (.cancel o _)), rfl, fun p between' inv => ?_⟩
        have cancelled : Early jointPositions (o.cancelArming (.setFollowerSource requested)) :=
          ticking.toEarly.step rfl rfl rfl
        have frame' := PoolFrame.interference between'
        split
        next same => exact ⟨cancelled.frame frame', fun policy => absurd (same.trans policy) notPolicy⟩
        next other =>
          simp only [Protocol.safe_bind, Protocol.safe_modify]
          intro q between inv
          have frame'' := PoolFrame.interference between
          have early := (cancelled.frame frame').frame frame''
          -- With the arming cancelled no thread switches the mode behind the handler.
          have other : q.followerSource ≠ requested := by
            rw [(frame''.idle (frame'.idle rfl).1).2]
            exact fun same => other same.symm
          have enabled : q.leaderReadsEnabled = n.leaderReadsEnabled :=
            frame''.readsEnabled.trans (frame'.readsEnabled.trans frame.readsEnabled)
          cases requested with
          | policy => exact absurd rfl notPolicy
          | hold =>
            refine ⟨.inr (controlStep rig (.enterHold q .command _ (by simp) (fun _ => other) early.observed)), rfl, ?_⟩
            exact safe_emitState rig ⟨early.step rfl rfl rfl, (by rintro ⟨⟩)⟩
          | teleop =>
            simp only [true_and, Bool.not_eq_true', Bool.not_eq_false] at hasLeader readable
            refine ⟨.inr (controlStep rig (.enterTeleop q hasLeader (enabled.trans readable) other)), rfl, ?_⟩
            exact safe_emitState rig ⟨early.step rfl rfl rfl, (by rintro ⟨⟩)⟩

theorem safe_handle (ticking : Ticking jointPositions m) (drained : Drained) :
    ControlSafe rig (fun _ => Ticking jointPositions) (ActionSource.handle rig jointPositions drained) m := by
  unfold ActionSource.handle
  split
  next command _ => exact safe_handleLoadModel rig ticking command
  next task _ => exact safe_arming rig ticking drained (some task)
  next => exact safe_handleStopTask rig ticking
  next requested _ => exact safe_handleSetFollowerSource rig ticking drained requested
  next =>
    unfold ActionSource.handleStartRecording
    split
    · exact safe_emitState rig ticking
    · exact safe_emitError rig ticking _ _
  next => exact ticking

theorem safe_drainCommands (ticking : Ticking jointPositions m) (commands : List Drained) :
    ControlSafe rig (fun _ => Ticking jointPositions) (ActionSource.drainCommands rig jointPositions commands) m := by
  induction commands generalizing m with
  | nil => exact ticking
  | cons drained rest ih =>
    rw [ControlSafe, ActionSource.drainCommands, Protocol.safe_bind]
    exact (safe_handle rig ticking drained).mono (fun _ n ticking => ih ticking) fun _ _ => id

end Commands

/-! ## A tick -/

section Ticks

variable (rig : Rig) {m s t : SourceState} {tick : Tick}

/-- What the control thread knows of the leader's action, in whatever mode it is. -/
def LeaderChosen (leaderAction : Option Sent) (s : SourceState) : Prop :=
  match leaderAction with
  | none => s.followerSource ≠ .teleop
  | some (.leader _) => s.lastLeaderAction.isSome
  | some (.leaderHold target) =>
      s.lastLeaderAction = none ∧ (s.followerSource = .teleop → s.holdTarget = some target)
  | some _ => False

def PolicyChosen (policyAction : Option Sent) (s : SourceState) : Prop :=
  match policyAction with
  | none => .inferenceSkipped ∈ currentTick s.history ∨ s.followerSource = .hold ∧ s.arming = false
  | some (.policy source action) =>
      .inferred source action ∈ currentTick s.history ∧ .inferenceSkipped ∉ currentTick s.history
  | some _ => False

theorem LeaderChosen.frame {leaderAction : Option Sent} (chosen : LeaderChosen leaderAction s) (frame : PoolFrame s t) :
    LeaderChosen leaderAction t := by
  unfold LeaderChosen at *
  split
  · rcases frame.mode with same | policy
    · rwa [same]
    · simp [policy]
  · rwa [frame.lastLeaderAction]
  · rw [frame.lastLeaderAction, frame.holdTarget]
    refine chosen.imp_right fun target teleop => target ?_
    rcases frame.mode with same | policy
    · exact same ▸ teleop
    · simp [policy] at teleop
  · simp_all

theorem PolicyChosen.frame {policyAction : Option Sent} (chosen : PolicyChosen policyAction s) (frame : PoolFrame s t) :
    PolicyChosen policyAction t := by
  unfold PolicyChosen at *
  split
  · refine chosen.imp frame.mem_currentTick fun ⟨hold, idle⟩ => ?_
    obtain ⟨idle', same⟩ := frame.idle idle
    exact ⟨same.trans hold, idle'⟩
  · exact ⟨frame.mem_currentTick chosen.1,
      frame.not_mem_currentTick (by simp [Event.ofPool, Event.loader, Event.arm]) chosen.2⟩
  · simp_all

structure Latched (jointPositions : Joints) (s : SourceState) : Prop extends Ticking jointPositions s where
  latched : s.holdTarget.isSome

theorem Latched.frame {jointPositions : Joints} (latched : Latched jointPositions s) (frame : PoolFrame s t) :
    Latched jointPositions t :=
  ⟨latched.toTicking.frame frame, by rw [frame.holdTarget]; exact latched.latched⟩

theorem safe_disableFailedLeader {jointPositions : Joints} (latched : Latched jointPositions m) :
    ControlSafe rig (fun _ => Latched jointPositions) (ActionSource.disableFailedLeader jointPositions) m := by
  simp only [ControlSafe, ActionSource.disableFailedLeader, ActionSource.emitState, ActionSource.emitError,
    Protocol.safe_bind, Protocol.safe_modify, Protocol.safe_read]
  intro n between inv o between' inv'
  have latched := (latched.frame (.interference between)).frame (.interference between')
  refine ⟨.inr (controlStep rig (.disableLeader o _ latched.observed)), rfl, ?_⟩
  have disabled : Latched jointPositions (o.disableLeader jointPositions) :=
    ⟨latched.toTicking.step rfl rfl (by rintro ⟨⟩) rfl, rfl⟩
  have emitted {q : SourceState} (event : RuntimeEvent) (latched : Latched jointPositions q) :
      Latched jointPositions (q.emit event) := ⟨latched.toTicking.emitted event, latched.latched⟩
  split <;> simp only [Protocol.safe_bind, Protocol.safe_modify]
  next =>
    intro p between inv
    refine ⟨.inr (controlStep rig (.emit p _)), rfl, fun q between' inv' => ?_⟩
    have latched : Latched jointPositions p.emitState := emitted _ (disabled.frame (.interference between))
    exact ⟨.inr (controlStep rig (.emit q _)), rfl, emitted _ (latched.frame (.interference between'))⟩
  next =>
    intro p between inv
    exact ⟨.inr (controlStep rig (.emit p _)), rfl, emitted _ (disabled.frame (.interference between))⟩

theorem safe_readLeader (inv : SourceInv rig m) (latched : Latched tick.jointPositions m) :
    ControlSafe rig (fun leaderAction s => Latched tick.jointPositions s ∧ LeaderChosen leaderAction s)
      (ActionSource.readLeader rig tick) m := by
  unfold ActionSource.readLeader
  split
  next alone => exact ⟨latched, fun teleop => by simp [(inv.mode.teleop teleop).1] at alone⟩
  next =>
    simp only [ControlSafe, Protocol.safe_bind, Protocol.safe_act]
    intro n between inv
    have latched := latched.frame (.interference between)
    unfold ActionSource.takeReading
    split
    next action timestamp _ =>
      have read : Latched tick.jointPositions (n.leaderSucceeded action timestamp) :=
        ⟨latched.toTicking.step rfl rfl (latched.settled.quiet rfl rfl (by rintro ⟨⟩)) rfl, latched.latched⟩
      exact ⟨.inr (controlStep rig (.leaderSucceed n action timestamp)), rfl, read, rfl⟩
    next =>
      refine ⟨.inr (controlStep rig (.leaderFail n)), rfl, ?_⟩
      have failed : Latched tick.jointPositions n.leaderFailed :=
        ⟨latched.toTicking.step rfl rfl (latched.settled.quiet rfl rfl (by rintro ⟨⟩)) rfl, latched.latched⟩
      simp only [Protocol.safe_bind, Protocol.safe_read]
      intro o between inv
      have latched := failed.frame (.interference between)
      -- The target was latched before the leader is read, so a failed reading has something to send.
      have fallback {p : SourceState} (latched : Latched tick.jointPositions p) :
          ControlSafe rig (fun leaderAction s => Latched tick.jointPositions s ∧ LeaderChosen leaderAction s)
            (.read fun s => (s.lastLeaderAction.map .leader) <|> (s.holdTarget.map .leaderHold)) p := by
        rw [ControlSafe, Protocol.safe_read]
        intro q between inv
        have latched := latched.frame (.interference between)
        refine ⟨latched, ?_⟩
        obtain ⟨target, held⟩ := Option.isSome_iff_exists.mp latched.latched
        cases action : q.lastLeaderAction with
        | none => simp [LeaderChosen, action, held]
        | some action' => simp [LeaderChosen, action]
      split
      next =>
        rw [Protocol.safe_bind]
        exact (safe_disableFailedLeader rig latched).mono (fun _ p latched => fallback latched) fun _ _ => id
      next => exact fallback latched

theorem safe_leaderAction (latched : Latched tick.jointPositions m) :
    ControlSafe rig (fun leaderAction s => Latched tick.jointPositions s ∧ LeaderChosen leaderAction s)
      (ActionSource.leaderAction rig tick) m := by
  simp only [ControlSafe, ActionSource.leaderAction, Protocol.safe_bind, Protocol.safe_read]
  intro n between inv
  have latched := latched.frame (.interference between)
  split
  next => exact safe_readLeader rig inv latched
  next disabled =>
    rw [Protocol.safe_read]
    intro o between inv'
    have frame := PoolFrame.interference between
    refine ⟨latched.frame frame, ?_⟩
    cases action : o.lastLeaderAction with
    | none =>
      intro teleop
      exact disabled (frame.readsEnabled ▸ (inv'.mode.teleop teleop).2)
    | some action' => simp [LeaderChosen, action]

theorem dropPolicyToHold_step {source : PolicySource} {target : Joints} (message : String)
    (attached : s.policy = some source) (idle : s.arming = false) (observed : s.lastRobotState = some target) :
    Relation.ReflTransGen (ControlStep rig) s (s.dropPolicyToHold source target message) := by
  have dropped : Relation.ReflTransGen (ControlStep rig) s ((s.failInference source).enterHold .policyFailure target) :=
    (Relation.ReflTransGen.single (.failInference s source attached idle)).tail
      (.enterHold _ .policyFailure target (by simp) (by simp) observed)
  unfold SourceState.dropPolicyToHold
  dsimp only
  split <;> split
  · exact dropped
  · exact dropped.tail (.reportInference _ message)
  · exact dropped.tail (.emit _ _)
  · exact (dropped.tail (.reportInference _ message)).tail (.emit _ _)

section Drop

variable (s) (source : PolicySource) (target : Joints) (message : String)

theorem dropPolicyToHold_fields :
    let dropped := s.dropPolicyToHold source target message
    (dropped.followerSource, dropped.arming, dropped.lastLeaderAction) = (.hold, s.arming, s.lastLeaderAction) := by
  unfold SourceState.dropPolicyToHold
  dsimp only
  split <;> split <;> rfl

theorem dropPolicyToHold_jobs :
    startedJobs (s.dropPolicyToHold source target message).history = startedJobs s.history := by
  unfold SourceState.dropPolicyToHold
  dsimp only
  split <;> split <;> rfl

theorem Between.drop (rest : Between s) : Between (s.dropPolicyToHold source target message) := by
  have failed : Between (s.failInference source) := rest.cons rfl (rest.settled.quiet rfl rfl (by rintro ⟨⟩)) (by simp) (by simp)
  have dropped : Between ((s.failInference source).enterHold .policyFailure target) := failed.cons rfl (by rintro ⟨⟩) (by simp) (by simp)
  unfold SourceState.dropPolicyToHold
  dsimp only
  split <;> split
  · exact dropped
  · exact dropped.cons rfl (by rintro ⟨⟩) (by simp) (by simp)
  · exact dropped.cons rfl (by rintro ⟨⟩) (by simp) (by simp)
  · have reported : Between (((s.failInference source).enterHold .policyFailure target).reportInference message) :=
      dropped.cons rfl (by rintro ⟨⟩) (by simp) (by simp)
    exact reported.cons rfl (by rintro ⟨⟩) (by simp) (by simp)

end Drop

theorem safe_policyAction (ticking : Ticking tick.jointPositions m) {leaderAction : Option Sent}
    (chosen : LeaderChosen leaderAction m) :
    ControlSafe rig (fun policyAction s => Between s ∧ LeaderChosen leaderAction s ∧ PolicyChosen policyAction s)
      (ActionSource.policyAction tick) m := by
  simp only [ControlSafe, ActionSource.policyAction, Protocol.safe_bind, Protocol.safe_act]
  intro n between inv
  have frame := PoolFrame.interference between
  have ticking := ticking.frame frame
  have chosen := chosen.frame frame
  -- Inference withdraws nothing, so a policy that is attached stays the one that was armed.
  have settled {event : Event} (standing : event.withdraws ≠ some true) : Settled (n.log event) :=
    ticking.settled.quiet rfl rfl standing
  have skipped (idle : n.policy = none ∨ n.arming) :
      (n.log .inferenceSkipped = n ∨ (sourceProtocol rig).Step .control n (n.log .inferenceSkipped)) ∧
        startedJobs (n.log .inferenceSkipped).history = startedJobs n.history ∧
        Between (n.log .inferenceSkipped) ∧ LeaderChosen leaderAction (n.log .inferenceSkipped) ∧
          PolicyChosen none (n.log .inferenceSkipped) :=
    ⟨.inr (controlStep rig (.skipInference n idle)), rfl, ticking.between.cons rfl (settled (by rintro ⟨⟩)) (by simp) (by simp), chosen,
      .inl (by simp [SourceState.log, currentTick_cons, Event.measures])⟩
  unfold ActionSource.policyActionLocked
  cases attached : n.policy with
  | none => exact skipped (.inl attached)
  | some source =>
    dsimp only
    split
    next arming => exact skipped (.inr arming)
    next idle =>
      rw [Bool.not_eq_true] at idle
      split
      next action _ =>
        exact ⟨.inr (controlStep rig (.infer n source action attached idle ticking.settled)), rfl,
          ticking.between.cons rfl (settled (by rintro ⟨⟩)) (by simp) (by simp), chosen, by simp [SourceState.log, currentTick_cons, Event.measures],
          by simpa [SourceState.log, currentTick_cons, Event.measures] using ticking.notSkipped⟩
      next => exact ⟨.inl rfl, rfl, ticking.toRunning⟩
      next fault _ _ =>
        have fields := dropPolicyToHold_fields n source tick.jointPositions (fault.textOr "Policy inference failed.")
        simp only [Prod.mk.injEq] at fields
        obtain ⟨hold, same, action⟩ := fields
        refine ⟨.inr (dropPolicyToHold_step rig _ attached idle ticking.observed), dropPolicyToHold_jobs .., ?_⟩
        refine ⟨ticking.between.drop _ _ _ _, ?_, .inr ⟨hold, same.trans idle⟩⟩
        unfold LeaderChosen at *
        split
        · simp [hold]
        · rwa [action]
        · exact ⟨action.trans chosen.1, by simp [hold]⟩
        · simp_all

theorem send_step {n : SourceState} {sent : Sent} {mode : FollowerSource} (sends : Sends n sent)
    (same : n.followerSource = mode) : (sourceProtocol rig).Step .control n (n.log (.returned sent mode)) :=
  controlStep rig (same ▸ .send n sent sends)

theorem Between.sent (rest : Between s) (sent : Sent) (mode : FollowerSource) : Between (s.log (.returned sent mode)) :=
  rest.cons rfl (rest.settled.quiet rfl rfl (by rintro ⟨⟩)) (by simp) (by simp)

theorem choosePolicy_cases {n : SourceState} {policyAction : Option Sent} (other : n.followerSource ≠ .teleop)
    (policy : PolicyChosen policyAction n) :
    ActionSource.choosePolicy policyAction n = (none, n) ∨ ∃ sent, Sends n sent ∧
      ActionSource.choosePolicy policyAction n = (some sent, n.log (.returned sent n.followerSource)) := by
  have hold (skipped : n.followerSource = .policy → .inferenceSkipped ∈ currentTick n.history) :
      ActionSource.chooseHold n = (none, n) ∨ ∃ sent, Sends n sent ∧
        ActionSource.chooseHold n = (some sent, n.log (.returned sent n.followerSource)) := by
    unfold ActionSource.chooseHold
    cases held : n.holdTarget with
    | none => exact .inl rfl
    | some target => exact .inr ⟨.hold target, .hold target held other skipped, rfl⟩
  unfold ActionSource.choosePolicy
  cases policyAction with
  | none =>
    refine hold fun inPolicy => policy.resolve_right ?_
    rintro ⟨inHold, _⟩
    simp [inHold] at inPolicy
  | some sent =>
    dsimp only
    split
    next inPolicy =>
      cases sent with
      | policy source action =>
        exact .inr ⟨.policy source action, .policy source action inPolicy policy.1 policy.2, by rw [inPolicy]⟩
      | _ => exact policy.elim
    next notPolicy => exact hold fun inPolicy => absurd inPolicy notPolicy

/-- The second read of the mode, when the leader's action was not taken. -/
theorem safe_choosePolicy (rest : Between m) {policyAction : Option Sent} (other : m.followerSource ≠ .teleop)
    (policy : PolicyChosen policyAction m) :
    ControlSafe rig (fun _ => Between)
      (do
        let chosen ← .act (ActionSource.choosePolicy policyAction)
        match chosen with
        | some sent => pure sent
        | none => .raise (Fault.other "'NoneType' object has no attribute 'copy'")) m := by
  simp only [ControlSafe, Protocol.safe_bind, Protocol.safe_act]
  intro n between inv
  have frame := PoolFrame.interference between
  have rest := rest.frame frame
  have policy := policy.frame frame
  have other : n.followerSource ≠ .teleop := by
    rcases frame.mode with same | policy
    · rwa [same]
    · simp [policy]
  rcases choosePolicy_cases other policy with chosen | ⟨sent, sends, chosen⟩
  · rw [chosen]
    exact ⟨.inl rfl, rfl, rest.toRunning⟩
  · rw [chosen]
    exact ⟨.inr (send_step rig sends rfl), rfl, rest.sent _ _⟩

theorem safe_choose (rest : Between m) {leaderAction policyAction : Option Sent}
    (leader : LeaderChosen leaderAction m) (policy : PolicyChosen policyAction m) :
    ControlSafe rig (fun _ => Between) (ActionSource.choose leaderAction policyAction) m := by
  rw [ControlSafe, ActionSource.choose, Protocol.safe_bind, Protocol.safe_act]
  intro n between inv
  have frame := PoolFrame.interference between
  have rest := rest.frame frame
  have leader := leader.frame frame
  have policy := policy.frame frame
  unfold ActionSource.chooseLeader
  cases leaderAction with
  | none => exact ⟨.inl rfl, rfl, safe_choosePolicy rig rest leader policy⟩
  | some sent =>
    dsimp only
    split
    next inTeleop =>
      have sends : Sends n sent := by
        cases sent with
        | leader action => exact .leader action inTeleop leader
        | leaderHold target => exact .leaderHold target inTeleop (leader.2 inTeleop) leader.1
        | _ => exact leader.elim
      exact ⟨.inr (send_step rig sends inTeleop), rfl, rest.sent _ _⟩
    next other => exact ⟨.inl rfl, rfl, safe_choosePolicy rig rest other policy⟩

theorem safe_update (rest : Between m) (tick : Tick) :
    ControlSafe rig (fun _ => Between) (ActionSource.update rig tick) m := by
  simp only [ControlSafe, ActionSource.update, Protocol.safe_bind, Protocol.safe_modify]
  intro n between inv
  have rest := rest.frame (.interference between)
  refine ⟨.inr (controlStep rig (.observe n tick.jointPositions)), rfl, ?_⟩
  have ticking : Ticking tick.jointPositions (n.observe tick.jointPositions) := by
    refine ⟨⟨rest.toRunning.cons rfl (by simp) (by simp), rfl, ?_, ?_⟩, rest.settled.quiet rfl rfl (by rintro ⟨⟩)⟩ <;>
      simp [SourceState.observe, SourceState.log, currentTick_cons, Event.measures]
  refine (safe_drainCommands rig ticking tick.commands).mono (fun _ o ticking => ?_) fun _ _ => id
  intro p between inv
  have ticking := ticking.frame (.interference between)
  have latched : Latched tick.jointPositions (if p.holdTarget.isNone then p.latchFirst tick.jointPositions else p) := by
    split
    next => exact ⟨ticking.step rfl rfl (ticking.settled.quiet rfl rfl (by rintro ⟨⟩)) rfl, rfl⟩
    next set => exact ⟨ticking, by simpa [Option.isSome_iff_ne_none] using set⟩
  refine ⟨?_, ?_, ?_⟩
  · split
    next unset => exact .inr (controlStep rig (.latchFirst p _ (by simpa using unset) ticking.observed))
    next => exact .inl rfl
  · split <;> rfl
  · refine (safe_leaderAction rig latched).mono (fun leaderAction q pending => ?_) fun _ _ => id
    obtain ⟨latched, leader⟩ := pending
    refine (safe_policyAction rig latched.toTicking leader).mono (fun policyAction r pending => ?_) fun _ _ => id
    obtain ⟨rest, leader, policy⟩ := pending
    exact safe_choose rig rest leader policy

theorem safe_updates (rest : Between m) (ticks : List Tick) :
    ControlSafe rig (fun _ => Running) (ActionSource.updates rig ticks) m := by
  induction ticks generalizing m with
  | nil => exact rest.toRunning
  | cons tick _ ih =>
    rw [ControlSafe, ActionSource.updates, Protocol.safe_bind]
    exact (safe_update rig rest tick).mono (fun _ n rest => ih rest) fun _ _ => id

end Ticks

/-! ## Teardown -/

section Teardown

variable (rig : Rig) {m s t : SourceState}

/-- After the teardown detached the policy, which is the only one left to disconnect. -/
structure Detaching (previous : Option PolicySource) (s : SourceState) : Prop where
  detached : .detached previous ∈ s.history
  only : ∀ source, holder source s.history = some (.held .control) → previous = some source
  may : ∀ old, previous = some old → Disconnectable .control old s.history

theorem Detaching.frame {previous : Option PolicySource} (detaching : Detaching previous s) (frame : PoolFrame s t) :
    Detaching previous t where
  detached := frame.history.mem detaching.detached
  only source held := detaching.only source (frame.owner.gains source held)
  may old was := frame.owner.disconnectable old (detaching.may old was)

theorem detaching_detach (attached : ∀ previous, .detached previous ∉ s.history) : Detaching s.policy s.detach where
  detached := .head _
  only source held := by
    simp only [SourceState.detach, SourceState.log, SourceState.cancelArmingLocked_history, holder] at held
    split at held
    next was => exact was
    next =>
      obtain ⟨previous, member⟩ := holder_control held
      exact absurd member (attached previous)
  may old was := .inl (by simp [SourceState.detach, SourceState.log, holder, was])

theorem controlDone_frame (done : Key.Done s .control) (frame : PoolFrame s t) : Key.Done t .control := by
  obtain ⟨⟨previous, detached⟩, none⟩ := done
  exact ⟨⟨previous, frame.history.mem detached⟩, none.frame frame.owner frame.history⟩

/-- The session is torn down in any case, also when a tick raised. -/
theorem safe_shutdownPolicy (running : Running m) (raises : Option Fault) :
    (sourceProtocol rig).Safe .control (fun _ s => Key.Done s .control) (fun _ s => Key.Done s .control)
      (ActionSource.shutdownPolicy raises) m := by
  simp only [ActionSource.shutdownPolicy, Protocol.safe_bind, Protocol.safe_modify, Protocol.safe_act]
  intro n between inv
  have running := running.frame (.interference between)
  refine ⟨.inr (controlStep rig (.invalidate n)), rfl, fun o between inv => ?_⟩
  have frame := PoolFrame.interference between
  have invalidated : .invalidated ∈ o.history := frame.history.mem (.head _)
  -- Only this thread detaches, and has not done so before.
  have attached previous : .detached previous ∉ o.history :=
    frame.history.not_mem (by simp [Event.ofPool, Event.loader, Event.arm])
      (by simpa [SourceState.invalidateLoads, SourceState.log] using running.attached previous)
  refine ⟨.inr (controlStep rig (.detach o invalidated)), rfl, ?_⟩
  have detaching := detaching_detach attached
  cases policy : o.policy with
  | none =>
    rw [policy] at detaching
    exact ⟨⟨none, detaching.detached⟩, .inl fun source held => absurd (detaching.only source held) (by simp)⟩
  | some old =>
    rw [policy] at detaching
    simp only [ActionSource.disconnect, Protocol.safe_bind, Protocol.safe_modify]
    intro p between inv
    have detaching := detaching.frame (.interference between)
    have done : Key.Done (p.log (.disconnected .control old)) .control := by
      refine ⟨⟨some old, .tail _ detaching.detached⟩, .inl fun source held => ?_⟩
      simp only [SourceState.log, holder] at held
      split at held
      next => cases held
      next other =>
        have same : old = source := Option.some.inj (detaching.only source held)
        simp [same, held] at other
    refine ⟨.inr (controlStep rig (.disconnect p old (detaching.may old rfl))), rfl, ?_⟩
    cases raises with
    | none => exact done
    | some fault =>
      simp only [Protocol.safe_bind, Protocol.safe_modify, Protocol.safe_raise]
      intro q between inv
      obtain ⟨⟨previous, detached⟩, none⟩ := controlDone_frame done (.interference between)
      exact ⟨.inr (controlStep rig (.disconnectRaise q)), rfl, ⟨previous, .tail _ detached⟩,
        none.imp id Raised.cons⟩

theorem safe_control (running : Between m) (ticks : List Tick) (shutdownRaises : Option Fault) :
    (sourceProtocol rig).Safe .control (fun _ s => Key.Done s .control) (fun _ s => Key.Done s .control)
      (ActionSource.control rig ticks shutdownRaises) m := by
  rw [ActionSource.control, Protocol.safe_ensuring]
  exact (safe_updates rig running ticks).mono (fun _ _ running => safe_shutdownPolicy rig running shutdownRaises)
    fun _ _ running => safe_shutdownPolicy rig running shutdownRaises

end Teardown

/-! ## Every thread of a session keeps to the protocol -/

theorem source_sound (rig : Rig) (script : Script) :
    (sourceProtocol rig).Sound (code script) fun key s => key.Done s where
  preserved key m n step inv := inv.step step
  lasting key m n foreign done := by
    cases key with
    | control => exact controlDone_frame done (.foreign foreign)
    | loader generation =>
      have frame := LoaderFrame.foreign foreign
      exact ⟨done.1.frame frame.owner frame.history, done.2.frame frame⟩
    | arming generation => trivial
  safe job m entry inv := by
    cases job with
    | control => exact entry.elim
    | load generation command =>
      obtain ⟨requested, fresh, none⟩ := entry
      have unbuilt : Unbuilt ⟨generation, modelIdentity command⟩ m := ⟨⟨command, requested, rfl⟩, none, fresh⟩
      exact safe_load rig (script.load generation) unbuilt rfl
    | arm generation source =>
      obtain ⟨⟨task, armed⟩, open'⟩ := entry
      exact safe_finishArm rig armed open' (script.armWarmup generation)

theorem session_valid (rig : Rig) (ticks : List Tick) (shutdownRaises : Option Fault) :
    (sourceProtocol rig).Valid (fun key s => key.Done s) (session rig ticks shutdownRaises) where
  inv := SourceInv.initial
  roster := by simp [session, sourceProtocol, startedJobs, SourceState.initial]
  distinct := by simp [session, sourceProtocol, startedJobs, SourceState.initial]
  safe thread member := by
    rw [List.mem_singleton.mp member]
    exact safe_control rig ⟨⟨by simp [session, SourceState.initial], by simp [session, SourceState.initial]⟩, fun _ => rfl⟩
      ticks shutdownRaises

section Suffix

variable {rig : Rig} {s t : SourceState} {P : List Event → Event → Prop}

theorem ControlStep.suffix (step : ControlStep rig s t) (always : Always P t.history) : Always P s.history := by
  cases step with
  | unset => exact always
  | _ => exact always.2

theorem LoaderStep.suffix {own : PolicySource} (step : LoaderStep own s t) (always : Always P t.history) :
    Always P s.history := by
  cases step <;> exact always.2

theorem ArmStep.suffix {generation : Nat} (step : ArmStep generation s t) (always : Always P t.history) :
    Always P s.history := by
  cases step <;> exact always.2

end Suffix

section Run

variable (rig : Rig) (script : Script) (ticks : List Tick) (shutdownRaises : Option Fault) (schedule : List Nat)

theorem run_valid :
    (sourceProtocol rig).Valid (fun key s => key.Done s) (run rig script ticks shutdownRaises schedule) := by
  rw [run]
  exact (session_valid rig ticks shutdownRaises).run (source_sound rig script) schedule

theorem run_thread {job : Job} (started : job ∈ startedJobs (run rig script ticks shutdownRaises schedule).memory.history) :
    ∃ thread ∈ (run rig script ticks shutdownRaises schedule).threads, thread.job = job :=
  List.mem_map.mp ((run_valid rig script ticks shutdownRaises schedule).roster.symm.subset started)

/-- What every change of a thread preserves holds in every state of every session. -/
theorem run_invariant (P : SourceState → Prop) (initial : P (.initial rig))
    (control : ∀ s t, ControlStep rig s t → SourceInv rig s → P s → P t)
    (loader : ∀ own s t, BuiltBy own s.history → LoaderStep own s t → SourceInv rig s → P s → P t)
    (arming : ∀ generation s t, ArmStep generation s t → SourceInv rig s → P s → P t) :
    P (run rig script ticks shutdownRaises schedule).memory := by
  rw [run]
  refine (session_valid rig ticks shutdownRaises).run_invariant (source_sound rig script) P ?_ initial schedule
  intro key s t step inv holds
  cases key with
  | control =>
    refine (?_ : P t ∧ SourceInv rig t).1
    induction step with
    | refl => exact ⟨holds, inv⟩
    | tail _ step ih => exact ⟨control _ _ step ih.2 ih.1, ih.2.control step⟩
  | loader generation =>
    obtain ⟨own, -, built, step⟩ := step
    exact loader own s t built step inv holds
  | arming generation => exact arming generation s t step.2 inv holds

end Run

end PhysicalAiStudio.Runtime
