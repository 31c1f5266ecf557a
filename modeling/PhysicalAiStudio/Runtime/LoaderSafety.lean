import PhysicalAiStudio.Runtime.SourceFrames

/-! The background threads of an action source keep to their steps.

Each assertion is what a loader knows of its own policy at a place of its code,
and is stable under whatever the other threads do there.
-/

set_option autoImplicit false

namespace PhysicalAiStudio.Runtime

open Concurrency

/-- A thread has nothing left to disconnect, unless a raise came between. -/
def NoneHeld (own : Key) (history : List Event) : Prop :=
  (∀ source, holder source history ≠ some (.held own)) ∨ Raised history

def Resolved (generation : Nat) (s : SourceState) : Prop :=
  (∃ source, source.generation = generation ∧ WasAttached source s.history) ∨
    .loadFailed generation ∈ s.history ∨ generation < s.loaderGeneration

/-- What a thread has achieved once it has ended. -/
def Key.Done (s : SourceState) : Key → Prop
  | .control => (∃ previous, .detached previous ∈ s.history) ∧ NoneHeld .control s.history
  | .loader generation => NoneHeld (.loader generation) s.history ∧ Resolved generation s
  | .arming _ => True

section Loader

variable {rig : Rig} {own : PolicySource} {s t : SourceState}

theorem NoneHeld.frame {key : Key} {kind : Event → Prop} (owner : OwnerFrame key s t) (history : Extends kind s t)
    (none : NoneHeld key s.history) : NoneHeld key t.history :=
  none.imp (fun unheld source held => unheld source (owner.gains source held)) history.raised

theorem Resolved.frame {generation : Nat} (frame : LoaderFrame generation s t) (resolved : Resolved generation s) :
    Resolved generation t := by
  rcases resolved with ⟨source, same, attached⟩ | failed | superseded
  · exact .inl ⟨source, same, frame.history.wasAttached attached⟩
  · exact .inr (.inl (frame.history.mem failed))
  · exact .inr (.inr (superseded.trans_le frame.later))

structure Unbuilt (own : PolicySource) (s : SourceState) : Prop where
  built : BuiltBy own s.history
  none : holder own s.history = none
  untouched : ∀ event ∈ s.history, event.loader ≠ some own.generation

structure Holding (own : PolicySource) (s : SourceState) : Prop where
  built : BuiltBy own s.history
  held : holder own s.history = some (.held (.loader own.generation))
  only : ∀ source, holder source s.history = some (.held (.loader own.generation)) → source = own
  unsettled : ∀ event ∈ s.history, event.settles ≠ some own

/-- In the `except` branch. -/
structure Failing (own : PolicySource) (s : SourceState) : Prop where
  built : BuiltBy own s.history
  may : Disconnectable (.loader own.generation) own s.history
  only : (∀ source, holder source s.history = some (.held (.loader own.generation)) → source = own) ∨ Raised s.history

theorem settles_loader {event : Event} {source : PolicySource} (settles : event.settles = some source) :
    event.loader = some source.generation := by
  cases event <;> simp_all [Event.settles, Event.loader]

theorem not_wasAttached_of_unsettled {history : List Event} (unsettled : ∀ event ∈ history, event.settles ≠ some own) :
    ¬WasAttached own history := by
  rintro ⟨previous, mode, member⟩
  exact unsettled _ member rfl

namespace Unbuilt

theorem frame (unbuilt : Unbuilt own s) (frame : LoaderFrame own.generation s t) : Unbuilt own t where
  built := frame.history.builtBy unbuilt.built
  none := by
    have unattached : ¬WasAttached own s.history := by
      rintro ⟨previous, mode, member⟩
      exact unbuilt.untouched _ member rfl
    rw [(frame.owner.unattached own rfl unattached).2, unbuilt.none]
  untouched := frame.history.forall_mem (fun _ => id) unbuilt.untouched

theorem unheld (unbuilt : Unbuilt own s) (source : PolicySource) :
    holder source s.history ≠ some (.held (.loader own.generation)) := by
  intro held
  obtain ⟨event, member, author⟩ := holder_loader held
  exact unbuilt.untouched event member author

theorem build (unbuilt : Unbuilt own s) : Holding own (s.log (.built own)) where
  built := unbuilt.built.cons
  held := by simp [SourceState.log, holder]
  only source held := by
    simp only [SourceState.log, holder] at held
    split at held
    next same => exact same.symm
    next => exact absurd held (unbuilt.unheld source)
  unsettled event member settles := by
    rcases List.mem_cons.mp member with rfl | old
    · cases settles
    · exact unbuilt.untouched event old (settles_loader settles)

end Unbuilt

namespace Holding

theorem frame (holding : Holding own s) (frame : LoaderFrame own.generation s t) : Holding own t where
  built := frame.history.builtBy holding.built
  held := by
    rw [(frame.owner.unattached own rfl (not_wasAttached_of_unsettled holding.unsettled)).2, holding.held]
  only source held := holding.only source (frame.owner.gains source held)
  unsettled := frame.history.forall_mem (fun event other settles => other (settles_loader settles)) holding.unsettled

theorem log {event : Event} (holding : Holding own s) (still : event.movesPolicy = false)
    (open' : event.settles ≠ some own) : Holding own (s.log event) where
  built := holding.built.cons
  held := (holder_cons_still still own s.history).trans holding.held
  only source held := holding.only source ((holder_cons_still still source s.history).symm.trans held)
  unsettled other member := by
    rcases List.mem_cons.mp member with rfl | old
    · exact open'
    · exact holding.unsettled other old

theorem failing (holding : Holding own s) : Failing own s :=
  ⟨holding.built, .inl holding.held, .inl holding.only⟩

end Holding

namespace Failing

theorem frame (failing : Failing own s) (frame : LoaderFrame own.generation s t) : Failing own t where
  built := frame.history.builtBy failing.built
  may := frame.owner.disconnectable own failing.may
  only := failing.only.imp (fun only source held => only source (frame.owner.gains source held)) frame.history.raised

theorem log {event : Event} (failing : Failing own s) (still : event.movesPolicy = false) :
    Failing own (s.log event) where
  built := failing.built.cons
  may := by
    rw [SourceState.log, Disconnectable, holder_cons_still still, wasAttached_cons_still still]
    exact failing.may.imp_right fun late => ⟨late.1.cons, late.2⟩
  only := failing.only.imp
    (fun only source held => only source ((holder_cons_still still source s.history).symm.trans held)) Raised.cons

end Failing

structure Disconnected (own : PolicySource) (s : SourceState) : Prop where
  built : BuiltBy own s.history
  unheld : ∀ source, holder source s.history ≠ some (.held (.loader own.generation))
  late : WasAttached own s.history ∨ ¬WasAttached own s.history ∧ holder own s.history = some .released
  resolved : Resolved own.generation s

/-- After the policy is attached: what it displaced is the only policy left to disconnect. -/
structure Displacing (own : PolicySource) (previous : Option PolicySource) (s : SourceState) : Prop where
  built : BuiltBy own s.history
  attached : WasAttached own s.history
  only : ∀ source, holder source s.history = some (.held (.loader own.generation)) → previous = some source ∧ source ≠ own
  may : ∀ old, previous = some old → old ≠ own → Disconnectable (.loader own.generation) old s.history

namespace Disconnected

theorem frame (gone : Disconnected own s) (frame : LoaderFrame own.generation s t) : Disconnected own t where
  built := frame.history.builtBy gone.built
  unheld source held := gone.unheld source (frame.owner.gains source held)
  late := by
    rcases gone.late with attached | ⟨unattached, released⟩
    · exact .inl (frame.history.wasAttached attached)
    · obtain ⟨still, same⟩ := frame.owner.unattached own rfl unattached
      exact .inr ⟨still, same.trans released⟩
  resolved := gone.resolved.frame frame

theorem done (gone : Disconnected own s) : Key.Done s (.loader own.generation) :=
  ⟨.inl gone.unheld, gone.resolved⟩

theorem failing (gone : Disconnected own s) : Failing own (s.log (.disconnectRaised (.loader own.generation))) where
  built := gone.built.cons
  may := by
    refine .inr ⟨⟨own.generation, .head _⟩, ?_⟩
    rcases gone.late with attached | ⟨-, released⟩
    · exact .inl attached.cons
    · exact .inr released
  only := .inr ⟨own.generation, .head _⟩

end Disconnected

theorem holder_attach (own source : PolicySource) (s : SourceState) (generation : Nat) (identity : ModelIdentity) :
    holder source (s.attach own generation identity).history =
      if own = source then some .attached
      else if s.policy = some source then some (.held (.loader own.generation))
      else holder source s.history := rfl

theorem Holding.attach (holding : Holding own s) (identity : ModelIdentity) :
    Displacing own s.policy (s.attach own own.generation identity) where
  built := holding.built.cons
  attached := by simp [SourceState.attach, SourceState.log]
  only source held := by
    rw [holder_attach] at held
    split at held
    next => cases held
    next other =>
      split at held
      next was => exact ⟨was, fun same => other same.symm⟩
      next => exact absurd (holding.only source held).symm other
  may old was other := .inl (by rw [holder_attach, if_neg fun same => other same.symm, if_pos was])

theorem Displacing.frame {previous : Option PolicySource} (displacing : Displacing own previous s)
    (frame : LoaderFrame own.generation s t) : Displacing own previous t where
  built := frame.history.builtBy displacing.built
  attached := frame.history.wasAttached displacing.attached
  only source held := displacing.only source (frame.owner.gains source held)
  may old same other := frame.owner.disconnectable old (displacing.may old same other)

theorem Displacing.emit {previous : Option PolicySource} (displacing : Displacing own previous s) :
    Displacing own previous s.emitState :=
  ⟨displacing.built.cons, displacing.attached.cons, displacing.only, fun old same other =>
    (displacing.may old same other).imp_right fun late => ⟨late.1.cons, late.2.imp_left WasAttached.cons⟩⟩

theorem Displacing.done {previous : Option PolicySource} (displacing : Displacing own previous s)
    (same : ∀ source, previous = some source → source = own) : Key.Done s (.loader own.generation) :=
  ⟨.inl fun source held => (displacing.only source held).2 (same source (displacing.only source held).1),
    .inl ⟨own, rfl, displacing.attached⟩⟩

theorem Displacing.disconnect {old : PolicySource} (displacing : Displacing own (some old) s) :
    Disconnected own (s.log (.disconnected (.loader own.generation) old)) where
  built := displacing.built.cons
  unheld source held := by
    simp only [SourceState.log, holder] at held
    split at held
    next => cases held
    next other =>
      have same : old = source := Option.some.inj (displacing.only source held).1
      simp [same, held] at other
  late := .inl displacing.attached.cons
  resolved := .inl ⟨own, rfl, displacing.attached.cons⟩

/-- A superseded or a stale policy is disconnected by the loader that built it. -/
theorem disconnect_own (built : BuiltBy own s.history)
    (held : holder own s.history = some (.held (.loader own.generation)))
    (only : ∀ source, holder source s.history = some (.held (.loader own.generation)) → source = own)
    (unattached : ¬WasAttached own s.history) (older : own.generation < s.loaderGeneration) :
    Disconnected own (s.log (.disconnected (.loader own.generation) own)) where
  built := built.cons
  unheld source held' := by
    simp only [SourceState.log, holder] at held'
    split at held'
    next => cases held'
    next other => simp [only source held', held] at other
  late := .inr ⟨by simpa [SourceState.log] using unattached, by simp [SourceState.log, holder, held]⟩
  resolved := .inr (.inr older)

theorem Holding.disconnect (holding : Holding own s) (older : own.generation < s.loaderGeneration) :
    Disconnected own (s.log (.disconnected (.loader own.generation) own)) :=
  disconnect_own holding.built holding.held holding.only (not_wasAttached_of_unsettled holding.unsettled) older

/-- Disconnecting its own policy leaves a loader with nothing. -/
theorem Failing.disconnected (failing : Failing own s) :
    NoneHeld (.loader own.generation) (s.log (.disconnected (.loader own.generation) own)).history := by
  rcases failing.only with only | raised
  · refine .inl fun source held => ?_
    simp only [SourceState.log, holder] at held
    split at held
    next => cases held
    next other =>
      have same := only source held
      simp [same, same ▸ held] at other
  · exact .inr raised.cons

/-! ## The programs of a loader -/

section Programs

variable (rig : Rig) (script : LoadScript) {m : SourceState}

abbrev LoaderSafe {Value : Type} (own : PolicySource) (post : Value → SourceState → Prop)
    (fault : Fault → SourceState → Prop) : Task Value → SourceState → Prop :=
  (sourceProtocol rig).Safe (.loader own.generation) post fault

theorem loaderStep (built : BuiltBy own s.history) (step : LoaderStep own s t) :
    (sourceProtocol rig).Step (.loader own.generation) s t :=
  ⟨own, rfl, built, step⟩

theorem safe_raise_after (gone : Disconnected own m) (raises : Option Fault) :
    LoaderSafe rig own (fun _ s => Key.Done s (.loader own.generation)) (fun _ => Failing own)
      (match raises with
        | none => pure ()
        | some fault => do
          .modify (·.log (.disconnectRaised (.loader own.generation)))
          .raise fault) m := by
  cases raises with
  | none => exact gone.done
  | some fault =>
    simp only [LoaderSafe, Protocol.safe_bind, Protocol.safe_modify, Protocol.safe_raise]
    intro n between inv
    have gone := gone.frame (.interference between)
    exact ⟨.inr (loaderStep rig gone.built (.disconnectRaise n)), rfl, gone.failing⟩

theorem safe_setPolicy (holding : Holding own m) (passed : .passed own ∈ m.history)
    (disconnectRaises previousRaises : Option Fault) :
    LoaderSafe rig own (fun _ s => Key.Done s (.loader own.generation)) (fun _ => Failing own)
      (ActionSource.setPolicy (.loader own.generation) own own.generation own.identity disconnectRaises
        previousRaises) m := by
  simp only [LoaderSafe, ActionSource.setPolicy, Protocol.safe_bind, Protocol.safe_act]
  intro n between inv
  have frame := LoaderFrame.interference between
  have holding := holding.frame frame
  have window : InWindow own n.history := ⟨frame.history.mem passed, holding.unsettled⟩
  unfold ActionSource.setPolicyLocked
  split
  -- A newer request has come meanwhile: the policy is disconnected in place, still held by its loader.
  next older =>
    refine ⟨.inr (loaderStep rig holding.built (.drop n window older)), rfl, ?_⟩
    simp only [if_true, ActionSource.disconnect, Protocol.safe_bind, Protocol.safe_modify]
    intro o between inv'
    have superseded : own.generation < n.loaderGeneration := by
      have := inv.owner.order
      have := inv.owner.bounded
      omega
    have frame := LoaderFrame.interference between
    have unattached : ¬WasAttached own (n.log (.dropped own)).history := by
      simpa [SourceState.log] using not_wasAttached_of_unsettled holding.unsettled
    obtain ⟨unattached, same⟩ := frame.owner.unattached own rfl unattached
    have held : holder own o.history = some (.held (.loader own.generation)) := same.trans holding.held
    have built : BuiltBy own (n.log (.dropped own)).history := holding.built.cons
    have built := frame.history.builtBy built
    exact ⟨.inr (loaderStep rig built (.disconnect o own (.inl held))), rfl, safe_raise_after rig
      (disconnect_own built held (fun source held' => holding.only source (frame.owner.gains source held')) unattached
        (superseded.trans_le frame.later)) _⟩
  -- The policy is attached, and the one it displaces is disconnected unless it is the same.
  next newer =>
    refine ⟨.inr (loaderStep rig holding.built (.attach n window holding.held (Nat.le_of_not_lt newer))), rfl, ?_⟩
    simp only [Bool.false_eq_true, if_false, ActionSource.emitState, Protocol.safe_bind, Protocol.safe_modify]
    intro o between inv'
    have displacing := (holding.attach own.identity).frame (.interference between)
    refine ⟨.inr (loaderStep rig displacing.built (.emit o _)), rfl, ?_⟩
    have displacing := displacing.emit
    cases previous : n.policy with
    | none =>
      rw [previous] at displacing
      exact displacing.done fun _ => (by simp)
    | some old =>
      rw [previous] at displacing
      dsimp only
      split
      next other =>
        simp only [ActionSource.disconnect, Protocol.safe_bind, Protocol.safe_modify]
        intro p between inv''
        have displacing := displacing.frame (.interference between)
        exact ⟨.inr (loaderStep rig displacing.built (.disconnect p old (displacing.may old rfl other))), rfl,
          safe_raise_after rig displacing.disconnect _⟩
      next same =>
        rw [not_not] at same
        exact displacing.done fun _ replaced => same ▸ (Option.some.inj replaced).symm

theorem safe_handover (holding : Holding own m) :
    LoaderSafe rig own (fun _ s => Key.Done s (.loader own.generation)) (fun _ => Failing own)
      (PolicyLoader.handover script own.generation own own.identity) m := by
  simp only [LoaderSafe, PolicyLoader.handover, Protocol.safe_bind, Protocol.safe_act]
  intro n between inv
  have holding := holding.frame (.interference between)
  have unattached := not_wasAttached_of_unsettled holding.unsettled
  unfold PolicyLoader.handoverLocked
  split
  next superseded =>
    have older : own.generation < n.loaderGeneration :=
      lt_of_le_of_ne (inv.load.generation_le holding.built) superseded
    exact ⟨.inr (loaderStep rig holding.built (.disconnect n own (.inl holding.held))), rfl,
      safe_raise_after rig (holding.disconnect older) _⟩
  next current =>
    rw [not_not] at current
    exact ⟨.inr (loaderStep rig holding.built (.pass n current holding.held)), rfl,
      safe_setPolicy rig (holding.log rfl (by simp [Event.settles])) (.head _) _ _⟩

theorem safe_warmup (holding : Holding own m) :
    LoaderSafe rig own (fun _ s => Key.Done s (.loader own.generation)) (fun _ => Failing own)
      (do
        let snapshot ← .read (·.lastRobotState)
        if snapshot.isSome then .check script.warmup else pure ()
        PolicyLoader.handover script own.generation own own.identity) m := by
  simp only [LoaderSafe, Protocol.safe_bind, Protocol.safe_read]
  intro n between inv
  have holding := holding.frame (.interference between)
  split
  next =>
    simp only [Protocol.safe_bind, Protocol.safe_check]
    exact ⟨fun _ => safe_handover rig script holding, fun _ _ => holding.failing⟩
  next => exact safe_handover rig script holding

theorem safe_loadBuilt (holding : Holding own m) :
    LoaderSafe rig own (fun _ s => Key.Done s (.loader own.generation)) (fun _ => Failing own)
      (PolicyLoader.loadBuilt script own.generation own own.identity) m := by
  simp only [LoaderSafe, PolicyLoader.loadBuilt, PolicyLoader.call, Protocol.safe_bind, Protocol.safe_check,
    Protocol.safe_modify]
  refine ⟨fun _ n between inv => ?_, fun _ _ => holding.failing⟩
  have holding := holding.frame (.interference between)
  refine ⟨.inr (loaderStep rig holding.built (.connect n holding.held)), rfl, ?_⟩
  have holding : Holding own (n.log (.connected own)) := holding.log rfl (by simp [Event.settles])
  split
  next =>
    rw [Protocol.safe_bind, Protocol.safe_check]
    exact ⟨fun _ => safe_warmup rig script holding, fun _ _ => holding.failing⟩
  next => exact safe_warmup rig script holding

/-- The end of the `except` branch reports the error of a load that is still wanted. -/
theorem safe_report {generation : Nat} (built : BuiltBy own m.history) (none : NoneHeld (.loader own.generation) m.history)
    (failed : .loadFailed own.generation ∈ m.history) (same : generation = own.generation) (fault : Fault) :
    LoaderSafe rig own (fun _ s => Key.Done s (.loader own.generation)) (fun _ s => Key.Done s (.loader own.generation))
      (do
        let stale ← .read (decide <| generation ≠ ·.loaderGeneration)
        if stale then pure () else PolicyLoader.emitLoadError fault) m := by
  subst same
  have done {s : SourceState} (frame : LoaderFrame own.generation m s) : Key.Done s (.loader own.generation) :=
    ⟨none.frame frame.owner frame.history, .inr (.inl (frame.history.mem failed))⟩
  have emits : ∃ message errorCode, PolicyLoader.emitLoadError fault = ActionSource.emitError message errorCode := by
    cases fault <;> exact ⟨_, _, rfl⟩
  obtain ⟨message, errorCode, report⟩ := emits
  simp only [LoaderSafe, report, ActionSource.emitError, Protocol.safe_bind, Protocol.safe_read]
  intro n between inv
  have frame := LoaderFrame.interference between
  split
  · exact done frame
  · rw [Protocol.safe_modify]
    intro o between' inv'
    have frame := frame.trans (.interference between')
    have emitted : LoaderFrame own.generation o (o.emit (.error message errorCode)) :=
      ⟨.one rfl (by simp [Event.loader]), le_rfl, .quiet rfl rfl⟩
    exact ⟨.inr (loaderStep rig (frame.history.builtBy built) (.emit o _)), rfl, done (frame.trans emitted)⟩

theorem safe_loadFailed (failing : Failing own m) (fault : Fault) :
    LoaderSafe rig own (fun _ s => Key.Done s (.loader own.generation)) (fun _ s => Key.Done s (.loader own.generation))
      (PolicyLoader.loadFailed own.generation (some own) fault) m := by
  simp only [LoaderSafe, PolicyLoader.loadFailed, Protocol.safe_bind, Protocol.safe_modify]
  intro n between inv
  have failing := failing.frame (.interference between)
  refine ⟨.inr (loaderStep rig failing.built (.fail n)), rfl, fun o between' inv' => ?_⟩
  have frame := LoaderFrame.interference between'
  have failing : Failing own (n.log (.loadFailed own.generation)) := failing.log rfl
  have failing := failing.frame frame
  refine ⟨.inr (loaderStep rig failing.built (.disconnect o own failing.may)), rfl, ?_⟩
  rw [← Protocol.safe_bind]
  exact safe_report rig failing.built.cons failing.disconnected (.tail _ (frame.history.mem (.head _))) rfl fault

theorem safe_load (unbuilt : Unbuilt own m) {command : LoadModelCommand} (identity : own.identity = modelIdentity command) :
    LoaderSafe rig own (fun _ s => Key.Done s (.loader own.generation)) (fun _ s => Key.Done s (.loader own.generation))
      (PolicyLoader.load script own.generation command) m := by
  have same : (⟨own.generation, modelIdentity command⟩ : PolicySource) = own := by rw [← identity]
  unfold PolicyLoader.load
  simp only [← identity]
  cases script.build with
  | some fault =>
    simp only [LoaderSafe, PolicyLoader.loadFailed, Protocol.safe_bind, Protocol.safe_modify]
    intro n between inv
    have unbuilt := unbuilt.frame (.interference between)
    refine ⟨.inr (loaderStep rig unbuilt.built (.fail n)), rfl, ?_⟩
    rw [← Protocol.safe_bind]
    have none : NoneHeld (.loader own.generation) (n.log (.loadFailed own.generation)).history := .inl unbuilt.unheld
    exact safe_report rig unbuilt.built.cons none (.head _) rfl fault
  | none =>
    simp only [LoaderSafe, Protocol.safe_bind, Protocol.safe_modify, Protocol.safe_attempt]
    intro n between inv
    have unbuilt := unbuilt.frame (.interference between)
    refine ⟨.inr (loaderStep rig unbuilt.built (.build n unbuilt.none)), rfl, ?_⟩
    exact (safe_loadBuilt rig script unbuilt.build).mono (fun _ _ => id) fun fault o failing =>
      safe_loadFailed rig failing fault

end Programs

end Loader

/-! ## Arming threads -/

section Arming

variable (rig : Rig) {m : SourceState} {generation : Nat} {source : PolicySource} {task : Option String}

theorem safe_finishArm (armed : .armed generation source task true ∈ m.history)
    (open' : ∀ event ∈ m.history, event.arm ≠ some generation) (warmup : Option Fault) :
    (sourceProtocol rig).Safe (.arming generation) (fun _ _ => True) (fun _ _ => True)
      (ActionSource.finishArm source generation warmup) m := by
  -- A generation that is current and has not ended is still arming.
  have live {n : SourceState} (frame : ArmFrame generation m n) (inv : SourceInv rig n)
      (current : generation = n.armGeneration) : n.arming := by
    subst current
    exact inv.arm.running source task true (frame.mem armed) (frame.forall_mem (fun _ => id) open')
  have step {n o : SourceState} (frame : ArmFrame generation m n) (step : ArmStep generation n o) :
      (sourceProtocol rig).Step (.arming generation) n o := ⟨⟨source, task, true, frame.mem armed⟩, step⟩
  cases warmup with
  | some fault =>
    simp only [ActionSource.finishArm, Protocol.safe_bind, Protocol.safe_act]
    intro n between inv
    have frame := ArmFrame.interference between
    unfold ActionSource.failArmingLocked
    split
    next stale => exact ⟨.inl rfl, rfl, trivial⟩
    next current =>
      rw [not_not] at current
      have failed : ArmStep generation n (n.failArming generation) := .fail n (live frame inv current) current
      refine ⟨.inr (step frame failed), rfl, ?_⟩
      simp only [if_true, ActionSource.emitError, Protocol.safe_modify]
      intro o between' inv'
      have armed : .armed generation source task true ∈ o.history :=
        (ArmFrame.interference between').mem (.tail _ (frame.mem armed))
      exact ⟨.inr ⟨⟨source, task, true, armed⟩, .emit o _⟩, rfl, trivial⟩
  | none =>
    simp only [ActionSource.finishArm, Protocol.safe_bind, Protocol.safe_act]
    intro n between inv
    have frame := ArmFrame.interference between
    unfold ActionSource.switchLocked
    split
    next stale => exact ⟨.inl rfl, rfl, trivial⟩
    next current =>
      simp only [not_or, not_not] at current
      have switched : ArmStep generation n (n.switchToPolicy generation) := .switch n (live frame inv current.1) current.1
      refine ⟨.inr (step frame switched), rfl, ?_⟩
      simp only [if_true, ActionSource.emitState, Protocol.safe_modify]
      intro o between' inv'
      have armed : .armed generation source task true ∈ o.history :=
        (ArmFrame.interference between').mem (.tail _ (frame.mem armed))
      exact ⟨.inr ⟨⟨source, task, true, armed⟩, .emit o _⟩, rfl, trivial⟩

end Arming

end PhysicalAiStudio.Runtime
