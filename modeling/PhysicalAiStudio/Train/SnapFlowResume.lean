import PhysicalAiStudio.Train.SnapFlow

/-! A resumed run is in the phase its callback reports, as the uninterrupted run is. -/

set_option autoImplicit false

namespace PhysicalAiStudio.Train.SnapFlow
open Concurrency Strings

variable {Score Metrics Saved : Type} {lightning : Lightning Score Metrics Saved} {settings : Settings Score}
  {state next : State Score}

/-! ### The phases -/

def Settings.distilled (settings : Settings Score) : Objective where
  snapflowEnabled := true
  snapflowAlpha := settings.alpha
  snapflowLambda := settings.lambda
  snapflowNumInferenceSteps := settings.numInferenceSteps
  trainExpertOnly := true

def configured (lightning : Lightning Score Metrics Saved) (settings : Settings Score) (activated : Bool)
    (built : ModelCheckpoint Score) : ModelCheckpoint Score :=
  if activated then prefixed lightning settings.checkpointPrefix built else built

def Evolved (lightning : Lightning Score Metrics Saved) (settings : Settings Score) (activated : Bool) :
    CheckpointCallback Score → CheckpointCallback Score → Prop
  | .model built, .model callback => ∃ tracking lastModelPath,
      callback = { configured lightning settings activated built with tracking := tracking, lastModelPath := lastModelPath }
  | .other, .other => True
  | _, _ => False

/-- A callback whose checkpoints are ranked among those saved since the switch. -/
inductive Ranked (lightning : Lightning Score Metrics Saved) (settings : Settings Score) : ModelCheckpoint Score → Prop where
  | switched (callback : ModelCheckpoint Score) :
    Ranked lightning settings (prefixed lightning settings.checkpointPrefix (resetTracking lightning callback))
  | saved {callback : ModelCheckpoint Score} (metrics : Metrics) :
    Ranked lightning settings callback → Ranked lightning settings (tracked lightning metrics callback)

structure InPhase (lightning : Lightning Score Metrics Saved) (settings : Settings Score) (state : State Score) : Prop where
  policy : state.policy = if state.callback.activated then settings.distilled else settings.policy
  checkpoints : List.Forall₂ (Evolved lightning settings state.callback.activated) settings.checkpointCallbacks
    state.checkpointCallbacks
  ranked : state.callback.activated = true → settings.scopeBestToPhase = true →
    ∀ callback, .model callback ∈ state.checkpointCallbacks → callback.monitor ≠ none → Ranked lightning settings callback
  once : state.switches = if state.callback.activated then 1 else 0

/-! ### One event -/

theorem resetTracking_cases (lightning : Lightning Score Metrics Saved) (callback : ModelCheckpoint Score) :
    ∃ tracking, resetTracking lightning callback = { callback with tracking := tracking } := by
  unfold resetTracking
  split
  · exact ⟨callback.tracking, rfl⟩
  · exact ⟨_, rfl⟩

/-- Resetting and prefixing a callback of the first phase configures it for the second. -/
theorem evolved_switched {built callback : CheckpointCallback Score} (evolved : Evolved lightning settings false built callback)
    (change : ModelCheckpoint Score → ModelCheckpoint Score)
    (tracking : ∀ model, ∃ kept, change model = { model with tracking := kept }) :
    Evolved lightning settings true built
      ((callback.onModel change).onModel (prefixed lightning settings.checkpointPrefix)) := by
  cases built with
  | other =>
    cases callback with
    | other => trivial
    | model callback => cases evolved
  | model built =>
    cases callback with
    | other => cases evolved
    | model callback =>
      obtain ⟨seen, last, rfl⟩ := evolved
      obtain ⟨kept, changed⟩ := tracking { configured lightning settings false built with
        tracking := seen, lastModelPath := last }
      refine ⟨kept, last, ?_⟩
      show prefixed lightning settings.checkpointPrefix (change _) = _
      rw [changed]
      rfl

theorem evolved_tracked {activated : Bool} {built callback : CheckpointCallback Score} (metrics : Metrics)
    (evolved : Evolved lightning settings activated built callback) :
    Evolved lightning settings activated built (callback.onModel (tracked lightning metrics)) := by
  cases built with
  | other =>
    cases callback with
    | other => trivial
    | model callback => cases evolved
  | model built =>
    cases callback with
    | other => cases evolved
    | model callback =>
      obtain ⟨seen, last, rfl⟩ := evolved
      exact ⟨_, _, rfl⟩

theorem activate_ok {disk : Disk} (done : activate lightning settings disk state = .ok next) :
    next.callback.activated = true ∧ next.policy = settings.distilled ∧ next.switches = state.switches + 1 ∧
      next.checkpointCallbacks = prefixCheckpointFilenames lightning settings
        (if settings.scopeBestToPhase then resetBestTracking lightning state.checkpointCallbacks
        else state.checkpointCallbacks) := by
  unfold activate at done
  split at done
  · cases done
  · simp only [bind, Except.bind, pure, Except.pure] at done
    split at done
    · cases done
    · split at done
      · cases done
      · next enabled =>
        cases done
        unfold Objective.enableSnapflow at enabled
        split at enabled
        · cases enabled
        · split at enabled
          · cases enabled
          · cases enabled
            exact ⟨rfl, rfl, rfl, rfl⟩

theorem InPhase.activate {disk : Disk} (phase : InPhase lightning settings state)
    (first : state.callback.activated = false) (done : activate lightning settings disk state = .ok next) :
    InPhase lightning settings next := by
  obtain ⟨activated, policy, switches, callbacks⟩ := activate_ok done
  -- Before the switch the callbacks have evolved from those that were built.
  have checkpoints := phase.checkpoints
  rw [first] at checkpoints
  have once := phase.once
  rw [first] at once
  constructor
  · rw [activated, policy]
    rfl
  · rw [activated, callbacks]
    unfold prefixCheckpointFilenames
    rw [List.forall₂_map_right_iff]
    split
    · unfold resetBestTracking
      rw [List.forall₂_map_right_iff]
      exact checkpoints.imp fun _ _ evolved => evolved_switched evolved _ (resetTracking_cases lightning)
    · refine checkpoints.imp fun built callback evolved => ?_
      have same := evolved_switched evolved id fun model => ⟨model.tracking, rfl⟩
      cases callback <;> exact same
  · intro _ byPhase callback member monitored
    rw [callbacks, if_pos byPhase] at member
    unfold prefixCheckpointFilenames resetBestTracking at member
    rw [List.map_map, List.mem_map] at member
    obtain ⟨source, _, same⟩ := member
    cases source with
    | other => cases same
    | model source =>
      cases same
      exact .switched source
  · rw [activated, switches, once]
    rfl

theorem InPhase.onStart {disk : Disk} {epochStart : Bool} (phase : InPhase lightning settings state)
    (done : onStart lightning settings disk epochStart state = .ok next) : InPhase lightning settings next := by
  unfold SnapFlow.onStart at done
  split at done
  · cases done
    exact phase
  · next inactive =>
    apply phase.activate _ done
    cases activated : state.callback.activated with
    | false => rfl
    | true => simp [activated] at inactive

theorem InPhase.saved (metrics : Metrics) (phase : InPhase lightning settings state) :
    InPhase lightning settings
      { state with checkpointCallbacks := state.checkpointCallbacks.map (.onModel (tracked lightning metrics)) } where
  policy := phase.policy
  checkpoints := by
    rw [List.forall₂_map_right_iff]
    exact phase.checkpoints.imp fun _ _ evolved => evolved_tracked metrics evolved
  ranked := by
    intro activated byPhase callback member monitored
    obtain ⟨source, old, same⟩ := List.mem_map.mp member
    cases source with
    | other => cases same
    | model source =>
      cases same
      exact .saved metrics (phase.ranked activated byPhase source old monitored)
  once := phase.once

/-! ### Resuming -/

/-- A resume restores the phase: it goes on from a checkpoint of the first phase, or the policy and the templates are
built as the switch would leave them. -/
def Restores (lightning : Lightning Score Metrics Saved) (settings : Settings Score) (state : State Score) : Prop :=
  state.callback.activated = true →
    settings.policy = settings.distilled ∧
      ∀ built, .model built ∈ settings.checkpointCallbacks →
        renamed lightning settings.checkpointPrefix built.filename = built.filename

theorem restoreCallback_eq_iff (documented : lightning.Documented) {activated : Bool} {built callback : ModelCheckpoint Score}
    (evolved : Evolved lightning settings activated (.model built) (.model callback)) :
    restoreCallback lightning (.model built) (callbackState lightning (.model callback)) = .model callback ↔
      (activated = true → renamed lightning settings.checkpointPrefix built.filename = built.filename) := by
  obtain ⟨tracking, last, rfl⟩ := evolved
  simp only [restoreCallback, callbackState]
  rw [documented, CheckpointCallback.model.injEq]
  cases activated with
  | false => exact iff_of_true rfl (fun same => absurd same Bool.false_ne_true)
  | true =>
    simp only [configured, if_true, prefixed, ModelCheckpoint.mk.injEq, true_and, and_true, forall_const]
    exact eq_comm

theorem restored_eq_iff (documented : lightning.Documented) {activated : Bool}
    {built callbacks : List (CheckpointCallback Score)}
    (evolved : List.Forall₂ (Evolved lightning settings activated) built callbacks) :
    List.zipWith (restoreCallback lightning) built (callbacks.map (callbackState lightning)) = callbacks ↔
      (activated = true → ∀ source, .model source ∈ built →
        renamed lightning settings.checkpointPrefix source.filename = source.filename) := by
  induction evolved with
  | nil => simp
  | @cons source callback built callbacks here rest ih =>
    rw [List.map_cons, List.zipWith_cons_cons, List.cons.injEq, ih]
    cases source with
    | other =>
      cases callback with
      | model callback => cases here
      | other => simp [restoreCallback]
    | model source =>
      cases callback with
      | other => cases here
      | model callback =>
        rw [restoreCallback_eq_iff documented here]
        constructor
        · rintro ⟨first, others⟩ switched other member
          cases List.mem_cons.mp member with
          | inl same =>
            cases same
            exact first switched
          | inr member => exact others switched other member
        · intro all
          exact ⟨fun switched => all switched source List.mem_cons_self,
            fun switched other member => all switched other (List.mem_cons_of_mem _ member)⟩

/-- A resume goes on as the run that was not interrupted exactly when it restores the phase. -/
theorem resume_eq_iff (documented : lightning.Documented) (phase : InPhase lightning settings state) :
    resume lightning settings (save lightning state) = state ↔ Restores lightning settings state := by
  have policy := phase.policy
  have checkpoints := restored_eq_iff documented phase.checkpoints
  unfold Restores
  constructor
  · intro same activated
    have callbacks := checkpoints.mp (congrArg State.checkpointCallbacks same)
    have built : settings.policy = state.policy := congrArg State.policy same
    rw [activated, if_pos rfl] at policy
    exact ⟨built.trans policy, callbacks activated⟩
  · intro restores
    have callbacks := checkpoints.mpr fun activated => (restores activated).2
    have built : settings.policy = state.policy := by
      rw [policy]
      split
      · next activated => exact (restores activated).1
      · rfl
    show State.mk state.globalStep state.currentEpoch state.callback settings.policy
      (List.zipWith (restoreCallback lightning) settings.checkpointCallbacks
        (state.checkpointCallbacks.map (callbackState lightning))) state.switches = state
    rw [callbacks, built]

/-! ### Runs -/

def Event.continues : Event Metrics → Bool
  | .resumed => false
  | _ => true

/-- At a point of a run: the run is where it would be without its resumes, and in the phase that is reported. -/
def Continues (lightning : Lightning Score Metrics Saved) (settings : Settings Score) (history : List (Event Metrics)) :
    Prop :=
  (training lightning settings).reached history = (training lightning settings).reached (history.filter Event.continues) ∧
    ∀ state, (training lightning settings).reached history = some state → InPhase lightning settings state

theorem inPhase_initial : InPhase lightning settings (training lightning settings).initial where
  policy := rfl
  checkpoints := by
    show List.Forall₂ (Evolved lightning settings false) settings.checkpointCallbacks settings.checkpointCallbacks
    apply List.forall₂_same.mpr
    intro built _
    cases built with
    | other => trivial
    | model built => exact ⟨built.tracking, built.lastModelPath, rfl⟩
  ranked := fun activated => absurd activated Bool.false_ne_true
  once := rfl

theorem toOption_ok {α : Type} {attempt : Except Error α} {value : α} (done : attempt.toOption = some value) :
    attempt = .ok value := by
  cases attempt with
  | error raised => cases done
  | ok found =>
    cases done
    rfl

theorem InPhase.step {event : Event Metrics} (documented : lightning.Documented) (phase : InPhase lightning settings state)
    (restores : event.continues = false → Restores lightning settings state)
    (done : SnapFlow.step lightning settings state event = some next) : InPhase lightning settings next := by
  cases event with
  | epochStart disk => exact phase.onStart (toOption_ok done)
  | batchStart disk => exact phase.onStart (toOption_ok done)
  | optimizerStep =>
    cases done
    exact ⟨phase.policy, phase.checkpoints, phase.ranked, phase.once⟩
  | epochEnd =>
    cases done
    exact ⟨phase.policy, phase.checkpoints, phase.ranked, phase.once⟩
  | saved metrics =>
    cases done
    exact phase.saved metrics
  | resumed =>
    have same := (resume_eq_iff documented phase).mpr (restores rfl)
    cases Option.some.inj done
    rw [same]
    exact phase

theorem resumed_unchanged (documented : lightning.Documented) {event : Event Metrics}
    (phase : InPhase lightning settings state) (dropped : event.continues = false) :
    SnapFlow.step lightning settings state event = some state ↔ Restores lightning settings state := by
  cases event with
  | resumed =>
    rw [← resume_eq_iff documented phase]
    exact Option.some_inj
  | _ => cases dropped

theorem resumes_continue_iff (documented : lightning.Documented) (history : List (Event Metrics)) :
    (∀ newer older, history = newer ++ older → Continues lightning settings older) ↔
      (training lightning settings).Throughout
        (fun before event => event.continues = false → Restores lightning settings before) history := by
  constructor
  · intro continues
    have unnoticed := (System.reached_filter_iff Event.continues).mp fun newer older same => (continues newer older same).1
    apply (always_iff history).mpr
    intro newer event older split before led dropped
    have phase := (continues (newer ++ [event]) older (by rw [split]; simp)).2 before led
    have unchanged := (always_iff history).mp unnoticed newer event older split before led dropped
    exact (resumed_unchanged documented phase dropped).mp unchanged
  · intro throughout
    have phases := System.invariant_throughout (P := InPhase lightning settings) inPhase_initial
      (fun before event next phase restores stepped => phase.step documented restores stepped) throughout
    have unnoticed := (System.reached_filter_iff Event.continues).mpr (phases.mono fun before event known dropped =>
      (resumed_unchanged documented known.1 dropped).mpr (known.2 dropped))
    intro newer older split
    refine ⟨unnoticed newer older split, ?_⟩
    intro state led
    rw [split] at throughout
    exact System.invariant inPhase_initial
      (fun before event next phase restores stepped => phase.step documented restores stepped) throughout.suffix led

/-! ### A run with one checkpoint callback -/

def plainLightning : Lightning Int Unit (Tracking Int × Text) where
  joinChar := "-".toList
  worst
    | .min => 1000000
    | .max => -1000000
  track callback _ := (callback.tracking, callback.lastModelPath)
  stateDict callback := (callback.tracking, callback.lastModelPath)
  loadStateDict fresh saved := { fresh with tracking := saved.1, lastModelPath := saved.2 }

/-- The backbone is frozen from the start, so the switch changes no set of trained parameters. -/
def switchAtOne : Settings Int where
  boundary := .startStep 1
  alpha := 1 / 2
  lambda := 1 / 10
  numInferenceSteps := 1
  checkpointPrefix := some "snapflow-".toList
  restoreBestTeacher := true
  bestTeacherMonitor := none
  scopeBestToPhase := true
  capable := true
  policy := ⟨false, 1 / 2, 1, 1, true⟩
  checkpointCallbacks :=
    [.model ⟨some "val/loss".toList, .min, some "epoch".toList, ⟨1000000, [], [], none, []⟩, []⟩]

def emptyDisk : Disk := ⟨fun _ => false, fun _ => false⟩

theorem resumed_before_switch :
    Continues plainLightning switchAtOne
      [.batchStart emptyDisk, .optimizerStep, .resumed, (.batchStart emptyDisk : Event Unit)] := by
  have documented : plainLightning.Documented := fun _ _ => rfl
  refine (resumes_continue_iff documented
    [.batchStart emptyDisk, .optimizerStep, .resumed, (.batchStart emptyDisk : Event Unit)]).mpr
      ⟨?_, ?_, ?_, ?_, trivial⟩ [] _ rfl
  · intro _ _ dropped
    cases dropped
  · intro _ _ dropped
    cases dropped
  · intro before led _ activated
    cases Option.some.inj led
    cases activated
  · intro _ _ dropped
    cases dropped

structure Seen where
  activated : Bool
  snapflowEnabled : Bool
  templates : List (Option Text)
  deriving DecidableEq

def seen (state : State Int) : Seen where
  activated := state.callback.activated
  snapflowEnabled := state.policy.snapflowEnabled
  templates := state.checkpointCallbacks.map fun
    | .model callback => callback.filename
    | .other => none

/-- After a resume the callback reports the second phase, and the policy trains the objective of the first. -/
theorem resumed_after_switch :
    ((training plainLightning switchAtOne).reached
      [.batchStart emptyDisk, .resumed, .batchStart emptyDisk, .optimizerStep]).map seen =
        some ⟨true, false, [some "epoch".toList]⟩ ∧
    ((training plainLightning switchAtOne).reached
      [.batchStart emptyDisk, .batchStart emptyDisk, .optimizerStep]).map seen =
        some ⟨true, true, [some "snapflow-epoch".toList]⟩ := by
  decide +kernel

end PhysicalAiStudio.Train.SnapFlow
