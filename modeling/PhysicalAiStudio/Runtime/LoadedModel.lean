import PhysicalAiStudio.Runtime.ControlSafety

/-! Which model a client is left with, after any interleaving of loads. -/

set_option autoImplicit false

namespace PhysicalAiStudio.Runtime

open Concurrency

def Event.skips : Event → Option (Option LoadModelCommand)
  | .skipped command => some (some command)
  | .cleared _ | .requested _ _ => some none
  | _ => none

def lastSkipped (history : List Event) : Option LoadModelCommand := (history.findSome? Event.skips).join

@[simp] theorem lastSkipped_cons (event : Event) (older : List Event) :
    lastSkipped (event :: older) = event.skips.elim (lastSkipped older) id := by
  cases told : event.skips <;> simp [lastSkipped, told]

def Timely (older : List Event) : Event → Prop
  | .attached source _ _ => (lastLoad older).map (·.1) = some source.generation
  | _ => True

/-- A policy of an older request is armed only if the last request has not attached its own. -/
def ArmedNewest (older : List Event) : Event → Prop
  | .armed _ source _ _ => ∀ generation command, lastLoad older = some (generation, command) →
      (∃ other, other.generation = generation ∧ WasAttached other older) → source.generation = generation
  | _ => True

def Job.loads : Job → Bool
  | .load _ _ => true
  | _ => false

def LoadsOver (pool : Pool Job Fault SourceState) : Prop :=
  ∀ thread ∈ pool.threads, thread.job.loads → thread.rest.finished

instance (pool : Pool Job Fault SourceState) : Decidable (LoadsOver pool) := by
  unfold LoadsOver
  infer_instance

theorem timely_iff {older : List Event} {event : Event} :
    Timely older event ↔ ∀ generation ∈ event.attaches, (lastLoad older).map (·.1) = some generation := by
  cases event <;> simp [Timely, Event.attaches]

instance (older : List Event) (event : Event) : Decidable (Timely older event) := decidable_of_iff _ timely_iff.symm

def SourceState.Holds (s : SourceState) (identity : ModelIdentity) : Prop :=
  s.modelLoaded ∧ ∃ source, s.policy = some source ∧ source.identity = identity

structure AnswerInv (s : SourceState) : Prop where
  order : ∀ source, WasAttached source s.history → source.generation ≤ lastAttached s.history
  answered : ∀ generation command, lastLoad s.history = some (generation, command) → .invalidated ∉ s.history →
    (∃ source, source.generation = generation ∧ WasAttached source s.history) →
      s.modelLoaded ∧ ∃ source, s.policy = some source ∧ source.generation = generation
  armed : Always ArmedNewest s.history

theorem wasAttached_cons_of {source : PolicySource} {event : Event} {older : List Event}
    (other : event.attaches = none) : WasAttached source (event :: older) ↔ WasAttached source older := by
  cases event <;> first | (simp; done) | cases other

namespace AnswerInv

variable {rig : Rig} {s t : SourceState} {event : Event}

theorem quiet (inv : AnswerInv s) (history : t.history = event :: s.history)
    (fields : (t.policy, t.modelLoaded) = (s.policy, s.modelLoaded)) (other : event.attaches = none)
    (noLoad : event.loading = none) (sound : ArmedNewest s.history event) : AnswerInv t := by
  obtain ⟨policy, loaded⟩ := by simpa only [Prod.mk.injEq] using fields
  refine ⟨fun source attached => ?_, fun generation command last valid answer => ?_, ?_⟩
  · rw [history, wasAttached_cons_of other] at attached
    rw [history, lastAttached_cons, other]
    exact inv.order source attached
  · rw [history, lastLoad_cons, noLoad] at last
    rw [history, List.mem_cons, not_or] at valid
    rw [loaded, policy]
    simp only [history, wasAttached_cons_of other] at answer
    exact inv.answered generation command last valid.2 answer
  · rw [history]
    exact ⟨sound, inv.armed⟩

theorem unanswered (inv : AnswerInv s) (history : t.history = event :: s.history) (other : event.attaches = none)
    (sound : ArmedNewest s.history event)
    (open' : ∀ generation command, lastLoad t.history = some (generation, command) → .invalidated ∉ t.history →
      ∀ source, source.generation = generation → ¬WasAttached source s.history) : AnswerInv t := by
  refine ⟨fun source attached => ?_, fun generation command last valid answer => ?_, ?_⟩
  · rw [history, wasAttached_cons_of other] at attached
    rw [history, lastAttached_cons, other]
    exact inv.order source attached
  · obtain ⟨source, same, attached⟩ := answer
    rw [history, wasAttached_cons_of other] at attached
    exact absurd attached (open' generation command last valid source same)
  · rw [history]
    exact ⟨sound, inv.armed⟩

theorem control (inv : AnswerInv s) (load : LoadInv s) (step : ControlStep rig s t) : AnswerInv t := by
  cases step with
  | unset unloaded => exact ⟨inv.order, fun g c last => by simp [SourceState.unsetModel, unloaded] at last, inv.armed⟩
  | clear command => exact inv.unanswered rfl rfl trivial (by rintro _ _ ⟨⟩)
  | request command unloaded running =>
    refine inv.unanswered rfl rfl trivial fun g c last _ source same attached => ?_
    cases last
    obtain ⟨previous, mode, member⟩ := attached
    obtain ⟨other, requested⟩ := load.authored _ member _ rfl
    exact absurd (load.bounded _ _ requested) (by omega)
  | invalidate => exact inv.unanswered rfl rfl trivial fun _ _ _ valid => absurd (.head _) valid
  | detach stopped => exact inv.unanswered rfl rfl trivial fun _ _ _ valid => absurd (.tail _ stopped) valid
  | arm source task attached valid =>
    refine inv.quiet rfl rfl rfl rfl fun g c last answer => ?_
    obtain ⟨-, other, same, generation⟩ := inv.answered g c last valid answer
    exact Option.some.inj (attached.symm.trans same) ▸ generation
  | _ => exact inv.quiet rfl rfl rfl rfl trivial

theorem loader (inv : AnswerInv s) (load : LoadInv s) (owner : OwnerInv s) {own : PolicySource}
    (built : BuiltBy own s.history) (step : LoaderStep own s t) : AnswerInv t := by
  cases step with
  | attach window held newer =>
    rw [owner.order] at newer
    have attached q : WasAttached q (s.attach own own.generation own.identity).history ↔
        own = q ∨ WasAttached q s.history := by simp [SourceState.attach, SourceState.log]
    have last : lastAttached (s.attach own own.generation own.identity).history = own.generation := by
      simp [SourceState.attach, SourceState.log, Event.attaches]
    refine ⟨fun source was => ?_, fun g c last valid answer => ⟨rfl, own, rfl, ?_⟩, ⟨trivial, inv.armed⟩⟩
    · rw [last]
      rcases (attached source).mp was with rfl | before
      · exact le_rfl
      · exact (inv.order source before).trans newer
    · have valid : .invalidated ∉ s.history := fun member => valid (.tail _ member)
      have current := (load.newest g c last).2 valid
      have bound := load.generation_le built
      obtain ⟨source, same, was⟩ := answer
      rcases (attached source).mp was with rfl | before
      · exact same
      · have := inv.order source before
        omega
  | _ => exact inv.quiet rfl rfl rfl rfl trivial

theorem arming (inv : AnswerInv s) {generation : Nat} (step : ArmStep generation s t) : AnswerInv t := by
  cases step <;> exact inv.quiet rfl rfl rfl rfl trivial

end AnswerInv

/-! ## The identity, and skipped requests -/

/-- In a run whose attachments are timely, what a request would be skipped for is loaded. -/
structure IdentityInv (s : SourceState) : Prop where
  loaded : ∀ identity, s.loadedIdentity = some identity → s.modelLoaded ∧ ∃ source command,
    s.policy = some source ∧ source.identity = identity ∧ lastLoad s.history = some (source.generation, command)
  skipped : ∀ command, lastSkipped s.history = some command → .invalidated ∉ s.history →
    s.modelLoaded ∧ ∃ source other, s.policy = some source ∧ source.identity = modelIdentity command ∧
      lastLoad s.history = some (source.generation, other)

namespace IdentityInv

variable {rig : Rig} {s t : SourceState} {event : Event}

theorem quiet (inv : IdentityInv s) (history : t.history = event :: s.history)
    (fields : (t.policy, t.modelLoaded) = (s.policy, s.modelLoaded))
    (identity : t.loadedIdentity = s.loadedIdentity ∨ t.loadedIdentity = none)
    (still : event.loading = none ∧ event.skips = none) : IdentityInv t := by
  obtain ⟨policy, loaded⟩ := by simpa only [Prod.mk.injEq] using fields
  obtain ⟨noLoad, noSkip⟩ := still
  refine ⟨fun id known => ?_, fun command last valid => ?_⟩
  · rw [loaded, policy, history, lastLoad_cons, noLoad]
    rcases identity with same | none
    · exact inv.loaded id (same ▸ known)
    · simp [none] at known
  · rw [history, lastSkipped_cons, noSkip] at last
    rw [history, List.mem_cons, not_or] at valid
    rw [loaded, policy, history, lastLoad_cons, noLoad]
    exact inv.skipped command last valid.2

theorem unloaded (inv : IdentityInv s) (none : lastLoad s.history = none) :
    s.loadedIdentity = Option.none ∧ (.invalidated ∉ s.history → lastSkipped s.history = Option.none) := by
  constructor
  · cases known : s.loadedIdentity with
    | none => rfl
    | some identity =>
      obtain ⟨-, source, command, -, -, last⟩ := inv.loaded identity known
      simp [none] at last
  · intro valid
    cases known : lastSkipped s.history with
    | none => rfl
    | some command =>
      obtain ⟨-, source, other, -, -, last⟩ := inv.skipped command known valid
      simp [none] at last

theorem control (inv : IdentityInv s) (step : ControlStep rig s t) : IdentityInv t := by
  cases step with
  | unset unloaded =>
    obtain ⟨noIdentity, noSkip⟩ := inv.unloaded unloaded
    exact ⟨fun id known => absurd (noIdentity.symm.trans known) (by simp),
      fun command last valid => absurd ((noSkip valid).symm.trans last) (by simp)⟩
  | clear command => exact ⟨by rintro _ ⟨⟩, by rintro _ ⟨⟩⟩
  | request command unloaded =>
    obtain ⟨noIdentity, -⟩ := inv.unloaded unloaded
    exact ⟨fun id known => absurd (noIdentity.symm.trans known) (by simp), by rintro _ ⟨⟩⟩
  | skip command same =>
    refine ⟨inv.loaded, fun command' last valid => ?_⟩
    cases last
    exact inv.loaded _ same
  | detach stopped => exact ⟨by rintro _ ⟨⟩, fun _ _ valid => absurd (.tail _ stopped) valid⟩
  | failInference source => exact inv.quiet rfl rfl (.inr rfl) ⟨rfl, rfl⟩
  | _ => exact inv.quiet rfl rfl (.inl rfl) ⟨rfl, rfl⟩

theorem loader (inv : IdentityInv s) (load : LoadInv s) (owner : OwnerInv s) {own : PolicySource}
    (built : BuiltBy own s.history) (step : LoaderStep own s t) (timely : Always Timely t.history) : IdentityInv t := by
  cases step with
  | attach window held newer =>
    have answers : (lastLoad s.history).map (·.1) = some own.generation := timely.1
    obtain ⟨⟨generation, command⟩, last, same⟩ := Option.map_eq_some_iff.mp answers
    cases same
    refine ⟨fun id known => ?_, fun skipped last' valid => ?_⟩
    · cases known
      exact ⟨rfl, own, command, rfl, rfl, last⟩
    · -- the skip found the policy of this very request attached already
      have valid : .invalidated ∉ s.history := fun member => valid (.tail _ member)
      obtain ⟨-, source, other, attached, -, last''⟩ := inv.skipped skipped last' valid
      rw [last] at last''
      have was := (owner.attached source).mp attached
      have same := load.source_eq built (owner.built source (by simp [was])) (Prod.mk.inj (Option.some.inj last'')).1
      obtain ⟨previous, mode, member⟩ := owner.wasAttached source was
      exact absurd rfl (window.unsettled _ (same ▸ member))
  | _ => exact inv.quiet rfl rfl (.inl rfl) ⟨rfl, rfl⟩

theorem arming (inv : IdentityInv s) {generation : Nat} (step : ArmStep generation s t) : IdentityInv t := by
  cases step <;> exact inv.quiet rfl rfl (.inl rfl) ⟨rfl, rfl⟩

end IdentityInv

/-! ## Every run -/

section Run

variable (rig : Rig) (script : Script) (ticks : List Tick) (shutdownRaises : Option Fault) (schedule : List Nat)

theorem run_answers : AnswerInv (run rig script ticks shutdownRaises schedule).memory := by
  refine run_invariant rig script ticks shutdownRaises schedule AnswerInv ⟨?_, (by intros; contradiction), trivial⟩ ?_ ?_ ?_
  · rintro source ⟨_, _, ⟨⟩⟩
  · exact fun s t step inv answer => answer.control inv.load step
  · exact fun own s t built step inv answer => answer.loader inv.load inv.owner built step
  · exact fun generation s t step _ answer => answer.arming step

theorem run_identity (timely : Always Timely (run rig script ticks shutdownRaises schedule).memory.history) :
    IdentityInv (run rig script ticks shutdownRaises schedule).memory := by
  refine run_invariant rig script ticks shutdownRaises schedule (fun s => Always Timely s.history → IdentityInv s)
    (fun _ => ⟨(by intros; contradiction), (by intros; contradiction)⟩) ?_ ?_ ?_ timely
  · exact fun s t step _ identity timely => (identity (step.suffix timely)).control step
  · exact fun own s t built step inv identity timely =>
      (identity (step.suffix timely)).loader inv.load inv.owner built step timely
  · exact fun generation s t step _ identity timely => (identity (step.suffix timely)).arming step

/-- A load that has ended and is still the last one, without a failure, has attached its policy. -/
theorem run_holds_last (loadsOver : LoadsOver (run rig script ticks shutdownRaises schedule))
    (running : .invalidated ∉ (run rig script ticks shutdownRaises schedule).memory.history) {generation : Nat}
    {command : LoadModelCommand}
    (last : lastLoad (run rig script ticks shutdownRaises schedule).memory.history = some (generation, command))
    (built : .loadFailed generation ∉ (run rig script ticks shutdownRaises schedule).memory.history) :
    (run rig script ticks shutdownRaises schedule).memory.Holds (modelIdentity command) := by
  have valid := run_valid rig script ticks shutdownRaises schedule
  obtain ⟨requested, current⟩ := valid.inv.load.newest generation command last
  obtain ⟨thread, inside, job⟩ := run_thread _ _ _ _ _ (mem_startedJobs.mpr (.inl ⟨_, requested, job_eq_load.mpr rfl⟩))
  have done := valid.finished inside (loadsOver thread inside (by rw [job]; rfl))
  rw [show (sourceProtocol rig).key thread.job = .loader generation by rw [job]; rfl] at done
  have attached : ∃ source, source.generation = generation ∧
      WasAttached source (run rig script ticks shutdownRaises schedule).memory.history := by
    rcases done.2 with attached | failed | superseded
    · exact attached
    · exact absurd failed built
    · exact absurd (current running) superseded.ne
  obtain ⟨loaded, source, policy, same⟩ :=
    (run_answers rig script ticks shutdownRaises schedule).answered generation command last running attached
  have owner := (valid.inv.owner.attached source).mp policy
  obtain ⟨command', requested', identity⟩ := valid.inv.owner.built source (by simp [owner])
  refine ⟨loaded, source, policy, ?_⟩
  rw [identity, valid.inv.load.unique generation command' command (same ▸ requested') requested]

end Run

/-- Once no load is in flight, the last request that was not skipped has its model attached unless it failed.
If each policy is attached while its request is the last one handled, the identity kept for skipping is
that of the policy attached, and a skipped request finds its model loaded. A policy of an older request
is armed only if the last one has not attached its own. -/
theorem loads_leave_last_model (rig : Rig) (script : Script) (ticks : List Tick) (shutdownRaises : Option Fault)
    (schedule : List Nat) :
    let pool := run rig script ticks shutdownRaises schedule
    Always ArmedNewest pool.memory.history ∧
      (LoadsOver pool → .invalidated ∉ pool.memory.history →
          (∀ generation command, lastLoad pool.memory.history = some (generation, command) →
            .loadFailed generation ∉ pool.memory.history → pool.memory.Holds (modelIdentity command)) ∧
          (Always Timely pool.memory.history →
            (∀ identity, pool.memory.loadedIdentity = some identity → pool.memory.Holds identity) ∧
              ∀ command, lastSkipped pool.memory.history = some command → pool.memory.Holds (modelIdentity command))) := by
  intro pool
  refine ⟨(run_answers rig script ticks shutdownRaises schedule).armed, fun loadsOver running =>
    ⟨fun generation command last built => run_holds_last _ _ _ _ _ loadsOver running last built, fun timely => ?_⟩⟩
  have inv := run_identity rig script ticks shutdownRaises schedule timely
  constructor
  · intro identity known
    obtain ⟨loaded, source, -, policy, same, -⟩ := inv.loaded identity known
    exact ⟨loaded, source, policy, same⟩
  · intro command last
    obtain ⟨loaded, source, -, policy, same, -⟩ := inv.skipped command last running
    exact ⟨loaded, source, policy, same⟩

theorem loads_leave_last_model_once :
    (run aloneRig {} (loadThenHold fun _ => .ok [7]) none loadBetweenTicks).memory.Holds (modelIdentity sampleLoad) := by
  have kept := (loads_leave_last_model aloneRig {} (loadThenHold fun _ => .ok [7]) none loadBetweenTicks).2
    (by decide +kernel) (by decide +kernel)
  exact (kept.2 (by decide +kernel)).1 _ (by decide +kernel)

def ArmsLast (older : List Event) : Event → Prop
  | .armed _ source _ _ => ∀ request ∈ lastLoad older, source.generation = request.1
  | _ => True

/-- The law of loads without regard to failures and to overlapping requests. -/
def LoadLaw (pool : Pool Job Fault SourceState) : Prop :=
  LoadsOver pool → .invalidated ∉ pool.memory.history →
    (∀ identity, pool.memory.loadedIdentity = some identity → pool.memory.Holds identity) ∧
      (∀ command, lastSkipped pool.memory.history = some command → pool.memory.Holds (modelIdentity command)) ∧
      (∀ generation command, lastLoad pool.memory.history = some (generation, command) →
        .loadFailed generation ∉ pool.memory.history → pool.memory.Holds (modelIdentity command)) ∧
      Always ArmsLast pool.memory.history

instance (older : List Event) (event : Event) : Decidable (ArmsLast older event) := by
  unfold ArmsLast
  split <;> infer_instance

def failedReload : List Tick :=
  [{ jointPositions := [0], commands := [{ command := .loadModel sampleLoad }] },
    { jointPositions := [0], commands := [{ command := .loadModel { sampleLoad with modelId := 2 } }] },
    { jointPositions := [0], commands := [{ command := .startTask "pick" }] }]

def secondExportMissing : Script where
  load generation := { build := if generation = 2 then some (.fileNotFound "models/2") else none }

def failedReloadSchedule : List Nat :=
  List.replicate 13 0 ++ List.replicate 8 1 ++ List.replicate 13 0 ++ List.replicate 4 2 ++ List.replicate 3 0

/-- Two models are requested in turn, and then the first one again. -/
def overlappingLoads : List Tick :=
  [{ jointPositions := [0], commands := [{ command := .loadModel sampleLoad }] },
    { jointPositions := [0], commands := [{ command := .loadModel { sampleLoad with modelId := 2 } }] },
    { jointPositions := [0], commands := [{ command := .loadModel sampleLoad }] }]

/-- The first loader passes its check before the second request and attaches after it. -/
def overlappingSchedule : List Nat :=
  List.replicate 13 0 ++ List.replicate 4 1 ++ List.replicate 13 0 ++ List.replicate 4 1 ++ List.replicate 2 0 ++
    List.replicate 8 2

/-- After a failed load the policy of an older request is armed, and when loads overlap a request is
skipped for a model that is about to be replaced. -/
theorem load_law_fails :
    ¬LoadLaw (run aloneRig secondExportMissing failedReload none failedReloadSchedule) ∧
      ¬LoadLaw (run aloneRig {} overlappingLoads none overlappingSchedule) := by
  constructor
  · intro law
    obtain ⟨-, -, -, armed⟩ := law (by decide +kernel) (by decide +kernel)
    exact absurd armed (by decide +kernel)
  · intro law
    obtain ⟨-, skipped, -, -⟩ := law (by decide +kernel) (by decide +kernel)
    obtain ⟨-, source, attached, identity⟩ := skipped sampleLoad (by decide +kernel)
    have second : (run aloneRig {} overlappingLoads none overlappingSchedule).memory.policy =
        some ⟨2, 2, .torch, "cpu"⟩ := by decide +kernel
    cases second.symm.trans attached
    exact absurd identity (by decide)

end PhysicalAiStudio.Runtime
