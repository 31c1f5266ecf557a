import PhysicalAiStudio.Runtime.ControlSafety

/-! Who disconnects a policy, and how often.

Without a raise, a policy is disconnected by the thread that holds it and by no
other, so the number of disconnects is read off its holder.
-/

set_option autoImplicit false

namespace PhysicalAiStudio.Runtime

open Concurrency

/-! ## Counting disconnects -/

def Event.disconnects (source : PolicySource) : Event → Bool
  | .disconnected _ other => other = source
  | _ => false

def disconnectCount (source : PolicySource) (history : List Event) : Nat := history.countP (·.disconnects source)

/-- A connected policy is attached and was never disconnected, or was disconnected once and is not attached. -/
def OwnedOnce (s : SourceState) : Prop :=
  ∀ source, .connected source ∈ s.history →
    s.policy = some source ∧ disconnectCount source s.history = 0 ∨
      s.policy ≠ some source ∧ disconnectCount source s.history = 1

def AttachedBefore (older : List Event) : Event → Prop
  | .attached _ _ _ => ∀ previous, .detached previous ∉ older
  | _ => True

/-- The teardown takes the policy lock when no loader is between its check and its attachment,
unless its policy is older than the one attached last. -/
def NoneInWindow (older : List Event) : Event → Prop
  | .detached _ => ∀ source, InWindow source older → source.generation < lastAttached older
  | _ => True

theorem disconnectCount_cons (source : PolicySource) (event : Event) (older : List Event) :
    disconnectCount source (event :: older) =
      if event.disconnects source then disconnectCount source older + 1 else disconnectCount source older := by
  simp only [disconnectCount, List.countP_cons]
  split <;> rfl

theorem holder_cons_ne_none {source : PolicySource} {event : Event} {older : List Event}
    (known : holder source older ≠ none) : holder source (event :: older) ≠ none := by
  cases event <;> simp only [holder]
  case built => split <;> simp [known]
  case attached => split; simp; split <;> simp [known]
  case detached => split <;> simp [known]
  case disconnected => split <;> simp [known]
  all_goals exact known

/-- Policies have one owner each, and none is left when a session is over. The control thread may
not have begun its teardown. -/
def OwnershipKept (pool : Pool Job Fault SourceState) : Prop :=
  ((∀ thread ∈ pool.threads, thread.rest.finished ∨
      thread.job = .control ∧ ∀ previous, .detached previous ∉ pool.memory.history) → OwnedOnce pool.memory) ∧
    Always AttachedBefore pool.memory.history ∧
      ∀ previous, .detached previous ∈ pool.memory.history → pool.memory.policy = none

structure CountInv (s : SourceState) : Prop where
  connected : ∀ source, .connected source ∈ s.history → holder source s.history ≠ none
  counted : ¬Raised s.history → ∀ source,
    disconnectCount source s.history = if holder source s.history = some .released then 1 else 0

namespace CountInv

variable {rig : Rig} {s t : SourceState} {event : Event}

theorem moves (inv : CountInv s) (history : t.history = event :: s.history)
    (silent : ∀ source, event.disconnects source = false)
    (held : ∀ source, .connected source = event → holder source s.history ≠ none)
    (released : ∀ source, holder source t.history = some .released ↔ holder source s.history = some .released) :
    CountInv t where
  connected source member := by
    rw [history] at member ⊢
    refine holder_cons_ne_none ?_
    rcases List.mem_cons.mp member with same | old
    · exact held source same
    · exact inv.connected source old
  counted quiet source := by
    have count : disconnectCount source t.history = disconnectCount source s.history := by
      rw [history, disconnectCount_cons, silent source, if_neg (by simp)]
    simp only [released source, count]
    exact inv.counted (fun raised => quiet (history ▸ raised.cons)) source

theorem quiet (inv : CountInv s) (history : t.history = event :: s.history) (still : event.movesPolicy = false)
    (held : ∀ source, .connected source = event → holder source s.history ≠ none) : CountInv t := by
  refine inv.moves history (fun source => ?_) held fun source => ?_
  · cases event <;> first | rfl | cases still
  · rw [history, holder_cons_still still]

theorem disconnected (inv : CountInv s) {own : Key} {source : PolicySource}
    (may : Disconnectable own source s.history) : CountInv (s.log (.disconnected own source)) where
  connected q member := holder_cons_ne_none (inv.connected q ((List.mem_cons.mp member).resolve_left (by simp)))
  counted quiet q := by
    have quiet : ¬Raised s.history := fun raised => quiet raised.cons
    have held : holder source s.history = some (.held own) := may.resolve_right fun late => quiet late.1
    have count := inv.counted quiet q
    simp only [SourceState.log, disconnectCount_cons, Event.disconnects, decide_eq_true_eq, holder]
    by_cases same : source = q
    · subst same
      simp [held] at count ⊢
      exact count
    · simpa [same] using count

theorem control (inv : CountInv s) (owner : OwnerInv s) (step : ControlStep rig s t) : CountInv t := by
  cases step with
  | unset => exact ⟨inv.connected, inv.counted⟩
  | disconnect source may => exact inv.disconnected may
  | detach stopped =>
    refine inv.moves rfl (fun _ => rfl) (by simp) fun source => ?_
    simp only [SourceState.detach, SourceState.log, SourceState.cancelArmingLocked_history, holder]
    split
    next was => simp [(owner.attached source).mp was]
    next => exact Iff.rfl
  | _ => exact inv.quiet rfl rfl (by simp)

theorem loader (inv : CountInv s) (owner : OwnerInv s) {own : PolicySource} (step : LoaderStep own s t) : CountInv t := by
  cases step with
  | disconnect source may => exact inv.disconnected may
  | connect held =>
    refine inv.quiet rfl rfl fun source same => ?_
    cases same
    simp [held]
  | build new =>
    refine inv.moves rfl (fun _ => rfl) (by simp) fun source => ?_
    simp only [SourceState.log, holder]
    split
    next same => simp [← same, new]
    next => exact Iff.rfl
  | attach window held newer =>
    refine inv.moves rfl (fun _ => rfl) (by simp) fun source => ?_
    rw [holder_attach]
    split
    next same => simp [← same, held]
    next =>
      split
      next was => simp [(owner.attached source).mp was]
      next => exact Iff.rfl
  | _ => exact inv.quiet rfl rfl (by simp)

theorem arming (inv : CountInv s) {generation : Nat} (step : ArmStep generation s t) : CountInv t := by
  cases step <;> exact inv.quiet rfl rfl (by simp)

end CountInv

/-! ## After the teardown -/

structure TeardownInv (s : SourceState) : Prop where
  invalidated : .invalidated ∈ s.history → ∀ generation command, .requested generation command ∈ s.history →
    generation < s.loaderGeneration
  detached : ∀ previous, .detached previous ∈ s.history → .invalidated ∈ s.history
  teardown : Always NoneInWindow s.history → ∀ previous, .detached previous ∈ s.history →
    s.policy = none ∧ ∀ source, InWindow source s.history → source.generation < lastAttached s.history
  attached : Always NoneInWindow s.history → Always AttachedBefore s.history

theorem InWindow.older {source : PolicySource} {event : Event} {older : List Event}
    (window : InWindow source (event :: older)) (other : event ≠ .passed source) : InWindow source older :=
  ⟨(List.mem_cons.mp window.passed).resolve_left other.symm, fun e member => window.unsettled e (.tail _ member)⟩

def Event.tearsDown : Event → Bool
  | .requested _ _ | .invalidated | .detached _ | .attached _ _ _ | .passed _ => true
  | _ => false

namespace TeardownInv

variable {rig : Rig} {s t : SourceState} {event : Event}

theorem quiet (inv : TeardownInv s) (history : t.history = event :: s.history)
    (fields : (t.policy, t.loaderGeneration) = (s.policy, s.loaderGeneration)) (still : event.tearsDown = false) :
    TeardownInv t := by
  obtain ⟨policy, generation⟩ := by simpa only [Prod.mk.injEq] using fields
  have attaches : event.attaches = none := by cases event <;> first | rfl | cases still
  constructor
  · intro invalidated g command requested
    rw [history] at invalidated requested
    have invalidated := (List.mem_cons.mp invalidated).resolve_left (by rintro rfl; cases still)
    have requested := (List.mem_cons.mp requested).resolve_left (by rintro rfl; cases still)
    exact generation ▸ inv.invalidated invalidated g command requested
  · intro previous member
    rw [history] at member ⊢
    exact .tail _ (inv.detached previous ((List.mem_cons.mp member).resolve_left (by rintro rfl; cases still)))
  · intro drained previous member
    rw [history] at drained member
    have member := (List.mem_cons.mp member).resolve_left (by rintro rfl; cases still)
    obtain ⟨none, older⟩ := inv.teardown drained.2 previous member
    refine ⟨policy.trans none, fun source window => ?_⟩
    rw [history] at window ⊢
    rw [lastAttached_cons, attaches]
    exact older source (window.older (by rintro rfl; cases still))
  · intro drained
    rw [history] at drained ⊢
    refine ⟨?_, inv.attached drained.2⟩
    cases event with
    | attached => cases still
    | _ => trivial

theorem control (inv : TeardownInv s) (load : LoadInv s) (step : ControlStep rig s t) : TeardownInv t := by
  cases step with
  | unset => exact ⟨inv.invalidated, inv.detached, inv.teardown, inv.attached⟩
  | request command unloaded running =>
    have valid : .invalidated ∉ (s.requestLoad command).history := by
      simpa [SourceState.requestLoad, SourceState.log] using running
    have attached previous : .detached previous ∉ (s.requestLoad command).history := fun member =>
      running (inv.detached previous ((List.mem_cons.mp member).resolve_left (by simp)))
    exact ⟨fun invalidated => absurd invalidated valid, fun previous member => absurd member (attached previous),
      fun _ previous member => absurd member (attached previous), fun drained => ⟨trivial, inv.attached drained.2⟩⟩
  | invalidate =>
    refine ⟨fun _ g command requested => ?_, fun _ _ => .head _, fun drained previous member => ?_,
      fun drained => ⟨trivial, inv.attached drained.2⟩⟩
    · exact Nat.lt_succ_of_le (load.bounded g command ((List.mem_cons.mp requested).resolve_left (by simp)))
    · obtain ⟨none, older⟩ := inv.teardown drained.2 previous ((List.mem_cons.mp member).resolve_left (by simp))
      exact ⟨none, fun source window => older source (window.older (by simp))⟩
  | detach stopped =>
    exact ⟨fun _ g command requested => inv.invalidated stopped g command ((List.mem_cons.mp requested).resolve_left (by simp)),
      fun _ _ => .tail _ stopped, fun drained _ _ => ⟨rfl, fun source window => drained.1 source (window.older (by simp))⟩,
      fun drained => ⟨trivial, inv.attached drained.2⟩⟩
  | _ => exact inv.quiet rfl rfl rfl

theorem loader (inv : TeardownInv s) (owner : OwnerInv s) {own : PolicySource} (built : BuiltBy own s.history)
    (step : LoaderStep own s t) : TeardownInv t := by
  cases step with
  | pass current held =>
    obtain ⟨command, requested, -⟩ := built
    have attached previous : .detached previous ∉ s.history := fun member =>
      absurd (inv.invalidated (inv.detached previous member) _ _ requested) (by omega)
    refine ⟨fun invalidated g command requested => ?_, fun previous member => ?_, fun _ previous member => ?_,
      fun drained => ⟨trivial, inv.attached drained.2⟩⟩
    · exact inv.invalidated ((List.mem_cons.mp invalidated).resolve_left (by simp)) g command
        ((List.mem_cons.mp requested).resolve_left (by simp))
    · exact .tail _ (inv.detached previous ((List.mem_cons.mp member).resolve_left (by simp)))
    · exact absurd ((List.mem_cons.mp member).resolve_left (by simp)) (attached previous)
  | attach window held newer =>
    have attached (drained : Always NoneInWindow s.history) previous : .detached previous ∉ s.history := fun member => by
      have older := (inv.teardown drained previous member).2 own window
      have := owner.order
      omega
    refine ⟨fun invalidated g command requested => ?_, fun previous member => ?_, fun drained previous member => ?_,
      fun drained => ⟨attached drained.2, inv.attached drained.2⟩⟩
    · exact inv.invalidated ((List.mem_cons.mp invalidated).resolve_left (by simp)) g command
        ((List.mem_cons.mp requested).resolve_left (by simp))
    · exact .tail _ (inv.detached previous ((List.mem_cons.mp member).resolve_left (by simp)))
    · exact absurd ((List.mem_cons.mp member).resolve_left (by simp)) (attached drained.2 previous)
  | _ => exact inv.quiet rfl rfl rfl

theorem arming (inv : TeardownInv s) {generation : Nat} (step : ArmStep generation s t) : TeardownInv t := by
  cases step <;> exact inv.quiet rfl rfl rfl

end TeardownInv

/-! ## Every run -/

section Run

variable (rig : Rig) (script : Script) (ticks : List Tick) (shutdownRaises : Option Fault) (schedule : List Nat)

theorem run_counts : CountInv (run rig script ticks shutdownRaises schedule).memory := by
  refine run_invariant rig script ticks shutdownRaises schedule CountInv ⟨(by intros; contradiction), fun _ _ => rfl⟩ ?_ ?_ ?_
  · exact fun s t step inv count => count.control inv.owner step
  · exact fun own s t _ step inv count => count.loader inv.owner step
  · exact fun generation s t step _ count => count.arming step

theorem run_teardown : TeardownInv (run rig script ticks shutdownRaises schedule).memory := by
  refine run_invariant rig script ticks shutdownRaises schedule TeardownInv ⟨(by intros; contradiction), (by intros; contradiction), (by intros; contradiction), fun _ => trivial⟩ ?_ ?_ ?_
  · exact fun s t step inv teardown => teardown.control inv.load step
  · exact fun own s t built step inv teardown => teardown.loader inv.owner built step
  · exact fun generation s t step _ teardown => teardown.arming step

theorem released_of_finished (quiet : ¬Raised (run rig script ticks shutdownRaises schedule).memory.history)
    (finished : ∀ thread ∈ (run rig script ticks shutdownRaises schedule).threads, thread.rest.finished ∨
      thread.job = .control ∧ ∀ previous, .detached previous ∉ (run rig script ticks shutdownRaises schedule).memory.history)
    (source : PolicySource) (own : Key) :
    holder source (run rig script ticks shutdownRaises schedule).memory.history ≠ some (.held own) := by
  intro held
  have valid := run_valid rig script ticks shutdownRaises schedule
  rcases holder_origin held with ⟨generation, rfl, event, member, author⟩ | ⟨rfl, previous, detached⟩
  · obtain ⟨command, requested⟩ := valid.inv.load.authored event member generation author
    obtain ⟨thread, inside, job⟩ := run_thread _ _ _ _ _ (mem_startedJobs.mpr (.inl ⟨_, requested, job_eq_load.mpr rfl⟩))
    have done := valid.finished inside ((finished thread inside).resolve_right fun control => by simp [job] at control)
    rw [show (sourceProtocol rig).key thread.job = .loader generation by rw [job]; rfl] at done
    exact done.1.resolve_right quiet source held
  · obtain ⟨thread, inside, job⟩ := run_thread _ _ _ _ _ (mem_startedJobs.mpr (.inr rfl))
    have done := valid.finished inside ((finished thread inside).resolve_right fun before => before.2 previous detached)
    rw [show (sourceProtocol rig).key thread.job = .control by rw [job]; rfl] at done
    exact done.2.resolve_right quiet source held

end Run

/-- If no loader's `disconnect` raises, and no loader stands between its check and its attachment when
the policy is torn down, then nothing is attached after the teardown, and once the threads have finished
every connected policy is attached or was disconnected once. -/
theorem policies_owned_once (rig : Rig) (script : Script) (ticks : List Tick) (shutdownRaises : Option Fault)
    (schedule : List Nat) (quiet : ¬Raised (run rig script ticks shutdownRaises schedule).memory.history)
    (drained : Always NoneInWindow (run rig script ticks shutdownRaises schedule).memory.history) :
    OwnershipKept (run rig script ticks shutdownRaises schedule) := by
  have inv := (run_valid rig script ticks shutdownRaises schedule).inv
  have counts := run_counts rig script ticks shutdownRaises schedule
  have teardown := run_teardown rig script ticks shutdownRaises schedule
  refine ⟨fun finished source connected => ?_, teardown.attached drained, fun previous member =>
    (teardown.teardown drained previous member).1⟩
  have unheld := released_of_finished rig script ticks shutdownRaises schedule quiet finished source
  have count := counts.counted quiet source
  cases owner : holder source (run rig script ticks shutdownRaises schedule).memory.history with
  | none => exact absurd owner (counts.connected source connected)
  | some state =>
    rw [owner] at count
    cases state with
    | held own => exact absurd owner (unheld own)
    | attached => exact .inl ⟨(inv.owner.attached source).mpr owner, count⟩
    | released =>
      refine .inr ⟨fun attached => ?_, count⟩
      have still := (inv.owner.attached source).mp attached
      simp [still] at owner

def Event.raises : Event → Bool
  | .disconnectRaised (.loader _) => true
  | _ => false

theorem raised_iff {history : List Event} : Raised history ↔ ∃ event ∈ history, event.raises := by
  constructor
  · exact fun ⟨generation, member⟩ => ⟨_, member, rfl⟩
  · rintro ⟨event, member, raises⟩
    cases event with
    | disconnectRaised own =>
      cases own with
      | loader generation => exact ⟨generation, member⟩
      | _ => cases raises
    | _ => cases raises

instance (history : List Event) : Decidable (Raised history) := decidable_of_iff _ raised_iff.symm

def Event.passes : Event → Option PolicySource
  | .passed source => some source
  | _ => none

def Event.detaches : Event → Bool
  | .detached _ => true
  | _ => false

theorem noneInWindow_iff {older : List Event} {event : Event} :
    NoneInWindow older event ↔ event.detaches = true → ∀ passing ∈ older, ∀ source ∈ passing.passes,
      (∀ e ∈ older, e.settles ≠ some source) → source.generation < lastAttached older := by
  have sources : (∀ source, InWindow source older → source.generation < lastAttached older) ↔
      ∀ passing ∈ older, ∀ source ∈ passing.passes,
        (∀ e ∈ older, e.settles ≠ some source) → source.generation < lastAttached older := by
    refine ⟨fun every passing member source passes open' => ?_, fun every source window => ?_⟩
    · cases passing <;> cases passes
      exact every source ⟨member, open'⟩
    · exact every _ window.passed source rfl window.unsettled
  cases event <;> simp only [NoneInWindow, Event.detaches, sources, Bool.false_eq_true, false_implies, true_implies]

instance (older : List Event) (event : Event) : Decidable (NoneInWindow older event) :=
  decidable_of_iff _ noneInWindow_iff.symm

/-- A policy that is attached before the teardown is disconnected by it. -/
theorem policies_owned_once_shutdown :
    OwnedOnce (run aloneRig {} (loadThenHold fun _ => .ok [7]) none (loadBetweenTicks ++ List.replicate 3 0)).memory := by
  have finished : ∀ thread ∈ (run aloneRig {} (loadThenHold fun _ => .ok [7]) none
      (loadBetweenTicks ++ List.replicate 3 0)).threads, thread.rest.finished = true := by decide +kernel
  exact (policies_owned_once aloneRig {} (loadThenHold fun _ => .ok [7]) none (loadBetweenTicks ++ List.replicate 3 0)
    (by decide +kernel) (by decide +kernel)).1 fun thread member => .inl (finished thread member)

/-- The loader passes its check, the session is torn down, and the loader attaches. -/
def lateAttach : List Nat := List.replicate 13 0 ++ List.replicate 4 1 ++ List.replicate 2 0 ++ List.replicate 4 1

/-- A policy can be attached after its session was torn down. -/
theorem late_handover_outlives_session :
    ¬OwnershipKept (run aloneRig {} ((loadThenHold fun _ => .ok [7]).take 1) none lateAttach) := by
  intro kept
  have none := kept.2.2 none (by decide +kernel)
  exact absurd none (by decide +kernel)

end PhysicalAiStudio.Runtime
