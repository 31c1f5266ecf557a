import PhysicalAiStudio.Runtime.SourceProtocol

/-! What holds between any two actions of an action source.

The invariant ties the fields to the history, one group for each concern: the
requests, the owners of the policies, the arming and the modes. A change that
touches no field of a group and leaves no event the group reads keeps it.
-/

set_option autoImplicit false

namespace PhysicalAiStudio.Runtime

open Concurrency

@[simp] theorem SourceState.cancelArmingLocked_history (s : SourceState) :
    s.cancelArmingLocked.history = s.history := rfl

/-! ## Views of a longer history -/

section Views

variable (event : Event) (older : List Event)

@[simp] theorem startedJobs_cons :
    startedJobs (event :: older) = event.job.toList ++ startedJobs older := by
  cases started : event.job <;> simp [startedJobs, started]

@[simp] theorem lastLoad_cons :
    lastLoad (event :: older) = event.loading.elim (lastLoad older) id := by
  cases told : event.loading <;> simp [lastLoad, told]

@[simp] theorem liveArming_cons :
    liveArming (event :: older) = event.arming.elim (liveArming older) id := by
  cases told : event.arming <;> simp [liveArming, told]

@[simp] theorem publishedTask_cons :
    publishedTask (event :: older) = event.task.elim (publishedTask older) id := by
  cases told : event.task <;> simp [publishedTask, told]

@[simp] theorem withdrawn_cons :
    withdrawn (event :: older) = event.withdraws.elim (withdrawn older) id := by
  cases told : event.withdraws <;> simp [withdrawn, told]

@[simp] theorem lastAttached_cons :
    lastAttached (event :: older) = event.attaches.elim (lastAttached older) id := by
  cases told : event.attaches <;> simp [lastAttached, told]

theorem currentTick_cons :
    currentTick (event :: older) = if event.measures.isSome then [] else event :: currentTick older := by
  cases ticked : event.measures <;> simp [currentTick, ticked]

variable {event older} {source : PolicySource}

@[simp] theorem wasAttached_cons : WasAttached source (event :: older) ↔
    (∃ previous mode, event = .attached source previous mode) ∨ WasAttached source older := by
  simp only [WasAttached, List.mem_cons, exists_or, eq_comm]

theorem WasAttached.cons (attached : WasAttached source older) : WasAttached source (event :: older) :=
  wasAttached_cons.mpr (.inr attached)

theorem Raised.cons (raised : Raised older) : Raised (event :: older) := by
  obtain ⟨generation, member⟩ := raised
  exact ⟨generation, .tail _ member⟩

theorem BuiltBy.cons (built : BuiltBy source older) : BuiltBy source (event :: older) := by
  obtain ⟨command, member, same⟩ := built
  exact ⟨command, .tail _ member, same⟩

end Views

/-! ## Requests -/

structure LoadInv (s : SourceState) : Prop where
  bounded : ∀ generation command, .requested generation command ∈ s.history → generation ≤ s.loaderGeneration
  unique : ∀ generation one other, .requested generation one ∈ s.history →
    .requested generation other ∈ s.history → one = other
  authored : ∀ event ∈ s.history, ∀ generation, event.loader = some generation →
    ∃ command, .requested generation command ∈ s.history
  newest : ∀ generation command, lastLoad s.history = some (generation, command) →
    .requested generation command ∈ s.history ∧ (.invalidated ∉ s.history → generation = s.loaderGeneration)

namespace LoadInv

variable {s t : SourceState} {event : Event} {rig : Rig}

theorem generation_le (inv : LoadInv s) {source : PolicySource} (built : BuiltBy source s.history) :
    source.generation ≤ s.loaderGeneration := by
  obtain ⟨command, member, -⟩ := built
  exact inv.bounded _ _ member

theorem source_eq (inv : LoadInv s) {one other : PolicySource} (first : BuiltBy one s.history)
    (second : BuiltBy other s.history) (same : one.generation = other.generation) : one = other := by
  obtain ⟨command, member, identity⟩ := first
  obtain ⟨command', member', identity'⟩ := second
  rw [same] at member
  have commands := inv.unique _ _ _ member member'
  cases one; cases other
  simp_all

theorem quiet (inv : LoadInv s) (history : t.history = event :: s.history) (generation : t.loaderGeneration = s.loaderGeneration)
    (noJob : ∀ generation command, event ≠ .requested generation command) (noLoad : event.loading = none)
    (authored : ∀ generation, event.loader = some generation → ∃ command, .requested generation command ∈ s.history) :
    LoadInv t where
  bounded g c member := by
    simp only [history, List.mem_cons, (noJob g c).symm, false_or] at member
    exact generation ▸ inv.bounded g c member
  unique g c d one other := by
    simp only [history, List.mem_cons, (noJob g _).symm, false_or] at one other
    exact inv.unique g c d one other
  authored e member g author := by
    simp only [history, List.mem_cons] at member
    have known : ∃ command, .requested g command ∈ s.history := by
      rcases member with rfl | member
      · exact authored g author
      · exact inv.authored e member g author
    exact known.imp fun command requested => history ▸ .tail _ requested
  newest g c last := by
    simp only [history, lastLoad_cons, noLoad, Option.elim_none] at last
    obtain ⟨member, current⟩ := inv.newest g c last
    simp only [history, generation, List.mem_cons, not_or]
    exact ⟨.inr member, fun running => current running.2⟩

theorem control (inv : LoadInv s) (step : ControlStep rig s t) : LoadInv t := by
  cases step with
  | unset unloaded => exact ⟨inv.bounded, inv.unique, inv.authored, inv.newest⟩
  | clear command =>
    refine ⟨?_, ?_, ?_, ?_⟩ <;> simp [SourceState.clearIdentity, SourceState.log, Event.loader, Event.loading]
    · exact inv.bounded
    · exact inv.unique
    · exact inv.authored
  | request command unloaded running =>
    have fresh c : .requested (s.loaderGeneration + 1) c ∉ s.history := fun member =>
      absurd (inv.bounded _ _ member) (by omega)
    refine ⟨?_, ?_, ?_, ?_⟩ <;> simp [SourceState.requestLoad, SourceState.log, Event.loader, Event.loading]
    · rintro g c (⟨rfl, rfl⟩ | member)
      · exact le_rfl
      · exact (inv.bounded g c member).trans (by omega)
    · rintro g c d (⟨rfl, rfl⟩ | one) (⟨same, rfl⟩ | other)
      · rfl
      · exact absurd other (fresh d)
      · exact absurd (same ▸ one) (fresh c)
      · exact inv.unique g c d one other
    · exact fun e member g author => (inv.authored e member g author).imp fun _ => .inr
  | invalidate =>
    refine ⟨?_, ?_, ?_, ?_⟩ <;> simp [SourceState.invalidateLoads, SourceState.log, Event.loader, Event.loading]
    · exact fun g c member => (inv.bounded g c member).trans (by omega)
    · exact inv.unique
    · exact inv.authored
    · exact fun g c last => (inv.newest g c last).1
  | _ => exact inv.quiet rfl rfl (by simp) rfl (by simp [Event.loader])

theorem loader (inv : LoadInv s) {own : PolicySource} (built : BuiltBy own s.history) (step : LoaderStep own s t) :
    LoadInv t := by
  obtain ⟨command, requested, -⟩ := built
  cases step with
  | emit => exact inv.quiet rfl rfl (by simp) rfl (by intros; contradiction)
  | _ => exact inv.quiet rfl rfl (by simp) rfl (by rintro _ ⟨⟩; exact ⟨command, requested⟩)

theorem arming (inv : LoadInv s) {generation : Nat} (step : ArmStep generation s t) : LoadInv t := by
  cases step <;> exact inv.quiet rfl rfl (by simp) rfl (by simp [Event.loader])

end LoadInv

/-! ## Owners -/

structure OwnerInv (s : SourceState) : Prop where
  attached : ∀ source, s.policy = some source ↔ holder source s.history = some .attached
  built : ∀ source, holder source s.history ≠ none → BuiltBy source s.history
  wasAttached : ∀ source, holder source s.history = some .attached → WasAttached source s.history
  kept : ∀ source, WasAttached source s.history → holder source s.history ≠ none
  first : ∀ source own, holder source s.history = some (.held own) →
    own = .loader source.generation ∨ WasAttached source s.history
  order : s.attachedGeneration = lastAttached s.history
  bounded : lastAttached s.history ≤ s.loaderGeneration

def Event.movesPolicy : Event → Bool
  | .built _ | .attached _ _ _ | .detached _ | .disconnected _ _ => true
  | _ => false

section Still

variable {event : Event} (still : event.movesPolicy = false)

include still

theorem holder_cons_still (source : PolicySource) (older : List Event) :
    holder source (event :: older) = holder source older := by
  cases event <;> first | rfl | cases still

theorem wasAttached_cons_still (source : PolicySource) (older : List Event) :
    WasAttached source (event :: older) ↔ WasAttached source older := by
  cases event <;> first | (simp; done) | cases still

theorem attaches_eq_none : event.attaches = none := by
  cases event <;> first | rfl | cases still

end Still

namespace OwnerInv

variable {s t : SourceState} {event : Event} {rig : Rig}

theorem quiet (inv : OwnerInv s) (history : t.history = event :: s.history) (policy : t.policy = s.policy)
    (attachedGeneration : t.attachedGeneration = s.attachedGeneration)
    (loaderGeneration : s.loaderGeneration ≤ t.loaderGeneration) (still : event.movesPolicy = false) :
    OwnerInv t where
  attached q := by rw [history, holder_cons_still still, policy, inv.attached]
  built q held := by
    rw [history, holder_cons_still still] at held
    exact history ▸ (inv.built q held).cons
  wasAttached q held := by
    rw [history, holder_cons_still still] at held
    exact history ▸ (inv.wasAttached q held).cons
  kept q attached := by
    rw [history, wasAttached_cons_still still] at attached
    rw [history, holder_cons_still still]
    exact inv.kept q attached
  first q own held := by
    rw [history, holder_cons_still still] at held
    rw [history, wasAttached_cons_still still]
    exact inv.first q own held
  order := by rw [history, lastAttached_cons, attaches_eq_none still, attachedGeneration, inv.order]; rfl
  bounded := by
    rw [history, lastAttached_cons, attaches_eq_none still]
    exact inv.bounded.trans loaderGeneration

/-- Disconnecting takes away what a thread held, and nothing that is attached. -/
theorem disconnected (inv : OwnerInv s) {own : Key} {source : PolicySource}
    (may : Disconnectable own source s.history) : OwnerInv (s.log (.disconnected own source)) := by
  -- What may be disconnected has been built.
  have known : holder source s.history ≠ none := by
    rcases may with held | ⟨-, attached | released⟩
    · simp [held]
    · exact inv.kept source attached
    · simp [released]
  refine ⟨fun q => ?_, fun q held => ?_, fun q held => ?_, fun q attached => ?_, fun q k held => ?_, inv.order,
    inv.bounded⟩
  · have same := inv.attached q
    simp only [SourceState.log, holder]
    split
    next released => simp [same, released.2]
    next => exact same
  · simp only [SourceState.log, holder] at held ⊢
    split at held
    next released => exact (inv.built q (released.1 ▸ known)).cons
    next => exact (inv.built q held).cons
  · simp only [SourceState.log, holder] at held
    split at held
    next => simp at held
    next => exact (inv.wasAttached q held).cons
  · have before := inv.kept q (by simpa [SourceState.log] using attached)
    simp only [SourceState.log, holder]
    split
    next => simp
    next => exact before
  · simp only [SourceState.log, holder] at held
    split at held
    next => cases held
    next => exact (inv.first q k held).imp_right WasAttached.cons

theorem control (inv : OwnerInv s) (step : ControlStep rig s t) : OwnerInv t := by
  cases step with
  | unset unloaded => exact ⟨inv.attached, inv.built, inv.wasAttached, inv.kept, inv.first, inv.order, inv.bounded⟩
  | detach stopped =>
    refine ⟨fun q => ?_, fun q held => ?_, fun q held => ?_, fun q attached => ?_, fun q k held => ?_, inv.order,
      inv.bounded⟩
    · have same := inv.attached q
      simp only [SourceState.detach, SourceState.log, SourceState.cancelArmingLocked, holder]
      split
      next => simp
      next other => simpa [other] using same
    · simp only [SourceState.detach, SourceState.log, SourceState.cancelArmingLocked, holder] at held ⊢
      split at held
      next was => exact (inv.built q (by simp [(inv.attached q).mp was])).cons
      next => exact (inv.built q held).cons
    · simp only [SourceState.detach, SourceState.log, SourceState.cancelArmingLocked, holder] at held
      split at held
      next => simp at held
      next => exact (inv.wasAttached q held).cons
    · have before := inv.kept q (by simpa [SourceState.detach, SourceState.log] using attached)
      simp only [SourceState.detach, SourceState.log, SourceState.cancelArmingLocked, holder]
      split
      next => simp
      next => exact before
    · simp only [SourceState.detach, SourceState.log, SourceState.cancelArmingLocked, holder] at held ⊢
      split at held
      next was => exact .inr (inv.wasAttached q ((inv.attached q).mp was)).cons
      next => exact (inv.first q k held).imp_right WasAttached.cons
  | disconnect source may => exact inv.disconnected may
  | request => exact inv.quiet rfl rfl rfl (Nat.le_succ _) rfl
  | invalidate => exact inv.quiet rfl rfl rfl (Nat.le_succ _) rfl
  | _ => exact inv.quiet rfl rfl rfl le_rfl rfl

theorem loader (inv : OwnerInv s) (load : LoadInv s) {own : PolicySource} (built : BuiltBy own s.history)
    (step : LoaderStep own s t) : OwnerInv t := by
  cases step with
  | build new =>
    have changed q : holder q (.built own :: s.history) =
        if own = q then some (.held (.loader q.generation)) else holder q s.history := rfl
    refine ⟨fun q => ?_, fun q held => ?_, fun q held => ?_, fun q attached => ?_, fun q k held => ?_, inv.order,
      inv.bounded⟩
    · have same := inv.attached q
      simp only [SourceState.log, changed]
      split
      next self => simpa [← self, new] using same
      next => exact same
    · simp only [SourceState.log, changed] at held ⊢
      split at held
      next self => exact self ▸ built.cons
      next => exact (inv.built q held).cons
    · simp only [SourceState.log, changed] at held
      split at held
      next => simp at held
      next => exact (inv.wasAttached q held).cons
    · have before := inv.kept q (by simpa [SourceState.log] using attached)
      simp only [SourceState.log, changed]
      split
      next => simp
      next => exact before
    · simp only [SourceState.log, changed] at held ⊢
      split at held
      next =>
        cases held
        exact .inl rfl
      next => exact (inv.first q k held).imp_right WasAttached.cons
  | attach window held newer =>
    have changed q : holder q (.attached own s.policy s.followerSource :: s.history) =
        if own = q then some .attached else if s.policy = some q then some (.held (.loader own.generation))
        else holder q s.history := rfl
    refine ⟨fun q => ?_, fun q held => ?_, fun q held => ?_, fun q attached => ?_, fun q k held => ?_, ?_, ?_⟩
    · have same := inv.attached q
      simp only [SourceState.attach, SourceState.log, SourceState.cancelArmingLocked, changed]
      split
      next self => simp [self]
      next other =>
        split
        next => simp [other]
        next displaced => simpa [other, displaced] using same
    · simp only [SourceState.attach, SourceState.log, SourceState.cancelArmingLocked, changed] at held ⊢
      split at held
      next self => exact self ▸ built.cons
      next =>
        split at held
        next was => exact (inv.built q (by simp [(inv.attached q).mp was])).cons
        next => exact (inv.built q held).cons
    · simp only [SourceState.attach, SourceState.log, SourceState.cancelArmingLocked, changed] at held ⊢
      split at held
      next self => simp [self]
      next =>
        split at held
        next => simp at held
        next => exact (inv.wasAttached q held).cons
    · have before : own = q ∨ WasAttached q s.history := by simpa [SourceState.attach, SourceState.log] using attached
      simp only [SourceState.attach, SourceState.log, SourceState.cancelArmingLocked, changed]
      split
      next => simp
      next other =>
        split
        next => simp
        next => exact inv.kept q (before.resolve_left other)
    · simp only [SourceState.attach, SourceState.log, SourceState.cancelArmingLocked, changed] at held ⊢
      split at held
      next => cases held
      next =>
        split at held
        next was => exact .inr (inv.wasAttached q ((inv.attached q).mp was)).cons
        next => exact (inv.first q k held).imp_right WasAttached.cons
    · simp [SourceState.attach, SourceState.log, Event.attaches]
    · simpa [SourceState.attach, SourceState.log, SourceState.cancelArmingLocked, Event.attaches] using
        load.generation_le built
  | disconnect source may => exact inv.disconnected may
  | _ => exact inv.quiet rfl rfl rfl le_rfl rfl

theorem arming (inv : OwnerInv s) {generation : Nat} (step : ArmStep generation s t) : OwnerInv t := by
  cases step <;> exact inv.quiet rfl rfl rfl le_rfl rfl

end OwnerInv

/-! ## Arming -/

structure ArmInv (s : SourceState) : Prop where
  bounded : ∀ generation source task background, .armed generation source task background ∈ s.history →
    generation ≤ s.armGeneration
  ended : ∀ event ∈ s.history, ∀ generation, event.arm = some generation → generation ≤ s.armGeneration
  newest : ∀ generation source task, liveArming s.history = some (generation, source, task) →
    generation = s.armGeneration ∧ s.policy = some source
  live : s.arming → (liveArming s.history).isSome
  running : ∀ source task background, .armed s.armGeneration source task background ∈ s.history →
    (∀ event ∈ s.history, event.arm ≠ some s.armGeneration) → s.arming
  withdrawn : withdrawn s.history → s.arming = false
  inferred : ∀ source action, .inferred source action ∈ currentTick s.history → s.arming = false
  published : s.task = publishedTask s.history

def Event.quiet (event : Event) : Prop :=
  event.arm = none ∧ event.arming = none ∧ event.task = none ∧ event.withdraws = none ∧
    ∀ source action, event ≠ .inferred source action

theorem mem_currentTick_cons {event member : Event} {older : List Event}
    (inside : member ∈ currentTick (event :: older)) : member = event ∨ member ∈ currentTick older := by
  rw [currentTick_cons] at inside
  split at inside
  · cases inside
  · exact List.mem_cons.mp inside

namespace ArmInv

variable {s t : SourceState} {event : Event} {rig : Rig}

/-- The invariant of the history that a change extends, for the fields it leaves. -/
theorem quiet (inv : ArmInv s) (history : t.history = event :: s.history) (quiet : event.quiet)
    (same : (t.armGeneration, t.arming, t.policy, t.task) = (s.armGeneration, s.arming, s.policy, s.task)) :
    ArmInv t := by
  obtain ⟨armGeneration, arming, policy, task⟩ := by simpa only [Prod.mk.injEq] using same
  obtain ⟨noArm, noArming, noTask, noWithdraw, noInference⟩ := quiet
  constructor
  · intro g source task' background member
    rw [history, List.mem_cons] at member
    rcases member with rfl | member
    · simp [Event.arming] at noArming
    · exact armGeneration ▸ inv.bounded g source task' background member
  · intro e member g author
    rw [history, List.mem_cons] at member
    rcases member with rfl | member
    · simp [noArm] at author
    · exact armGeneration ▸ inv.ended e member g author
  · intro g source task' newest
    rw [history, liveArming_cons, noArming] at newest
    exact armGeneration ▸ policy ▸ inv.newest g source task' newest
  · rw [history, liveArming_cons, noArming, arming]
    exact inv.live
  · intro source task' background member open'
    rw [history, armGeneration, List.mem_cons] at member
    rw [arming]
    refine inv.running source task' background (member.resolve_left ?_) fun e old => ?_
    · rintro rfl
      simp [Event.arming] at noArming
    · exact armGeneration ▸ open' e (history ▸ .tail _ old)
  · rw [history, withdrawn_cons, noWithdraw, arming]
    exact inv.withdrawn
  · intro source action inside
    rw [history] at inside
    rw [arming]
    exact inv.inferred source action
      ((mem_currentTick_cons inside).resolve_left (noInference source action).symm)
  · rw [history, publishedTask_cons, noTask, task]
    exact inv.published

theorem cancelled (inv : ArmInv s) (history : t.history = event :: s.history)
    (armGeneration : t.armGeneration = s.armGeneration + 1) (arming : t.arming = false) (task : t.task = s.task)
    (noArm : event.arm = none) (voids : event.arming = some none) (noTask : event.task = none)
    (noInference : ∀ source action, event ≠ .inferred source action) : ArmInv t := by
  have notArmed g source task background : Event.armed g source task background ≠ event := by
    rintro rfl
    simp [Event.arming] at voids
  constructor
  · intro g source task' background member
    rw [history, List.mem_cons] at member
    have := inv.bounded g source task' background (member.resolve_left (notArmed _ _ _ _))
    omega
  · intro e member g author
    rw [history, List.mem_cons] at member
    rcases member with rfl | member
    · simp [noArm] at author
    · have := inv.ended e member g author
      omega
  · intro g source task' newest
    simp [history, voids] at newest
  · simp [arming]
  · intro source task' background member
    rw [history, List.mem_cons] at member
    have := inv.bounded _ source task' background (member.resolve_left (notArmed _ _ _ _))
    omega
  · exact fun _ => arming
  · exact fun _ _ _ => arming
  · rw [history, publishedTask_cons, noTask, task]
    exact inv.published

theorem control (inv : ArmInv s) (step : ControlStep rig s t) : ArmInv t := by
  cases step with
  | cancel cause => exact inv.cancelled rfl rfl rfl rfl rfl rfl rfl (by simp)
  | detach stopped => exact inv.cancelled rfl rfl rfl rfl rfl rfl rfl (by simp)
  | unset unloaded => exact ⟨inv.bounded, inv.ended, inv.newest, inv.live, inv.running, inv.withdrawn, inv.inferred, inv.published⟩
  | arm source task attached valid observed before =>
    have noInference other action : .inferred other action ∉ currentTick (s.arm source task).history := by
      intro inside
      exact before other action ((mem_currentTick_cons inside).resolve_left (by simp))
    refine ⟨?_, ?_, ?_, ?_, ?_, ?_, fun other action inside => absurd inside (noInference other action), rfl⟩ <;>
      simp only [SourceState.arm, SourceState.log]
    · rintro g source' task' background (_ | ⟨_, member⟩)
      · exact le_rfl
      · exact (inv.bounded g _ _ _ member).trans (Nat.le_succ _)
    · rintro e (_ | ⟨_, member⟩) g author
      · cases author
      · exact (inv.ended e member g author).trans (Nat.le_succ _)
    · rintro g source' task' newest
      simp only [liveArming_cons, Event.arming, Option.elim_some, id, Option.some.injEq, Prod.mk.injEq] at newest
      obtain ⟨rfl, rfl, rfl⟩ := newest
      exact ⟨rfl, attached⟩
    · simp [Event.arming]
    · simp
    · simp [Event.withdraws]
  | infer source action attached idle settled =>
    exact ⟨fun g p k b member => inv.bounded g p k b (by simpa [SourceState.log] using member),
      fun e member g author => inv.ended e ((List.mem_cons.mp member).resolve_left (by rintro rfl; cases author)) g author,
      inv.newest, inv.live,
      fun p k b member open' => inv.running p k b (by simpa [SourceState.log] using member)
        fun e old => open' e (.tail _ old),
      inv.withdrawn, fun _ _ _ => idle, inv.published⟩
  | _ => exact inv.quiet rfl (by simp [Event.quiet, Event.arm, Event.arming, Event.task, Event.withdraws]) rfl

theorem loader (inv : ArmInv s) {own : PolicySource} (step : LoaderStep own s t) : ArmInv t := by
  cases step with
  | attach window held newer => exact inv.cancelled rfl rfl rfl rfl rfl rfl rfl (by simp)
  | _ => exact inv.quiet rfl (by simp [Event.quiet, Event.arm, Event.arming, Event.task, Event.withdraws]) rfl

/-- An arming thread ends the arming in progress, by a switch or by a failure. -/
theorem ends (inv : ArmInv s) (history : t.history = event :: s.history) (generation : event.arm = some s.armGeneration)
    (rest : (t.armGeneration, t.policy, t.task) = (s.armGeneration, s.policy, s.task)) (arming : t.arming = false)
    (newest : event.arming = none ∨ event.arming = some none) : ArmInv t := by
  obtain ⟨armGeneration, policy, task⟩ := by simpa only [Prod.mk.injEq] using rest
  have noTask : event.task = none := by cases event <;> first | rfl | cases generation
  -- What ends an arming is no arming itself.
  have notArmed g source task background : Event.armed g source task background ≠ event := by
    rintro rfl
    cases generation
  constructor
  · intro g source task' background member
    rw [history, List.mem_cons] at member
    exact armGeneration ▸ inv.bounded g source task' background (member.resolve_left (notArmed _ _ _ _))
  · intro e member g author
    rw [history, List.mem_cons] at member
    rcases member with rfl | member
    · rw [generation] at author
      cases author
      exact armGeneration.ge
    · exact armGeneration ▸ inv.ended e member g author
  · intro g source task' live
    rw [history, liveArming_cons] at live
    rcases newest with none | none <;> rw [none] at live
    · exact armGeneration ▸ policy ▸ inv.newest g source task' live
    · cases live
  · simp [arming]
  · intro source task' background member open'
    exact absurd (armGeneration ▸ generation) (open' event (history ▸ .head _))
  · exact fun _ => arming
  · exact fun _ _ _ => arming
  · rw [history, publishedTask_cons, noTask, task]
    exact inv.published

theorem arming (inv : ArmInv s) {generation : Nat} (step : ArmStep generation s t) : ArmInv t := by
  cases step with
  | emit event => exact inv.quiet rfl (by simp [Event.quiet, Event.arm, Event.arming, Event.task, Event.withdraws]) rfl
  | switch live current => exact inv.ends rfl (congrArg some current) rfl rfl (.inl rfl)
  | fail live current => exact inv.ends rfl (congrArg some current) rfl rfl (.inr rfl)

end ArmInv

/-! ## Modes -/

structure ModeInv (rig : Rig) (s : SourceState) : Prop where
  teleop : s.followerSource = .teleop → rig.hasLeader ∧ s.leaderReadsEnabled
  leader : s.lastLeaderAction.isSome ↔ .leaderRead true ∈ s.history

namespace ModeInv

variable {s t : SourceState} {rig : Rig}

theorem control (inv : ModeInv rig s) (step : ControlStep rig s t) : ModeInv rig t := by
  have leader {event : Event} (other : event ≠ .leaderRead true) :
      s.lastLeaderAction.isSome ↔ .leaderRead true ∈ event :: s.history := by
    simp [inv.leader, other.symm]
  cases step with
  | unset unloaded => exact ⟨inv.teleop, inv.leader⟩
  | enterTeleop hasLeader enabled other => exact ⟨fun _ => ⟨hasLeader, enabled⟩, leader (by simp)⟩
  | enterHold cause target => exact ⟨(by intros; contradiction), leader (by simp)⟩
  | disableLeader target => exact ⟨(by intros; contradiction), leader (by simp)⟩
  | leaderSucceed action timestamp =>
    exact ⟨inv.teleop, by simp [SourceState.leaderSucceeded, SourceState.log]⟩
  | _ => exact ⟨inv.teleop, leader (by simp)⟩

theorem loader (inv : ModeInv rig s) {own : PolicySource} (step : LoaderStep own s t) : ModeInv rig t := by
  cases step <;> exact ⟨inv.teleop, by simp [SourceState.log, SourceState.emit, SourceState.attach, SourceState.cancelArmingLocked, inv.leader]⟩

theorem arming (inv : ModeInv rig s) {generation : Nat} (step : ArmStep generation s t) : ModeInv rig t := by
  cases step with
  | switch => exact ⟨(by intros; contradiction), by simp [SourceState.log, SourceState.switchToPolicy, inv.leader]⟩
  | _ => exact ⟨inv.teleop, by simp [SourceState.log, SourceState.emit, SourceState.failArming, inv.leader]⟩

end ModeInv

/-! ## The invariant of a session -/

structure SourceInv (rig : Rig) (s : SourceState) : Prop where
  load : LoadInv s
  owner : OwnerInv s
  arm : ArmInv s
  mode : ModeInv rig s

namespace SourceInv

variable {rig : Rig} {s t : SourceState}

theorem initial : SourceInv rig (.initial rig) where
  load := ⟨(by intros; contradiction), (by intros; contradiction), (by intros; contradiction), by simp [SourceState.initial, lastLoad]⟩
  owner := ⟨by simp [SourceState.initial, holder], by simp [SourceState.initial, holder],
    by simp [SourceState.initial, holder], by simp [SourceState.initial, WasAttached],
    by simp [SourceState.initial, holder], rfl, Nat.zero_le _⟩
  arm := ⟨(by intros; contradiction), (by intros; contradiction), by simp [SourceState.initial, liveArming], (by intros; contradiction), (by intros; contradiction), by simp [SourceState.initial],
    by simp [SourceState.initial], rfl⟩
  mode := ⟨(by intros; contradiction), by simp [SourceState.initial]⟩

theorem control (inv : SourceInv rig s) (step : ControlStep rig s t) : SourceInv rig t :=
  ⟨inv.load.control step, inv.owner.control step, inv.arm.control step, inv.mode.control step⟩

theorem step (inv : SourceInv rig s) {key : Key} (step : SourceStep rig key s t) : SourceInv rig t := by
  cases key with
  | control =>
    induction step with
    | refl => exact inv
    | tail _ last ih => exact ih.control last
  | loader generation =>
    obtain ⟨own, -, built, step⟩ := step
    exact ⟨inv.load.loader built step, inv.owner.loader inv.load built step, inv.arm.loader step, inv.mode.loader step⟩
  | arming generation =>
    obtain ⟨-, step⟩ := step
    exact ⟨inv.load.arming step, inv.owner.arming step, inv.arm.arming step, inv.mode.arming step⟩

end SourceInv

end PhysicalAiStudio.Runtime
