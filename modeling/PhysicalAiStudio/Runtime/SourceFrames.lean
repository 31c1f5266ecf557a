import PhysicalAiStudio.Runtime.SourceInvariant

/-! What the other threads leave unchanged for a thread of an action source.

A frame is a preorder that contains every step of the other threads, so it bounds
what happens between two actions of a thread.
-/

set_option autoImplicit false

namespace PhysicalAiStudio.Runtime

open Concurrency

def Job.key : Job → Key
  | .control => .control
  | .load generation _ => .loader generation
  | .arm generation _ => .arming generation

/-- What a job finds when it starts. The control thread starts with the session. -/
def Job.Entry (s : SourceState) : Job → Prop
  | .control => False
  | .load generation command =>
      .requested generation command ∈ s.history ∧ (∀ event ∈ s.history, event.loader ≠ some generation) ∧
        holder ⟨generation, modelIdentity command⟩ s.history = none
  | .arm generation source =>
      (∃ task, .armed generation source task true ∈ s.history) ∧ ∀ event ∈ s.history, event.arm ≠ some generation

def sourceProtocol (rig : Rig) : Protocol Job Key SourceState where
  key := Job.key
  roster s := startedJobs s.history
  Step := SourceStep rig
  Inv := SourceInv rig
  Entry job s := job.Entry s

/-! ## Histories that other threads extend -/

def Extends (kind : Event → Prop) (s t : SourceState) : Prop :=
  ∃ events, t.history = events ++ s.history ∧ ∀ event ∈ events, kind event

namespace Extends

variable {kind : Event → Prop} {s t u : SourceState}

theorem refl (s : SourceState) : Extends kind s s := ⟨[], rfl, (by simp)⟩

theorem one {event : Event} (history : t.history = event :: s.history) (is : kind event) : Extends kind s t :=
  ⟨[event], history, by simpa using is⟩

theorem trans (first : Extends kind s t) (second : Extends kind t u) : Extends kind s u := by
  obtain ⟨events, history, are⟩ := first
  obtain ⟨later, history', are'⟩ := second
  refine ⟨later ++ events, by rw [history', history, List.append_assoc], fun event member => ?_⟩
  rcases List.mem_append.mp member with new | old
  · exact are' event new
  · exact are event old

theorem mem (extends' : Extends kind s t) {event : Event} (member : event ∈ s.history) : event ∈ t.history := by
  obtain ⟨events, history, -⟩ := extends'
  exact history ▸ List.mem_append_right _ member

theorem not_mem (extends' : Extends kind s t) {event : Event} (isNot : ¬kind event) (fresh : event ∉ s.history) :
    event ∉ t.history := by
  obtain ⟨events, history, are⟩ := extends'
  rw [history, List.mem_append]
  rintro (new | old)
  · exact isNot (are event new)
  · exact fresh old

theorem forall_mem {P : Event → Prop} (extends' : Extends kind s t) (isNot : ∀ event, kind event → P event)
    (every : ∀ event ∈ s.history, P event) : ∀ event ∈ t.history, P event := by
  obtain ⟨events, history, are⟩ := extends'
  intro event member
  rw [history, List.mem_append] at member
  rcases member with new | old
  · exact isNot event (are event new)
  · exact every event old

theorem findSome?_eq {Told : Type} {tell : Event → Option Told} (extends' : Extends kind s t)
    (quiet : ∀ event, kind event → tell event = none) :
    t.history.findSome? tell = s.history.findSome? tell := by
  obtain ⟨events, history, are⟩ := extends'
  rw [history, List.findSome?_append, List.findSome?_eq_none_iff.mpr fun event new => quiet event (are event new)]
  rfl

theorem currentTick_eq (extends' : Extends kind s t) (noTick : ∀ event, kind event → event.measures = none) :
    ∃ events, currentTick t.history = events ++ currentTick s.history ∧ ∀ event ∈ events, kind event := by
  obtain ⟨events, history, are⟩ := extends'
  refine ⟨events, ?_, are⟩
  rw [history, currentTick, List.takeWhile_append_of_pos fun event member => ?_, currentTick]
  simp [noTick event (are event member)]

theorem wasAttached (extends' : Extends kind s t) {source : PolicySource} (attached : WasAttached source s.history) :
    WasAttached source t.history := by
  obtain ⟨previous, mode, member⟩ := attached
  exact ⟨previous, mode, extends'.mem member⟩

theorem raised (extends' : Extends kind s t) (raised : Raised s.history) : Raised t.history := by
  obtain ⟨generation, member⟩ := raised
  exact ⟨generation, extends'.mem member⟩

theorem builtBy (extends' : Extends kind s t) {source : PolicySource} (built : BuiltBy source s.history) :
    BuiltBy source t.history := by
  obtain ⟨command, member, same⟩ := built
  exact ⟨command, extends'.mem member, same⟩

end Extends

/-! ## Who holds a policy -/

/-- A thread holds a policy only after an event of its own: a loader's, or the teardown's. -/
theorem holder_origin {source : PolicySource} {own : Key} {history : List Event}
    (held : holder source history = some (.held own)) :
    (∃ generation, own = .loader generation ∧ ∃ event ∈ history, event.loader = some generation) ∨
      own = .control ∧ ∃ previous, .detached previous ∈ history := by
  -- The newest event that concerns the policy says who holds it.
  induction history with
  | nil => cases held
  | cons event older ih =>
    have before (same : holder source older = some (.held own)) :
        (∃ generation, own = .loader generation ∧ ∃ e ∈ event :: older, e.loader = some generation) ∨
          own = .control ∧ ∃ previous, .detached previous ∈ event :: older := by
      refine (ih same).imp ?_ ?_
      · exact fun ⟨generation, mine, e, member, author⟩ => ⟨generation, mine, e, .tail _ member, author⟩
      · exact fun ⟨mine, previous, member⟩ => ⟨mine, previous, .tail _ member⟩
    cases event <;> simp only [holder] at held
    case built other =>
      split at held
      next same =>
        cases held
        exact .inl ⟨source.generation, rfl, _, .head _, by rw [← same]; rfl⟩
      next => exact before held
    case attached other previous mode =>
      split at held
      next => cases held
      next =>
        split at held
        next =>
          cases held
          exact .inl ⟨other.generation, rfl, _, .head _, rfl⟩
        next => exact before held
    case detached previous =>
      split at held
      next =>
        cases held
        exact .inr ⟨rfl, previous, .head _⟩
      next => exact before held
    case disconnected own other =>
      split at held
      next => cases held
      next => exact before held
    all_goals exact before held

theorem holder_loader {source : PolicySource} {generation : Nat} {history : List Event}
    (held : holder source history = some (.held (.loader generation))) :
    ∃ event ∈ history, event.loader = some generation := by
  obtain ⟨_, ⟨⟩, event, member, author⟩ | ⟨⟨⟩, -⟩ := holder_origin held
  exact ⟨event, member, author⟩

theorem holder_control {source : PolicySource} {history : List Event}
    (held : holder source history = some (.held .control)) : ∃ previous, .detached previous ∈ history := by
  obtain ⟨_, ⟨⟩, -⟩ | ⟨-, detached⟩ := holder_origin held
  exact detached

/-- The other threads take nothing from a thread that it would not be allowed to
disconnect still, and give it nothing. A policy in the hands of its loader stays there. -/
structure OwnerFrame (own : Key) (s t : SourceState) : Prop where
  disconnectable : ∀ source, Disconnectable own source s.history → Disconnectable own source t.history
  gains : ∀ source, holder source t.history = some (.held own) → holder source s.history = some (.held own)
  unattached : ∀ source, own = .loader source.generation → ¬WasAttached source s.history →
    ¬WasAttached source t.history ∧ holder source t.history = holder source s.history

namespace OwnerFrame

variable {own : Key} {s t u : SourceState}

theorem refl (own : Key) (s : SourceState) : OwnerFrame own s s :=
  ⟨fun _ => id, fun _ => id, fun _ _ unattached => ⟨unattached, rfl⟩⟩

theorem trans (first : OwnerFrame own s t) (second : OwnerFrame own t u) : OwnerFrame own s u where
  disconnectable source may := second.disconnectable source (first.disconnectable source may)
  gains source held := first.gains source (second.gains source held)
  unattached source mine unattached := by
    obtain ⟨still, same⟩ := first.unattached source mine unattached
    obtain ⟨still', same'⟩ := second.unattached source mine still
    exact ⟨still', same'.trans same⟩

theorem quiet {event : Event} (history : t.history = event :: s.history) (still : event.movesPolicy = false) :
    OwnerFrame own s t where
  disconnectable source may := by
    rw [Disconnectable, history, holder_cons_still still, wasAttached_cons_still still]
    exact may.imp_right fun late => ⟨late.1.cons, late.2⟩
  gains source held := by rwa [history, holder_cons_still still] at held
  unattached source _ unattached := by
    rw [history, holder_cons_still still, wasAttached_cons_still still]
    exact ⟨unattached, rfl⟩

theorem of_history_eq (same : t.history = s.history) : OwnerFrame own s t := by
  refine ⟨fun _ => ?_, fun _ => ?_, fun _ _ unattached => ?_⟩ <;> rw [same]
  · exact id
  · exact id
  · exact ⟨unattached, rfl⟩

/-- Another thread disconnects a policy: this thread did not hold it, or some `disconnect` raised. -/
theorem disconnected (inv : OwnerInv s) {other : Key} (different : other ≠ own) {source : PolicySource}
    (may : Disconnectable other source s.history) : OwnerFrame own s (s.log (.disconnected other source)) where
  disconnectable q mine := by
    rcases mine with held | ⟨raised, late⟩
    · -- The other owner may disconnect a source held here only after it was handed over.
      by_cases self : source = q
      · subst self
        rcases may with held' | ⟨raised, attached | released⟩
        · simp only [held, Option.some.injEq, Holder.held.injEq] at held'
          exact absurd held'.symm different
        · exact .inr ⟨raised.cons, .inl attached.cons⟩
        · simp [held] at released
      · exact .inl (by simpa [SourceState.log, holder, self] using held)
    · refine .inr ⟨raised.cons, late.imp WasAttached.cons fun released => ?_⟩
      simp only [SourceState.log, holder]
      split
      · rfl
      · exact released
  gains q held := by
    simp only [SourceState.log, holder] at held
    split at held
    · cases held
    · exact held
  unattached q mine unattached := by
    refine ⟨by simpa [SourceState.log] using unattached, ?_⟩
    simp only [SourceState.log, holder]
    split
    next released =>
      obtain ⟨rfl, -⟩ := released
      rcases may with held | ⟨-, attached | released⟩
      · exact absurd ((inv.first _ _ held).resolve_right unattached) (mine ▸ different)
      · exact absurd attached unattached
      · exact released.symm
    next => rfl

theorem control {rig : Rig} (inv : SourceInv rig s) (different : own ≠ .control) (step : ControlStep rig s t) :
    OwnerFrame own s t := by
  cases step with
  | unset => exact .of_history_eq rfl
  | disconnect source may => exact .disconnected inv.owner different.symm may
  | detach stopped =>
    have changed q : holder q s.detach.history = if s.policy = some q then some (.held .control)
        else holder q s.history := rfl
    refine ⟨fun q mine => ?_, fun q held => ?_, fun q mine unattached => ⟨by simpa [SourceState.detach, SourceState.log] using unattached, ?_⟩⟩
    · rw [Disconnectable, changed]
      rcases mine with held | ⟨raised, late⟩
      · have other : s.policy ≠ some q := fun same => by simp [(inv.owner.attached q).mp same] at held
        exact .inl (by rw [if_neg other, held])
      · refine .inr ⟨raised.cons, late.imp WasAttached.cons fun released => ?_⟩
        have other : s.policy ≠ some q := fun same => by simp [(inv.owner.attached q).mp same] at released
        rw [if_neg other, released]
    · rw [changed] at held
      split at held
      · simp only [Option.some.injEq, Holder.held.injEq] at held
        exact absurd held.symm different
      · exact held
    · rw [changed, if_neg fun same => unattached (inv.owner.wasAttached q ((inv.owner.attached q).mp same))]
  | _ => exact .quiet rfl rfl

theorem loader {rig : Rig} (inv : SourceInv rig s) {source : PolicySource} (different : own ≠ .loader source.generation)
    (step : LoaderStep source s t) : OwnerFrame own s t := by
  cases step with
  | disconnect other may => exact .disconnected inv.owner different.symm may
  | build new =>
    have changed q : holder q (s.log (.built source)).history =
        if source = q then some (.held (.loader q.generation)) else holder q s.history := rfl
    refine ⟨fun q mine => ?_, fun q held => ?_, fun q mine unattached => ⟨by simpa [SourceState.log] using unattached, ?_⟩⟩
    · have other : source ≠ q := by
        rintro rfl
        rcases mine with held | ⟨-, attached | released⟩
        · simp [new] at held
        · exact inv.owner.kept source attached new
        · simp [new] at released
      rw [Disconnectable, changed, if_neg other]
      exact mine.imp_right fun late => ⟨late.1.cons, late.2.imp_left WasAttached.cons⟩
    · rw [changed] at held
      split at held
      next same =>
        simp only [Option.some.injEq, Holder.held.injEq] at held
        exact absurd (same ▸ held).symm different
      next => exact held
    · rw [changed, if_neg]
      rintro rfl
      exact different mine
  | attach window held newer =>
    have changed q : holder q (s.attach source source.generation source.identity).history =
        if source = q then some .attached else if s.policy = some q then some (.held (.loader source.generation))
        else holder q s.history := rfl
    have attached q : WasAttached q (s.attach source source.generation source.identity).history ↔
        source = q ∨ WasAttached q s.history := by simp [SourceState.attach, SourceState.log]
    refine ⟨fun q mine => ?_, fun q held => ?_, fun q mine unattached => ?_⟩
    · rw [Disconnectable, changed, attached]
      rcases mine with held' | ⟨raised, late⟩
      · have other : source ≠ q := by
          rintro rfl
          simp only [held, Option.some.injEq, Holder.held.injEq] at held'
          exact different held'.symm
        have other' : s.policy ≠ some q := fun same => by simp [(inv.owner.attached q).mp same] at held'
        exact .inl (by rw [if_neg other, if_neg other', held'])
      · refine .inr ⟨raised.cons, ?_⟩
        -- Another policy keeps its holder, unless it is the one displaced, which was attached.
        rcases late with was | released
        · exact .inl (.inr was)
        · by_cases same : source = q
          · exact .inl (.inl same)
          · have other : s.policy ≠ some q := fun same => by simp [(inv.owner.attached q).mp same] at released
            exact .inr (by rw [if_neg same, if_neg other, released])
    · rw [changed] at held
      split at held
      · cases held
      · split at held
        · simp only [Option.some.injEq, Holder.held.injEq] at held
          exact absurd held.symm different
        · exact held
    · have other : source ≠ q := by
        rintro rfl
        exact different mine
      refine ⟨fun now => unattached (((attached q).mp now).resolve_left other), ?_⟩
      rw [changed, if_neg other,
        if_neg fun same => unattached (inv.owner.wasAttached q ((inv.owner.attached q).mp same))]
  | _ => exact .quiet rfl rfl

theorem arming {generation : Nat} (step : ArmStep generation s t) : OwnerFrame own s t := by
  cases step <;> exact .quiet rfl rfl

end OwnerFrame

/-! ## The frame of each thread -/

structure PoolFrame (s t : SourceState) : Prop where
  history : Extends (·.ofPool) s t
  fields : (t.holdTarget, t.lastLeaderAction, t.leaderReadsEnabled, t.lastRobotState) =
    (s.holdTarget, s.lastLeaderAction, s.leaderReadsEnabled, s.lastRobotState)
  mode : t.followerSource = s.followerSource ∨ t.followerSource = .policy
  idle : s.arming = false → t.arming = false ∧ t.followerSource = s.followerSource
  settled : Settled s → Settled t
  owner : OwnerFrame .control s t

structure LoaderFrame (generation : Nat) (s t : SourceState) : Prop where
  history : Extends (·.loader ≠ some generation) s t
  later : s.loaderGeneration ≤ t.loaderGeneration
  owner : OwnerFrame (.loader generation) s t

def ArmFrame (generation : Nat) : SourceState → SourceState → Prop := Extends (·.arm ≠ some generation)

variable {rig : Rig} {s t u : SourceState}

namespace PoolFrame

theorem refl (s : SourceState) : PoolFrame s s :=
  ⟨.refl s, rfl, .inl rfl, fun idle => ⟨idle, rfl⟩, id, .refl _ s⟩

theorem trans (first : PoolFrame s t) (second : PoolFrame t u) : PoolFrame s u where
  history := first.history.trans second.history
  fields := second.fields.trans first.fields
  mode := by
    rcases second.mode with same | policy
    · exact same ▸ first.mode
    · exact .inr policy
  idle quiet := by
    obtain ⟨quiet', same⟩ := first.idle quiet
    obtain ⟨quiet'', same'⟩ := second.idle quiet'
    exact ⟨quiet'', same'.trans same⟩
  settled before := second.settled (first.settled before)
  owner := first.owner.trans second.owner

theorem loader (inv : SourceInv rig s) {source : PolicySource} (step : LoaderStep source s t) : PoolFrame s t := by
  have owner : OwnerFrame .control s t := .loader inv (by simp) step
  cases step <;> exact ⟨.one rfl rfl, rfl, .inl rfl, fun idle => ⟨by first | exact idle | rfl, rfl⟩, id, owner⟩

theorem arming (inv : SourceInv rig s) {generation : Nat} (step : ArmStep generation s t) : PoolFrame s t := by
  have owner : OwnerFrame .control s t := .arming step
  cases step with
  | emit event => exact ⟨.one rfl rfl, rfl, .inl rfl, fun idle => ⟨idle, rfl⟩, id, owner⟩
  | switch live current =>
    -- a live arming has not been withdrawn
    have standing : withdrawn s.history = false :=
      Bool.eq_false_iff.mpr fun gone => by simp [inv.arm.withdrawn gone] at live
    exact ⟨.one rfl rfl, rfl, .inr rfl, fun idle => by simp [idle] at live, fun _ _ => standing, owner⟩
  | fail live current => exact ⟨.one rfl rfl, rfl, .inl rfl, fun _ => ⟨rfl, rfl⟩, id, owner⟩

theorem foreign (step : (sourceProtocol rig).Foreign .control s t) : PoolFrame s t := by
  obtain ⟨inv, other, different, step⟩ := step
  cases other with
  | control => exact absurd rfl different
  | loader generation =>
    obtain ⟨source, -, -, step⟩ := step
    exact .loader inv step
  | arming generation => exact .arming inv step.2

theorem interference (between : (sourceProtocol rig).Interference .control s t) : PoolFrame s t := by
  induction between with
  | refl => exact .refl s
  | tail _ step ih => exact ih.trans (.foreign step)

end PoolFrame

namespace LoaderFrame

variable {generation : Nat}

theorem refl (generation : Nat) (s : SourceState) : LoaderFrame generation s s := ⟨.refl s, le_rfl, .refl _ s⟩

theorem trans (first : LoaderFrame generation s t) (second : LoaderFrame generation t u) : LoaderFrame generation s u :=
  ⟨first.history.trans second.history, first.later.trans second.later, first.owner.trans second.owner⟩

theorem control (inv : SourceInv rig s) (step : ControlStep rig s t) : LoaderFrame generation s t := by
  have owner : OwnerFrame (.loader generation) s t := .control inv (by simp) step
  cases step with
  | unset => exact ⟨.refl s, le_rfl, owner⟩
  | request | invalidate => exact ⟨.one rfl (by simp [Event.loader]), Nat.le_succ _, owner⟩
  | _ => exact ⟨.one rfl (by simp [Event.loader]), le_rfl, owner⟩

theorem foreign (step : (sourceProtocol rig).Foreign (.loader generation) s t) : LoaderFrame generation s t := by
  obtain ⟨inv, other, different, step⟩ := step
  cases other with
  | control =>
    refine (?_ : LoaderFrame generation s t ∧ SourceInv rig t).1
    induction step with
    | refl => exact ⟨.refl generation s, inv⟩
    | tail _ step ih => exact ⟨ih.1.trans (.control ih.2 step), ih.2.control step⟩
  | loader other =>
    obtain ⟨source, rfl, -, step⟩ := step
    have owner : OwnerFrame (.loader generation) s t := .loader inv different.symm step
    have different : source.generation ≠ generation := fun same => different (congrArg Key.loader same)
    cases step <;> exact ⟨.one rfl (by simp [Event.loader, different]), le_rfl, owner⟩
  | arming other =>
    have owner : OwnerFrame (.loader generation) s t := .arming step.2
    cases step.2 <;> exact ⟨.one rfl (by simp [Event.loader]), le_rfl, owner⟩

theorem interference (between : (sourceProtocol rig).Interference (.loader generation) s t) :
    LoaderFrame generation s t := by
  induction between with
  | refl => exact .refl generation s
  | tail _ step ih => exact ih.trans (.foreign step)

end LoaderFrame

namespace ArmFrame

variable {generation : Nat}

theorem foreign (step : (sourceProtocol rig).Foreign (.arming generation) s t) : ArmFrame generation s t := by
  obtain ⟨inv, other, different, step⟩ := step
  cases other with
  | control =>
    induction step with
    | refl => exact .refl s
    | tail _ step ih =>
      refine ih.trans ?_
      cases step with
      | unset => exact .refl _
      | _ => exact .one rfl (by simp [Event.arm])
  | loader other =>
    obtain ⟨source, -, -, step⟩ := step
    cases step <;> exact .one rfl (by simp [Event.arm])
  | arming other =>
    have different : other ≠ generation := fun same => different (congrArg Key.arming same)
    cases step.2 <;> exact .one rfl (by simp [Event.arm, different])

theorem interference (between : (sourceProtocol rig).Interference (.arming generation) s t) : ArmFrame generation s t := by
  induction between with
  | refl => exact .refl s
  | tail _ step ih => exact ih.trans (foreign step)

end ArmFrame

end PhysicalAiStudio.Runtime
