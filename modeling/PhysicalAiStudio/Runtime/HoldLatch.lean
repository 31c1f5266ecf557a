import PhysicalAiStudio.Runtime.ControlSafety

/-! The hold target: when it is latched, and when it is sent.

Every latch and every action sent is described by the history before it. The
statements about holding and about falling back to the target follow from that
description alone.
-/

set_option autoImplicit false

namespace PhysicalAiStudio.Runtime

open Concurrency

/-! ## Reading latches and modes off the history -/

def Event.latches : Event → Option Joints
  | .latched _ target _ => some target
  | _ => none

def lastLatch (history : List Event) : Option Joints := history.findSome? Event.latches

def Event.mode : Event → Option FollowerSource
  | .switched _ _ => some .policy
  | .enteredTeleop => some .teleop
  | .latched .firstTick _ _ => none
  | .latched _ _ _ => some .hold
  | _ => none

def modeOf (history : List Event) : FollowerSource := (history.findSome? Event.mode).getD .hold

def lastMeasured (history : List Event) : Option Joints := history.findSome? Event.measures

def Event.entersHold : Event → Option Joints
  | .latched .firstTick target _ => some target
  | .latched _ _ .hold => none
  | .latched _ target _ => some target
  | _ => none

def holdEntry (history : List Event) : Option Joints := history.findSome? Event.entersHold

section Views

variable (event : Event) (older : List Event)

@[simp] theorem lastLatch_cons : lastLatch (event :: older) = event.latches.or (lastLatch older) := by
  cases told : event.latches <;> simp [lastLatch, told]

@[simp] theorem modeOf_cons : modeOf (event :: older) = event.mode.getD (modeOf older) := by
  cases told : event.mode <;> simp [modeOf, told]

@[simp] theorem lastMeasured_cons : lastMeasured (event :: older) = event.measures.or (lastMeasured older) := by
  cases told : event.measures <;> simp [lastMeasured, told]

end Views

/-! ## What is known of every latch and of every action sent -/

/-- A latch takes the measurement of its tick. A command latches only on entry. -/
def LatchSound (older : List Event) : Event → Prop
  | .latched cause target previous =>
      previous = modeOf older ∧ lastMeasured older = some target ∧ (cause = .command → previous ≠ .hold) ∧
        (cause = .firstTick → lastLatch older = none)
  | .switched _ previous => previous = modeOf older
  | .enteredTeleop => modeOf older ≠ .teleop
  | _ => True

def SentSound (older : List Event) (mode : FollowerSource) : Sent → Prop
  | .leader _ => mode = .teleop ∧ .leaderRead true ∈ older
  | .leaderHold target => mode = .teleop ∧ .leaderRead true ∉ older ∧ lastLatch older = some target
  | .policy _ _ => mode = .policy ∧ .inferenceSkipped ∉ currentTick older
  | .hold target => mode ≠ .teleop ∧ (mode = .policy → .inferenceSkipped ∈ currentTick older) ∧
      lastLatch older = some target

def ReturnSound (older : List Event) : Event → Prop
  | .returned sent mode => mode = modeOf older ∧ SentSound older mode sent
  | _ => True

structure LatchInv (s : SourceState) : Prop where
  target : s.holdTarget = lastLatch s.history
  mode : s.followerSource = modeOf s.history
  measured : s.lastRobotState = lastMeasured s.history
  latches : Always LatchSound s.history
  returns : Always ReturnSound s.history

namespace LatchInv

variable {rig : Rig} {s t : SourceState} {event : Event}

theorem quiet (inv : LatchInv s) (history : t.history = event :: s.history)
    (same : (t.holdTarget, t.followerSource, t.lastRobotState) = (s.holdTarget, s.followerSource, s.lastRobotState))
    (still : event.latches = none ∧ event.mode = none ∧ event.measures = none)
    (latch : LatchSound s.history event) (sound : ReturnSound s.history event) : LatchInv t := by
  obtain ⟨target, mode, measured⟩ := by simpa only [Prod.mk.injEq] using same
  obtain ⟨noLatch, noMode, noMeasure⟩ := still
  refine ⟨?_, ?_, ?_, ?_, ?_⟩ <;> rw [history]
  · rw [target, inv.target, lastLatch_cons, noLatch, Option.none_or]
  · rw [mode, inv.mode, modeOf_cons, noMode, Option.getD_none]
  · rw [measured, inv.measured, lastMeasured_cons, noMeasure, Option.none_or]
  · exact ⟨latch, inv.latches⟩
  · exact ⟨sound, inv.returns⟩

theorem enterHold (inv : LatchInv s) {cause : LatchCause} {target : Joints} (notFirst : cause ≠ .firstTick)
    (entry : cause = .command → s.followerSource ≠ .hold) (observed : s.lastRobotState = some target) :
    LatchInv (s.enterHold cause target) where
  target := rfl
  mode := by
    cases cause with
    | firstTick => exact absurd rfl notFirst
    | _ => rfl
  measured := inv.measured
  latches := ⟨⟨inv.mode, inv.measured.symm.trans observed, entry, fun first => absurd first notFirst⟩, inv.latches⟩
  returns := ⟨trivial, inv.returns⟩

theorem sent (inv : LatchInv s) (mode : ModeInv rig s) {sent : Sent} (sends : Sends s sent) :
    SentSound s.history s.followerSource sent := by
  cases sends with
  | leader action teleop read => exact ⟨teleop, mode.leader.mp read⟩
  | leaderHold target teleop held unread =>
    exact ⟨teleop, fun read => by simpa [unread] using mode.leader.mpr read, inv.target.symm.trans held⟩
  | policy source action inPolicy inferred ran => exact ⟨inPolicy, ran⟩
  | hold target held other skipped => exact ⟨other, skipped, inv.target.symm.trans held⟩

theorem control (inv : LatchInv s) (mode : ModeInv rig s) (step : ControlStep rig s t) : LatchInv t := by
  cases step with
  | unset => exact ⟨inv.target, inv.mode, inv.measured, inv.latches, inv.returns⟩
  | observe joints => exact ⟨inv.target, inv.mode, rfl, ⟨trivial, inv.latches⟩, ⟨trivial, inv.returns⟩⟩
  | enterTeleop hasLeader enabled other =>
    exact ⟨inv.target, rfl, inv.measured, ⟨fun same => other (inv.mode.trans same), inv.latches⟩, ⟨trivial, inv.returns⟩⟩
  | enterHold cause target notFirst entry observed => exact inv.enterHold notFirst entry observed
  | latchFirst target unset observed =>
    exact ⟨rfl, inv.mode, inv.measured, ⟨⟨inv.mode, inv.measured.symm.trans observed, (by simp),
      fun _ => inv.target.symm.trans unset⟩, inv.latches⟩, ⟨trivial, inv.returns⟩⟩
  | disableLeader target observed =>
    have disabled : LatchInv { s with leaderReadsEnabled := false } := { inv with }
    exact disabled.enterHold (by simp) (by simp) observed
  | send sent sends => exact inv.quiet rfl rfl ⟨rfl, rfl, rfl⟩ trivial ⟨inv.mode, inv.sent mode sends⟩
  | _ => exact inv.quiet rfl rfl ⟨rfl, rfl, rfl⟩ trivial trivial

theorem loader (inv : LatchInv s) {own : PolicySource} (step : LoaderStep own s t) : LatchInv t := by
  cases step <;> exact inv.quiet rfl rfl ⟨rfl, rfl, rfl⟩ trivial trivial

theorem arming (inv : LatchInv s) {generation : Nat} (step : ArmStep generation s t) : LatchInv t := by
  cases step with
  | switch => exact ⟨inv.target, rfl, inv.measured, ⟨inv.mode, inv.latches⟩, ⟨trivial, inv.returns⟩⟩
  | _ => exact inv.quiet rfl rfl ⟨rfl, rfl, rfl⟩ trivial trivial

end LatchInv

section Run

variable (rig : Rig) (script : Script) (ticks : List Tick) (shutdownRaises : Option Fault) (schedule : List Nat)

theorem run_latches : LatchInv (run rig script ticks shutdownRaises schedule).memory := by
  refine run_invariant rig script ticks shutdownRaises schedule LatchInv ⟨rfl, rfl, rfl, trivial, trivial⟩ ?_ ?_ ?_
  · exact fun s t step inv latch => latch.control inv.mode step
  · exact fun own s t _ step _ latch => latch.loader step
  · exact fun generation s t step _ latch => latch.arming step

end Run

/-! ## Holding -/

def Event.relatches : Event → Bool
  | .latched .policyFailure _ .hold | .latched .leaderFailure _ .hold => true
  | _ => false

/-- In hold the source sends the target latched when hold was entered. -/
def Held (older : List Event) : Event → Prop
  | .returned sent .hold => holdEntry older = some sent.joints
  | _ => True

theorem holdEntry_eq_lastLatch {history : List Event} (latches : Always LatchSound history)
    (once : ∀ event ∈ history, event.relatches = false) (hold : modeOf history = .hold) :
    holdEntry history = lastLatch history := by
  induction history with
  | nil => rfl
  | cons event older ih =>
    obtain ⟨sound, before⟩ := latches
    have ih := ih before fun e member => once e (.tail _ member)
    have here := once event (.head _)
    cases event with
    | latched cause target previous =>
      cases cause with
      | firstTick => rfl
      | command =>
        have entry : previous ≠ .hold := sound.2.2.1 rfl
        cases previous <;> first | rfl | exact absurd rfl entry
      | policyFailure | leaderFailure => cases previous <;> first | rfl | cases here
    | switched | enteredTeleop => cases hold
    | _ => exact ih hold

theorem held_of_once {history : List Event} (latches : Always LatchSound history) (returns : Always ReturnSound history)
    (once : ∀ event ∈ history, event.relatches = false) : Always Held history := by
  induction history with
  | nil => trivial
  | cons event older ih =>
    have once' : ∀ e ∈ older, e.relatches = false := fun e member => once e (.tail _ member)
    refine ⟨?_, ih latches.2 returns.2 once'⟩
    cases event with
    | returned sent mode =>
      cases mode with
      | hold =>
        obtain ⟨mode, sound⟩ := returns.1
        have same := holdEntry_eq_lastLatch latches.2 once' mode.symm
        cases sent with
        | hold target => exact same.trans sound.2.2
        | leader | leaderHold | policy => cases sound.1
      | _ => trivial
    | _ => trivial

/-- While the source stays in hold it sends one and the same joint vector. -/
def Steady (history : List Event) : Prop :=
  ∀ later second between first older,
    history = later ++ .returned second .hold :: (between ++ .returned first .hold :: older) →
      (∀ event ∈ between, event.mode ∈ [none, some .hold]) → second.joints = first.joints

theorem holdEntry_stays {between base : List Event} (latches : Always LatchSound (between ++ base))
    (once : ∀ event ∈ between, event.relatches = false) (stays : ∀ event ∈ between, event.mode ∈ [none, some .hold])
    (hold : modeOf base = .hold) (latched : lastLatch base ≠ none) :
    modeOf (between ++ base) = .hold ∧ lastLatch (between ++ base) ≠ none ∧ holdEntry (between ++ base) = holdEntry base := by
  induction between with
  | nil => exact ⟨hold, latched, rfl⟩
  | cons event rest ih =>
    obtain ⟨hold, latched, same⟩ := ih latches.2 (fun e member => once e (.tail _ member)) fun e member =>
      stays e (.tail _ member)
    have sound : LatchSound (rest ++ base) event := latches.1
    have here := once event (.head _)
    have stay := stays event (.head _)
    cases event with
    | latched cause target previous =>
      obtain ⟨mode, -, entry, first⟩ := sound
      rw [hold] at mode
      subst mode
      cases cause with
      | firstTick => exact absurd (first rfl) latched
      | command => exact absurd rfl (entry rfl)
      | policyFailure | leaderFailure => cases here
    | switched | enteredTeleop => simp [Event.mode] at stay
    | _ => exact ⟨hold, latched, same⟩

theorem steady_of_held {history : List Event} (latches : Always LatchSound history) (returns : Always ReturnSound history)
    (once : ∀ event ∈ history, event.relatches = false) (held : Always Held history) : Steady history := by
  rintro later second between first older rfl stays
  have held' := held.suffix.1
  have first' : Held older (.returned first .hold) :=
    ((always_iff _).mp held) (later ++ .returned second .hold :: between) _ older (by simp)
  have sound : ReturnSound older (.returned first .hold) :=
    ((always_iff _).mp returns) (later ++ .returned second .hold :: between) _ older (by simp)
  have latched : lastLatch (.returned first .hold :: older) ≠ none := by
    obtain ⟨-, sound⟩ := sound
    cases first with
    | hold target => simp [Event.latches, sound.2.2]
    | leader | leaderHold | policy => cases sound.1
  obtain ⟨-, -, same⟩ := holdEntry_stays latches.suffix.2 (fun e member => once e (by simp [member])) stays
    sound.1.symm latched
  have target := held'.symm.trans (same.trans first')
  exact Option.some.inj target

/-- If no policy update fails and no leader reaches its failure limit while the source is in
hold already, it sends the target latched on entry for as long as it holds. -/
theorem hold_sends_entry_target (rig : Rig) (script : Script) (ticks : List Tick) (shutdownRaises : Option Fault)
    (schedule : List Nat)
    (once : ∀ event ∈ (run rig script ticks shutdownRaises schedule).memory.history, event.relatches = false) :
    Always Held (run rig script ticks shutdownRaises schedule).memory.history ∧
      Steady (run rig script ticks shutdownRaises schedule).memory.history := by
  have inv := run_latches rig script ticks shutdownRaises schedule
  have held := held_of_once inv.latches inv.returns once
  exact ⟨held, steady_of_held inv.latches inv.returns once held⟩

instance (older : List Event) (event : Event) : Decidable (Held older event) := by
  unfold Held
  split <;> infer_instance

theorem hold_sends_entry_target_loaded :
    Always Held (run aloneRig {} (loadThenHold fun _ => .ok [7]) none loadBetweenTicks).memory.history ∧
      Steady (run aloneRig {} (loadThenHold fun _ => .ok [7]) none loadBetweenTicks).memory.history :=
  hold_sends_entry_target aloneRig {} (loadThenHold fun _ => .ok [7]) none loadBetweenTicks (by decide +kernel)

/-- A policy that fails in the background moves the target of a source in hold. -/
theorem failing_policy_moves_held_arm :
    ¬(Always Held
        (run aloneRig {} (loadThenHold fun _ => .error (.other "device lost")) none loadBetweenTicks).memory.history ∧
      Steady
        (run aloneRig {} (loadThenHold fun _ => .error (.other "device lost")) none loadBetweenTicks).memory.history) :=
  fun ⟨held, _⟩ => absurd held (by decide +kernel)

/-! ## Falling back to the target outside hold -/

def tickCount (history : List Event) : Nat := history.countP (·.measures.isSome)

def latchTick : List Event → Nat
  | [] => 0
  | .latched _ _ _ :: older => tickCount older
  | _ :: older => latchTick older

def modeTick : List Event → Nat
  | [] => 0
  | event :: older => if event.mode.any (· ≠ modeOf older) then tickCount older else modeTick older

def measuredAt (tick : Nat) : List Event → Option Joints
  | [] => none
  | event :: older =>
    match event.measures with
    | some jointPositions => if tickCount older + 1 = tick then some jointPositions else measuredAt tick older
    | none => measuredAt tick older

def Sent.fallsBack (mode : FollowerSource) : Sent → Bool
  | .leaderHold _ => true
  | .hold _ => mode ≠ .hold
  | _ => false

/-- A target sent as a fallback was measured no earlier than the current mode was entered. -/
def FallbackFresh (older : List Event) : Event → Prop
  | .returned sent mode => sent.fallsBack mode →
      measuredAt (latchTick older) older = some sent.joints ∧ modeTick older ≤ latchTick older
  | _ => True

/-- A target is latched on the tick under way: a command entered hold or a failure latched before, or none is latched
yet and the session's first tick will latch after its commands. -/
def LatchingTick (older : List Event) : Prop := lastLatch older = none ∨ ∃ event ∈ currentTick older, event.latches ≠ none

/-- The command that entered teleoperation came, or the arming thread that switched to the policy ended, on a tick that
latches. -/
def EnteredLatching : List Event → Prop
  | [] => False
  | event :: older =>
    match event with
    | .enteredTeleop => LatchingTick older
    | .switched _ previous => if previous = .policy then EnteredLatching older else LatchingTick older
    | _ => EnteredLatching older

/-- In teleoperation a reading of the leader has succeeded, and in policy mode no arming keeps the policy from its turn;
exempt are the modes that were entered on a tick that latches. -/
def Answered (older : List Event) : Event → Prop
  | .returned _ .teleop => .leaderRead true ∉ older → EnteredLatching older
  | .returned _ .policy => .inferenceSkipped ∈ currentTick older → EnteredLatching older
  | _ => True

theorem tickCount_cons (event : Event) (older : List Event) :
    tickCount (event :: older) = if event.measures.isSome then tickCount older + 1 else tickCount older := by
  simp [tickCount, List.countP_cons]
  split <;> rfl

theorem measuredAt_cons_le {event : Event} {older : List Event} {tick : Nat} (past : tick ≤ tickCount older) :
    measuredAt tick (event :: older) = measuredAt tick older := by
  rw [measuredAt]
  split
  · rw [if_neg (by omega)]
  · rfl

theorem measuredAt_tickCount (history : List Event) : measuredAt (tickCount history) history = lastMeasured history := by
  induction history with
  | nil => rfl
  | cons event older ih =>
    cases measured : event.measures with
    | none =>
      rw [measuredAt, tickCount_cons, measured, lastMeasured_cons, measured]
      exact ih
    | some jointPositions => simp [measuredAt, tickCount_cons, measured]

theorem tickCount_le_cons (event : Event) (older : List Event) : tickCount older ≤ tickCount (event :: older) := by
  rw [tickCount_cons]
  split <;> omega

theorem latchTick_le (history : List Event) : latchTick history ≤ tickCount history := by
  induction history with
  | nil => exact le_rfl
  | cons event older ih =>
    refine le_trans ?_ (tickCount_le_cons event older)
    cases event <;> first | exact ih | exact le_rfl

theorem modeTick_le (history : List Event) : modeTick history ≤ tickCount history := by
  induction history with
  | nil => exact le_rfl
  | cons event older ih =>
    have grows := tickCount_le_cons event older
    rw [modeTick]
    split <;> omega

theorem enteredLatching_of_none {history : List Event} (latches : Always LatchSound history)
    (outside : modeOf history ≠ .hold) (unlatched : lastLatch history = none) : EnteredLatching history := by
  induction history with
  | nil => exact absurd rfl outside
  | cons event older ih =>
    obtain ⟨sound, latches⟩ := latches
    cases event with
    | latched => simp [Event.latches] at unlatched
    | enteredTeleop => exact .inl unlatched
    | switched generation previous =>
      obtain rfl : previous = modeOf older := sound
      by_cases again : modeOf older = .policy
      · rw [EnteredLatching, if_pos again]
        exact ih latches (by rw [again]; decide) unlatched
      · rw [EnteredLatching, if_neg again]
        exact .inl unlatched
    | _ => exact ih latches outside unlatched

theorem measuredAt_latchTick {history : List Event} (latches : Always LatchSound history) {target : Joints}
    (latched : lastLatch history = some target) : measuredAt (latchTick history) history = some target := by
  induction history with
  | nil => cases latched
  | cons event older ih =>
    have before : latchTick (event :: older) ≤ tickCount older := by
      cases event <;> first | exact latchTick_le older | exact le_rfl
    rw [measuredAt_cons_le before]
    cases event with
    | latched cause target' previous =>
      cases latched
      exact (measuredAt_tickCount older).trans latches.1.2.1
    | _ => exact ih latches.2 latched

theorem latchingTick_iff {history : List Event} (latched : lastLatch history ≠ none) :
    LatchingTick history ↔ tickCount history ≤ latchTick history := by
  rw [LatchingTick, or_iff_right latched]
  induction history with
  | nil => exact absurd rfl latched
  | cons event older ih =>
    cases event with
    | latched cause target previous =>
      simp [currentTick_cons, Event.measures, Event.latches, tickCount_cons, latchTick]
    | ticked jointPositions =>
      have before : latchTick older ≤ tickCount older := latchTick_le older
      refine iff_of_false (by simp [currentTick_cons, Event.measures]) ?_
      have counted : tickCount (.ticked jointPositions :: older) = tickCount older + 1 := tickCount_cons _ _
      change ¬tickCount _ ≤ latchTick older
      omega
    | _ =>
      rw [lastLatch_cons] at latched
      simpa [currentTick_cons, Event.measures, Event.latches, tickCount_cons, latchTick] using ih latched

/-- Outside hold, nothing is latched after the mode is entered but on the session's first tick. So the newest latch is
of the tick of the entry, or of an earlier one. -/
theorem enteredLatching_iff {history : List Event} (latches : Always LatchSound history) (outside : modeOf history ≠ .hold)
    (latched : lastLatch history ≠ none) : EnteredLatching history ↔ modeTick history ≤ latchTick history := by
  induction history with
  | nil => exact absurd rfl outside
  | cons event older ih =>
    obtain ⟨sound, latches⟩ := latches
    cases event with
    | latched cause target previous =>
      cases cause with
      | firstTick =>
        obtain ⟨-, -, -, none_⟩ := sound
        have entered : EnteredLatching older := enteredLatching_of_none latches outside (none_ rfl)
        exact iff_of_true entered (modeTick_le older)
      | command | policyFailure | leaderFailure => exact absurd rfl outside
    | enteredTeleop =>
      have entered : modeTick (.enteredTeleop :: older) = tickCount older := if_pos (by simpa [Event.mode] using sound.symm)
      rw [entered]
      exact latchingTick_iff latched
    | switched generation previous =>
      obtain rfl : previous = modeOf older := sound
      -- A switch between two policies enters nothing; from any other mode it does.
      by_cases again : modeOf older = .policy
      · have same : modeTick (.switched generation (modeOf older) :: older) = modeTick older :=
          if_neg (by simp [Event.mode, again])
        rw [EnteredLatching, if_pos again, same]
        exact ih latches (by rw [again]; decide) latched
      · have entered : modeTick (.switched generation (modeOf older) :: older) = tickCount older :=
          if_pos (by simpa [Event.mode] using Ne.symm again)
        rw [EnteredLatching, if_neg again, entered]
        exact latchingTick_iff latched
    | _ => exact ih latches outside latched

theorem fallback_iff {older : List Event} {mode : FollowerSource} {sent : Sent} (sound : SentSound older mode sent) :
    sent.fallsBack mode ↔
      mode = .teleop ∧ .leaderRead true ∉ older ∨ mode = .policy ∧ .inferenceSkipped ∈ currentTick older := by
  cases sent with
  | leader action => simp [Sent.fallsBack, sound.1, sound.2]
  | leaderHold target => simp [Sent.fallsBack, sound.1, sound.2.1]
  | policy source action => simp [Sent.fallsBack, sound.1, sound.2]
  | hold target =>
    obtain ⟨other, skipped, -⟩ := sound
    cases mode with
    | hold => simp [Sent.fallsBack]
    | teleop => exact absurd rfl other
    | policy => simp [Sent.fallsBack, skipped rfl]

theorem fallback_target {older : List Event} {mode : FollowerSource} {sent : Sent} (sound : SentSound older mode sent)
    (falls : sent.fallsBack mode) : lastLatch older = some sent.joints := by
  cases sent with
  | leader | policy => cases falls
  | leaderHold target => exact sound.2.2
  | hold target => exact sound.2.2

theorem answered_iff {older : List Event} {mode : FollowerSource} {sent : Sent} (sound : SentSound older mode sent) :
    Answered older (.returned sent mode) ↔ (sent.fallsBack mode → EnteredLatching older) := by
  rw [fallback_iff sound]
  cases mode <;> simp [Answered]

/-- In a run the target sent outside hold is fresh exactly if every tick finds something else to send, but in the modes
that were entered on a tick that latches. -/
theorem fallback_fresh_iff_answered (rig : Rig) (script : Script) (ticks : List Tick) (shutdownRaises : Option Fault)
    (schedule : List Nat) :
    Always FallbackFresh (run rig script ticks shutdownRaises schedule).memory.history ↔
      Always Answered (run rig script ticks shutdownRaises schedule).memory.history := by
  have inv := run_latches rig script ticks shutdownRaises schedule
  refine always_congr (inv.returns.and_before inv.latches) fun older event known => ?_
  obtain ⟨sound, latches⟩ := known
  cases event with
  | returned sent mode =>
    obtain ⟨rfl, sound⟩ := sound
    rw [answered_iff sound]
    refine forall_congr' fun falls => ?_
    have target := fallback_target sound falls
    have outside : modeOf older ≠ .hold := by
      intro hold
      rcases (fallback_iff sound).mp falls with ⟨teleop, -⟩ | ⟨policy, -⟩
      · cases hold.symm.trans teleop
      · cases hold.symm.trans policy
    rw [and_iff_right (measuredAt_latchTick latches target)]
    exact (enteredLatching_iff latches outside (by simp [target])).symm
  | _ => exact Iff.rfl

instance (older : List Event) (event : Event) : Decidable (FallbackFresh older event) := by
  unfold FallbackFresh
  split <;> infer_instance

def restartTask : List Tick :=
  let moving : PolicySource → Except Fault Joints := fun _ => .ok [2]
  [{ jointPositions := [0], commands := [{ command := .loadModel sampleLoad }] },
    { jointPositions := [0], commands := [{ command := .startTask "pick" }], policyUpdate := moving },
    { jointPositions := [1], policyUpdate := moving },
    { jointPositions := [2], commands := [{ command := .startTask "pick" }], policyUpdate := moving }]

/-- The loader attaches after the first tick, the first arming thread switches after the second. -/
def restartSchedule : List Nat :=
  List.replicate 13 0 ++ List.replicate 8 1 ++ List.replicate 9 0 ++ List.replicate 2 2 ++ List.replicate 16 0

/-- While the second arming warms up, the arm is sent back to where the session started. -/
theorem restart_falls_back_to_old_target :
    ¬Always FallbackFresh (run aloneRig {} restartTask none restartSchedule).memory.history := by
  decide +kernel

end PhysicalAiStudio.Runtime
