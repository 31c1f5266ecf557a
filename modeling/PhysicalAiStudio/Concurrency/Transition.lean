import Mathlib.Data.Option.Basic
import PhysicalAiStudio.Concurrency.History

/-! Systems that move by events.

A step names its event and may be impossible in a state. A run is the list of its
events, newest first, so every interleaving of the parties of a system is a run of it.
-/

set_option autoImplicit false

namespace PhysicalAiStudio.Concurrency

structure System (State Event : Type) where
  initial : State
  step : State → Event → Option State

namespace System

variable {State Event : Type} (system : System State Event)

def reached : List Event → Option State
  | [] => some system.initial
  | event :: older => (reached older).bind fun state => system.step state event

/-- Every step of a run satisfies a condition on the state before it and on its event. -/
def Throughout (C : State → Event → Prop) : List Event → Prop :=
  Always fun older event => ∀ before ∈ system.reached older, C before event

instance Throughout.decidable (C : State → Event → Prop) [∀ state event, Decidable (C state event)]
    (history : List Event) : Decidable (system.Throughout C history) :=
  inferInstanceAs (Decidable (Always _ history))

variable {system} {C D : State → Event → Prop} {P : State → Prop} {history older : List Event} {event : Event}
  {before state : State}

@[simp] theorem reached_nil : system.reached [] = some system.initial := rfl

theorem reached_step :
    system.reached (event :: older) = (system.reached older).bind fun state => system.step state event := rfl

theorem reached_cons :
    system.reached (event :: older) = some state ↔
      ∃ before, system.reached older = some before ∧ system.step before event = some state := by
  rw [reached_step, Option.bind_eq_some_iff]

theorem reached_older {later : List Event} (reached : system.reached (later ++ older) = some state) :
    ∃ before, system.reached older = some before := by
  induction later generalizing state with
  | nil => exact ⟨state, reached⟩
  | cons event later ih =>
    obtain ⟨next, reached, _⟩ := reached_cons.mp reached
    exact ih reached

theorem throughout_cons (reached : system.reached older = some before) :
    system.Throughout C (event :: older) ↔ C before event ∧ system.Throughout C older := by
  simp [Throughout, reached]

theorem Throughout.mono (weaker : ∀ before event, C before event → D before event)
    (throughout : system.Throughout C history) : system.Throughout D history :=
  Always.mono (fun _ _ here before led => weaker before _ (here before led)) throughout

/-- What holds at first and is kept by every step that meets the condition holds wherever the run leads. -/
theorem invariant (initial : P system.initial)
    (preserved : ∀ before event next, P before → C before event → system.step before event = some next → P next)
    (throughout : system.Throughout C history) (reached : system.reached history = some state) : P state := by
  induction history generalizing state with
  | nil => cases reached; exact initial
  | cons event older ih =>
    obtain ⟨before, led, step⟩ := reached_cons.mp reached
    obtain ⟨here, earlier⟩ := (throughout_cons led).mp throughout
    exact preserved before event state (ih earlier led) here step

theorem invariant_throughout (initial : P system.initial)
    (preserved : ∀ before event next, P before → C before event → system.step before event = some next → P next)
    (throughout : system.Throughout C history) :
    system.Throughout (fun before event => P before ∧ C before event) history := by
  induction history with
  | nil => trivial
  | cons event older ih =>
    exact ⟨fun before led => ⟨invariant initial preserved throughout.2 led, throughout.1 before led⟩,
      ih throughout.2⟩

theorem invariant_always (initial : P system.initial)
    (preserved : ∀ before event next, P before → system.step before event = some next → P next)
    (reached : system.reached history = some state) : P state := by
  refine invariant (C := fun _ _ => True) initial (fun before event next holds _ => preserved before event next holds)
    ?_ reached
  exact (always_iff history).mpr fun _ _ _ _ _ _ => trivial

theorem invariant_later {later : List Event}
    (preserved : ∀ before event next, P before → C before event → system.step before event = some next → P next)
    (throughout : system.Throughout C (later ++ older)) (led : system.reached older = some before) (holds : P before)
    (reached : system.reached (later ++ older) = some state) : P state := by
  induction later generalizing state with
  | nil =>
    cases led.symm.trans reached
    exact holds
  | cons event later ih =>
    obtain ⟨last, led, step⟩ := reached_cons.mp reached
    obtain ⟨here, earlier⟩ := (throughout_cons led).mp throughout
    exact preserved last event state (ih earlier led) here step

theorem invariant_later_always {later : List Event}
    (preserved : ∀ before event next, P before → system.step before event = some next → P next)
    (led : system.reached older = some before) (holds : P before)
    (reached : system.reached (later ++ older) = some state) : P state := by
  refine invariant_later (C := fun _ _ => True) (fun before event next holds _ => preserved before event next holds)
    ?_ led holds reached
  exact (always_iff _).mpr fun _ _ _ _ _ _ => trivial

/-- What does not hold at one point of a run and holds at its end was made true by a step between. -/
theorem exists_change {later : List Event} (led : system.reached older = some before) (lacks : ¬P before)
    (reached : system.reached (later ++ older) = some state) (holds : P state) :
    ∃ newer event earlier last next, later = newer ++ event :: earlier ∧
      system.reached (earlier ++ older) = some last ∧ system.step last event = some next ∧ ¬P last ∧ P next := by
  induction later generalizing state with
  | nil =>
    cases led.symm.trans reached
    exact absurd holds lacks
  | cons event later ih =>
    obtain ⟨last, reached, step⟩ := reached_cons.mp reached
    by_cases already : P last
    · obtain ⟨newer, change, earlier, rest⟩ := ih reached already
      obtain ⟨last', next, same, rest⟩ := rest
      exact ⟨event :: newer, change, earlier, last', next, by rw [same, List.cons_append], rest⟩
    · exact ⟨[], event, later, last, state, rfl, reached, step, already, holds⟩

theorem reached_filter_iff (keep : Event → Bool) :
    (∀ newer older, history = newer ++ older → system.reached older = system.reached (older.filter keep)) ↔
      system.Throughout (fun before event => keep event = false → system.step before event = some before) history := by
  induction history with
  | nil =>
    constructor
    · intro _
      trivial
    · intro _ newer older same
      rw [(List.append_eq_nil_iff.mp same.symm).2]
      rfl
  | cons event older ih =>
    constructor
    · intro dropped
      have earlier := dropped [event] older rfl
      refine ⟨?_, ih.mp fun newer rest same => dropped (event :: newer) rest (by rw [same, List.cons_append])⟩
      intro before led unkept
      have here := dropped [] (event :: older) rfl
      rw [List.filter_cons_of_neg (by rw [unkept]; exact Bool.false_ne_true), ← earlier, led] at here
      obtain ⟨last, again, stepped⟩ := reached_cons.mp here
      cases led.symm.trans again
      exact stepped
    · intro throughout newer rest same
      have earlier := ih.mpr throughout.2
      cases newer with
      | cons first newer =>
        rw [List.cons_append, List.cons.injEq] at same
        exact earlier newer rest same.2
      | nil =>
        rw [List.nil_append] at same
        subst same
        have before := earlier [] older rfl
        -- A kept event is taken in the same state; a dropped one left the state as it was.
        cases kept : keep event with
        | true =>
          rw [List.filter_cons_of_pos kept, reached_step, reached_step, ← before]
        | false =>
          rw [List.filter_cons_of_neg (by rw [kept]; exact Bool.false_ne_true), ← before]
          cases led : system.reached older with
          | none => rw [reached_step, led, Option.bind_none]
          | some state => rw [reached_step, led, Option.bind_some, throughout.1 state led kept]

def observed {Record : Type} (system : System State Event) (start : Record) (note : Record → Event → Record) :
    System (State × Record) Event where
  initial := (system.initial, start)
  step := fun (state, record) event => (system.step state event).map fun next => (next, note record event)

theorem observed_reached {Record : Type} {start : Record} {note : Record → Event → Record} {record : Record} :
    (system.observed start note).reached history = some (state, record) ↔
      system.reached history = some state ∧ history.foldr (fun event record => note record event) start = record := by
  induction history generalizing state record with
  | nil => simp [observed]
  | cons event older ih =>
    simp only [reached_cons, Prod.exists, ih, List.foldr_cons]
    constructor
    · rintro ⟨before, seen, ⟨led, rfl⟩, step⟩
      obtain ⟨next, stepped, same⟩ := Option.map_eq_some_iff.mp step
      cases same
      exact ⟨⟨before, led, stepped⟩, rfl⟩
    · rintro ⟨⟨before, led, stepped⟩, rfl⟩
      exact ⟨before, _, ⟨led, rfl⟩, Option.map_eq_some_iff.mpr ⟨state, stepped, rfl⟩⟩

theorem Throughout.of_observed {Record : Type} {start : Record} {note : Record → Event → Record}
    (throughout : (system.observed start note).Throughout (fun before event => C before.1 event) history) :
    system.Throughout C history :=
  Always.mono (fun _ _ here before led => here (before, _) (observed_reached.mpr ⟨led, rfl⟩)) throughout

end System

end PhysicalAiStudio.Concurrency
