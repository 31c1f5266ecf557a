import Mathlib.Data.List.Nodup
import Mathlib.Data.Option.Basic

/-! The event sink that keeps only the newest observation: `QueueEventSink` of `runtime/contract.py`.

Its lock makes each operation atomic, so the operations of all threads are one sequence.
-/

set_option autoImplicit false

namespace PhysicalAiStudio.Runtime

variable {Event : Type} (isObservation : Event → Bool)

structure QueueEventSink (Event : Type) where
  events : List Event := []

namespace QueueEventSink

def emit (sink : QueueEventSink Event) (event : Event) : QueueEventSink Event :=
  if isObservation event then { events := (sink.events.filter fun item => !isObservation item) ++ [event] }
  else { events := sink.events ++ [event] }

/-- The event that is taken and what stays; nothing where the code raises `queue.Empty`. -/
def getNowait (sink : QueueEventSink Event) : Option (Event × QueueEventSink Event) :=
  match sink.events with
  | [] => none
  | event :: events => some (event, { events })

end QueueEventSink

inductive SinkOperation (Event : Type) where
  | emit (event : Event)
  | getNowait

/-- The sink with what was emitted and delivered so far. An event goes with its number, which tells it from
equal ones. -/
structure SinkHistory (Event : Type) where
  sink : QueueEventSink (Nat × Event) := {}
  emitted : List (Nat × Event) := []
  delivered : List (Nat × Event) := []

namespace SinkHistory

def emit (history : SinkHistory Event) (item : Nat × Event) : SinkHistory Event :=
  { history with
    sink := history.sink.emit (fun item => isObservation item.2) item
    emitted := history.emitted ++ [item] }

def apply (history : SinkHistory Event) : SinkOperation Event → SinkHistory Event
  | .emit event => history.emit isObservation (history.emitted.length, event)
  | .getNowait =>
    match history.sink.getNowait with
    | none => history
    | some (event, sink) => { history with sink, delivered := history.delivered ++ [event] }

def run (operations : List (SinkOperation Event)) : SinkHistory Event :=
  operations.foldl (apply isObservation) {}

end SinkHistory

def controls (events : List (Nat × Event)) : List (Nat × Event) := events.filter fun item => !isObservation item.2

def observations (events : List (Nat × Event)) : List (Nat × Event) := events.filter fun item => isObservation item.2

def newest [DecidableEq Event] (emitted delivered : List (Nat × Event)) : Option (Nat × Event) :=
  (observations isObservation emitted).getLast?.filter fun event => decide (event ∉ delivered)

structure Conflates [DecidableEq Event] (history : SinkHistory Event) : Prop where
  /-- Every other event is delivered or queued, once and in the order of emission. -/
  kept : controls isObservation (history.delivered ++ history.sink.events) = controls isObservation history.emitted
  latest : observations isObservation history.sink.events =
    (newest isObservation history.emitted history.delivered).toList
  /-- Nothing is put before what was emitted earlier. -/
  order : (history.delivered ++ history.sink.events).Sublist history.emitted
  distinct : history.emitted.Nodup

/-! ### One operation -/

section Filters
variable {isObservation}

@[simp] theorem controls_append (first second : List (Nat × Event)) :
    controls isObservation (first ++ second) = controls isObservation first ++ controls isObservation second :=
  List.filter_append ..

@[simp] theorem observations_append (first second : List (Nat × Event)) :
    observations isObservation (first ++ second) =
      observations isObservation first ++ observations isObservation second :=
  List.filter_append ..

@[simp] theorem controls_controls (events : List (Nat × Event)) :
    controls isObservation (controls isObservation events) = controls isObservation events := by
  simp [controls]

@[simp] theorem observations_controls (events : List (Nat × Event)) :
    observations isObservation (controls isObservation events) = [] := by
  rw [observations, controls, List.filter_filter, List.filter_eq_nil_iff]
  simp

theorem controls_observation {event : Nat × Event} (observed : isObservation event.2 = true) :
    controls isObservation [event] = [] := by
  simp [controls, observed]

theorem observations_observation {event : Nat × Event} (observed : isObservation event.2 = true) :
    observations isObservation [event] = [event] := by
  simp [observations, observed]

theorem observations_other {event : Nat × Event} (other : isObservation event.2 = false) :
    observations isObservation [event] = [] := by
  simp [observations, other]

end Filters

/-- The number of an event is below the count of the emitted ones. -/
def Numbered (history : SinkHistory Event) : Prop := ∀ event ∈ history.emitted, event.1 < history.emitted.length

theorem numbered_apply {history : SinkHistory Event} (numbered : Numbered history) (operation : SinkOperation Event) :
    Numbered (history.apply isObservation operation) := by
  cases operation with
  | emit event =>
      intro item member
      simp only [SinkHistory.apply, SinkHistory.emit, List.mem_append, List.mem_singleton, List.length_append,
        List.length_singleton] at member ⊢
      rcases member with earlier | new
      · have below := numbered item earlier
        omega
      · subst new
        exact Nat.lt_succ_self _
  | getNowait =>
      rw [SinkHistory.apply]
      cases history.sink.getNowait <;> exact numbered

section Operations
variable {isObservation} [DecidableEq Event] {history : SinkHistory Event}

theorem Conflates.emit (conflates : Conflates isObservation history) {item : Nat × Event}
    (fresh : item ∉ history.emitted) : Conflates isObservation (history.emit isObservation item) := by
  have undelivered : item ∉ history.delivered := fun member =>
    fresh (conflates.order.subset (List.mem_append_left _ member))
  have distinct : (history.emitted ++ [item]).Nodup :=
    List.Nodup.append conflates.distinct (List.pairwise_singleton _ item) (List.disjoint_singleton.mpr fresh)
  have kept := conflates.kept
  have latest := conflates.latest
  rw [controls_append] at kept
  cases kind : isObservation item.2 with
  | true =>
      -- The queued observation gives way to the new one; the other events stay as they are.
      have queued : (history.sink.emit (fun item => isObservation item.2) item).events =
          controls isObservation history.sink.events ++ [item] := by
        rw [QueueEventSink.emit, if_pos kind]
        rfl
      have last : (observations isObservation (history.emitted ++ [item])).getLast? = some item := by
        rw [observations_append, observations_observation kind, List.getLast?_append]
        rfl
      refine ⟨?_, ?_, ?_, distinct⟩
      · simp only [SinkHistory.emit, queued, controls_append, controls_controls, controls_observation kind,
          List.append_nil]
        exact kept
      · have found : newest isObservation (history.emitted ++ [item]) history.delivered = some item := by
          rw [newest, last, Option.filter_some, if_pos (decide_eq_true undelivered)]
        simp only [SinkHistory.emit, queued, found, observations_append, observations_controls,
          observations_observation kind, List.nil_append, Option.toList_some]
      · simp only [SinkHistory.emit, queued]
        rw [← List.append_assoc]
        apply List.Sublist.append _ (List.Sublist.refl _)
        exact (List.Sublist.append (List.Sublist.refl _) List.filter_sublist).trans conflates.order
  | false =>
      have queued : (history.sink.emit (fun item => isObservation item.2) item).events =
          history.sink.events ++ [item] := by
        rw [QueueEventSink.emit, if_neg (Bool.eq_false_iff.mp kind)]
      refine ⟨?_, ?_, ?_, distinct⟩
      · simp only [SinkHistory.emit, queued, controls_append]
        rw [← List.append_assoc, kept]
      · simp only [SinkHistory.emit, queued, newest, observations_append, observations_other kind, List.append_nil]
        exact latest
      · simp only [SinkHistory.emit, queued]
        rw [← List.append_assoc]
        exact List.Sublist.append conflates.order (List.Sublist.refl _)

theorem Conflates.take (conflates : Conflates isObservation history) {event : Nat × Event} {events : List (Nat × Event)}
    (queue : history.sink.events = event :: events) :
    Conflates isObservation { history with sink := { events }, delivered := history.delivered ++ [event] } := by
  have moved : (history.delivered ++ [event]) ++ events = history.delivered ++ history.sink.events := by
    rw [queue, List.append_assoc, List.singleton_append]
  refine ⟨?_, ?_, ?_, conflates.distinct⟩
  · have kept := conflates.kept
    rw [← moved] at kept
    exact kept
  · have latest := conflates.latest
    rw [queue, ← List.singleton_append, observations_append] at latest
    cases kind : isObservation event.2 with
    | true =>
        -- The taken observation was the only one, and is the last one emitted.
        rw [observations_observation kind, List.singleton_append] at latest
        cases pending : newest isObservation history.emitted history.delivered with
        | none =>
            rw [pending] at latest
            cases latest
        | some observation =>
            rw [pending] at latest
            obtain ⟨same, rest⟩ := List.cons.inj latest
            subst same
            rw [newest, Option.filter_eq_some_iff] at pending
            have gone : newest isObservation history.emitted (history.delivered ++ [event]) = none := by
              rw [newest, pending.1, Option.filter_some, if_neg]
              simp
            exact rest.trans (congrArg Option.toList gone).symm
    | false =>
        rw [observations_other kind, List.nil_append] at latest
        have same : newest isObservation history.emitted (history.delivered ++ [event]) =
            newest isObservation history.emitted history.delivered := by
          unfold newest
          cases last : (observations isObservation history.emitted).getLast? with
          | none => rfl
          | some observation =>
              have observed : isObservation observation.2 = true :=
                (List.mem_filter.mp (List.mem_of_getLast? last)).2
              have apart : observation ≠ event := by
                intro equal
                rw [equal, kind] at observed
                cases observed
              simp [Option.filter_some, apart]
        exact latest.trans (congrArg Option.toList same).symm
  · have order := conflates.order
    rw [← moved] at order
    exact order

end Operations

/-! ### Every run -/

section Runs
variable {isObservation} [DecidableEq Event]

theorem conflates_apply {history : SinkHistory Event} (conflates : Conflates isObservation history)
    (numbered : Numbered history) (operation : SinkOperation Event) :
    Conflates isObservation (history.apply isObservation operation) := by
  cases operation with
  | emit event => exact conflates.emit fun member => Nat.lt_irrefl _ (numbered _ member)
  | getNowait =>
      rw [SinkHistory.apply, QueueEventSink.getNowait]
      cases queue : history.sink.events with
      | nil => exact conflates
      | cons event events => exact conflates.take queue

theorem conflates_from {history : SinkHistory Event} (conflates : Conflates isObservation history)
    (numbered : Numbered history) (operations : List (SinkOperation Event)) :
    Conflates isObservation (operations.foldl (SinkHistory.apply isObservation) history) := by
  induction operations generalizing history with
  | nil => exact conflates
  | cons operation operations ih =>
      exact ih (conflates_apply conflates numbered operation) (numbered_apply isObservation numbered operation)

theorem conflates_run (operations : List (SinkOperation Event)) :
    Conflates isObservation (SinkHistory.run isObservation operations) := by
  apply conflates_from
  · exact ⟨rfl, rfl, List.Sublist.refl [], List.nodup_nil⟩
  · intro event member
    cases member

omit [DecidableEq Event] in
/-- Taking an event as often as there are events delivers them all. -/
theorem drained (history : SinkHistory Event) :
    (List.replicate history.sink.events.length .getNowait).foldl (SinkHistory.apply isObservation) history =
      { history with sink := {}, delivered := history.delivered ++ history.sink.events } := by
  obtain ⟨⟨events⟩, emitted, delivered⟩ := history
  induction events generalizing delivered with
  | nil => simp
  | cons event events ih =>
      rw [List.length_cons, List.replicate_succ, List.foldl_cons]
      have taken := ih (delivered ++ [event])
      rw [List.append_assoc, List.singleton_append] at taken
      exact taken

/-- The sink delivers every event but the observations that a newer one replaced. -/
theorem observations_conflated (operations : List (SinkOperation Event)) :
    Conflates isObservation (SinkHistory.run isObservation operations) ∧
      (observations isObservation (SinkHistory.run isObservation operations).sink.events).length ≤ 1 ∧
      ∃ count, ∀ history, history = SinkHistory.run isObservation (operations ++ List.replicate count .getNowait) →
        history.sink.events = [] ∧ history.emitted = (SinkHistory.run isObservation operations).emitted ∧
          controls isObservation history.delivered = controls isObservation history.emitted := by
  have conflates := @conflates_run Event isObservation _ operations
  refine ⟨conflates, ?_, (SinkHistory.run isObservation operations).sink.events.length, ?_⟩
  · rw [conflates.latest]
    exact Option.length_toList_le
  · intro history made
    rw [SinkHistory.run, List.foldl_append] at made
    have empty := made.trans (drained _)
    rw [empty]
    exact ⟨rfl, rfl, conflates.kept⟩

end Runs

end PhysicalAiStudio.Runtime
