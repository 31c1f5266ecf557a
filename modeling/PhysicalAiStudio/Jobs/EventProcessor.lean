import PhysicalAiStudio.Collections.Dict
import PhysicalAiStudio.Strings.Text
import Mathlib.Data.List.Nodup

/-! The event bus between the workers and the websockets: `services/event_processor.py`.

Events are numbered as they are published, and the payload of an event is told by its number. The handlers are
subscribed before; how each of their calls ends is an input.
-/

set_option autoImplicit false

namespace PhysicalAiStudio.Jobs
open Collections Strings

inductive EventType where
  | modelUpdate
  | jobUpdate
  deriving DecidableEq

def EventType.text : EventType → Text
  | .modelUpdate => "MODEL_UPDATE".toList
  | .jobUpdate => "JOB_UPDATE".toList

inductive CallEnd where
  | returned
  | raised
  /-- It raises `queue.Empty`. -/
  | empty
  /-- It raises what is no `Exception`, such as a cancellation. -/
  | cancelled
  deriving DecidableEq

variable {Handler : Type} [DecidableEq Handler]

abbrev EventHandlers (Handler : Type) := Dict Text (List Handler)

namespace EventHandlers

def under (handlers : EventHandlers Handler) (key : Text) : List Handler := (handlers.get? key).getD []

def subscribe (handlers : EventHandlers Handler) (eventTypes : List Text) (handler : Handler) :
    EventHandlers Handler :=
  eventTypes.foldl (fun handlers key => handlers.set key (handlers.under key ++ [handler])) handlers

def unsubscribe (handlers : EventHandlers Handler) (eventTypes : List Text) (handler : Handler) :
    EventHandlers Handler :=
  eventTypes.foldl (fun handlers key => handlers.set key ((handlers.under key).filter fun h => decide (h ≠ handler)))
    handlers

end EventHandlers

/-- What iterating over one event type yields, which is a string. -/
def EventType.letters (event : EventType) : List Text := event.text.map fun letter => [letter]

structure EventProcessor (Handler : Type) where
  handlers : EventHandlers Handler
  queue : List EventType := []
  taken : List EventType := []
  calls : List (Nat × Handler) := []
  running : Bool := true

namespace EventProcessor

def handlersOf (processor : EventProcessor Handler) (event : EventType) : List Handler :=
  processor.handlers.under event.text

variable (isCoroutine : Handler → Bool) (ends : Nat → Handler → CallEnd)

def dispatch (number : Nat) (event : EventType) : List Handler → EventProcessor Handler → EventProcessor Handler
  | [], processor => processor
  | handler :: rest, processor =>
    let called := { processor with calls := processor.calls ++ [(number, handler)] }
    match ends number handler, isCoroutine handler with
    | .returned, _ => dispatch number event rest called
    | .cancelled, _ => { called with running := false }
    -- The event type itself is handed over for the sequence of event types.
    | .raised, true | .empty, true =>
      dispatch number event rest { called with handlers := called.handlers.unsubscribe event.letters handler }
    | .raised, false => { called with running := false }
    -- Taken for an empty queue.
    | .empty, false => called

def poll (processor : EventProcessor Handler) : EventProcessor Handler :=
  if processor.running then
    match processor.queue with
    | [] => processor
    | event :: queue =>
      dispatch isCoroutine ends processor.taken.length event (processor.handlersOf event)
        { processor with queue, taken := processor.taken ++ [event] }
  else processor

inductive Action where
  | publish (event : EventType)
  | poll

def act (processor : EventProcessor Handler) : Action → EventProcessor Handler
  | .publish event => { processor with queue := processor.queue ++ [event] }
  | .poll => processor.poll isCoroutine ends

def run (processor : EventProcessor Handler) (actions : List Action) : EventProcessor Handler :=
  actions.foldl (act isCoroutine ends) processor

def published (actions : List Action) : List EventType :=
  actions.filterMap fun action =>
    match action with
    | .publish event => some event
    | .poll => none

end EventProcessor

structure Subscriptions (Handler : Type) [DecidableEq Handler] where
  handlers : EventHandlers Handler
  once : ∀ event : EventType, (handlers.under event.text).Nodup

namespace Subscriptions

def of (subscriptions : Subscriptions Handler) (event : EventType) : List Handler :=
  subscriptions.handlers.under event.text

def start (subscriptions : Subscriptions Handler) : EventProcessor Handler := { handlers := subscriptions.handlers }

def numbers (subscriptions : Subscriptions Handler) (handler : Handler) (events : List EventType) : List Nat :=
  (events.zipIdx.filter fun event => decide (handler ∈ subscriptions.of event.1)).map Prod.snd

variable (subscriptions : Subscriptions Handler) (ends : Nat → Handler → CallEnd)

/-- What a run of the processor promises in the state it leads to. -/
structure Promised (actions : List EventProcessor.Action) (processor : EventProcessor Handler) : Prop where
  kept : processor.taken ++ processor.queue = EventProcessor.published actions
  received : ∀ handler, (∀ number, ends number handler = .returned) →
    (processor.calls.filter fun call => decide (call.2 = handler)).map Prod.fst =
      subscriptions.numbers handler processor.taken
  /-- A handler that raised is not called for that event type again. -/
  dropped : ∀ handler first second event, (first, handler) ∈ processor.calls → (second, handler) ∈ processor.calls →
    first < second → processor.taken[first]? = some event → processor.taken[second]? = some event →
    ends first handler = .returned
  alive : processor.running = true

/-- Only coroutines raise, each at the last event of its type. -/
def Harmless (isCoroutine : Handler → Bool) (events : List EventType) : Prop :=
  ∀ number event handler, events[number]? = some event → handler ∈ subscriptions.of event →
    ends number handler = .returned ∨
      isCoroutine handler = true ∧ ends number handler ≠ .cancelled ∧
        ∀ later, number < later → events[later]? ≠ some event

end Subscriptions

/-! ### What unsubscribing changes -/

omit [DecidableEq Handler] in
theorem EventHandlers.under_set (handlers : EventHandlers Handler) (key other : Text) (list : List Handler) :
    EventHandlers.under (handlers.set key list) other = if other = key then list else handlers.under other := by
  unfold EventHandlers.under
  rw [Dict.get?_set]
  split <;> rfl

theorem EventHandlers.under_unsubscribe {eventTypes : List Text} {key : Text} (apart : key ∉ eventTypes)
    (handlers : EventHandlers Handler) (handler : Handler) :
    (handlers.unsubscribe eventTypes handler).under key = handlers.under key := by
  unfold EventHandlers.unsubscribe
  induction eventTypes generalizing handlers with
  | nil => rfl
  | cons first eventTypes ih =>
      obtain ⟨different, later⟩ := not_or.mp fun either => apart (List.mem_cons.mpr either)
      rw [List.foldl_cons, ih later, EventHandlers.under_set, if_neg different]

theorem EventType.text_notMem_letters (event other : EventType) : other.text ∉ event.letters := by
  intro member
  obtain ⟨letter, -, same⟩ := List.mem_map.mp member
  have length : other.text.length = 1 := by rw [← same, List.length_singleton]
  cases other <;> cases length

theorem EventHandlers.under_unsubscribe_letters (handlers : EventHandlers Handler) (handler : Handler)
    (event other : EventType) : (handlers.unsubscribe event.letters handler).under other.text = handlers.under other.text :=
  under_unsubscribe (event.text_notMem_letters other) handlers handler

/-! ### One event -/

namespace EventProcessor
variable {isCoroutine : Handler → Bool} {ends : Nat → Handler → CallEnd}

/-- What a call may do without an effect on the calls after it. -/
def Quiet (isCoroutine : Handler → Bool) (ends : Nat → Handler → CallEnd) (number : Nat) (handler : Handler) : Prop :=
  ends number handler = .returned ∨ isCoroutine handler = true ∧ ends number handler ≠ .cancelled

structure Leaves (before after : EventProcessor Handler) : Prop where
  handlers : ∀ event, after.handlersOf event = before.handlersOf event
  queue : after.queue = before.queue
  taken : after.taken = before.taken
  calls : ∃ more, after.calls = before.calls ++ more

omit [DecidableEq Handler] in
theorem Leaves.refl (processor : EventProcessor Handler) : Leaves processor processor :=
  ⟨fun _ => rfl, rfl, rfl, [], (List.append_nil _).symm⟩

omit [DecidableEq Handler] in
theorem Leaves.trans {first second third : EventProcessor Handler} (one : Leaves first second)
    (two : Leaves second third) : Leaves first third := by
  obtain ⟨more, calls⟩ := one.calls
  obtain ⟨rest, later⟩ := two.calls
  exact ⟨fun event => (two.handlers event).trans (one.handlers event), two.queue.trans one.queue,
    two.taken.trans one.taken, more ++ rest, by rw [later, calls, List.append_assoc]⟩

theorem dispatch_leaves (number : Nat) (event : EventType) (list : List Handler) (processor : EventProcessor Handler) :
    Leaves processor (dispatch isCoroutine ends number event list processor) := by
  induction list generalizing processor with
  | nil => exact Leaves.refl processor
  | cons handler rest ih =>
      have called : Leaves processor { processor with calls := processor.calls ++ [(number, handler)] } :=
        ⟨fun _ => rfl, rfl, rfl, [(number, handler)], rfl⟩
      have dropped : Leaves processor { processor with
          handlers := processor.handlers.unsubscribe event.letters handler
          calls := processor.calls ++ [(number, handler)] } :=
        ⟨fun other => EventHandlers.under_unsubscribe_letters processor.handlers handler event other, rfl, rfl,
          [(number, handler)], rfl⟩
      unfold dispatch
      split
      · exact called.trans (ih _)
      · exact ⟨called.handlers, called.queue, called.taken, called.calls⟩
      · exact dropped.trans (ih _)
      · exact dropped.trans (ih _)
      · exact ⟨called.handlers, called.queue, called.taken, called.calls⟩
      · exact called

theorem dispatch_quiet {number : Nat} {event : EventType} {list : List Handler}
    (quiet : ∀ handler ∈ list, Quiet isCoroutine ends number handler) (processor : EventProcessor Handler) :
    (dispatch isCoroutine ends number event list processor).calls =
        processor.calls ++ list.map (fun handler => (number, handler)) ∧
      (dispatch isCoroutine ends number event list processor).running = processor.running := by
  induction list generalizing processor with
  | nil => exact ⟨(List.append_nil _).symm, rfl⟩
  | cons handler rest ih =>
      have here := quiet handler List.mem_cons_self
      have later := fun next => ih (fun other member => quiet other (List.mem_cons_of_mem _ member)) next
      have joined : processor.calls ++ (handler :: rest).map (fun handler => (number, handler)) =
          processor.calls ++ [(number, handler)] ++ rest.map fun handler => (number, handler) := by
        rw [List.append_assoc, List.map_cons, List.singleton_append]
      rw [joined]
      unfold dispatch
      rcases here with returned | ⟨coroutine, uncancelled⟩
      · rw [returned]
        exact later _
      · rw [coroutine]
        cases how : ends number handler with
        | returned => exact later _
        | raised => exact later _
        | empty => exact later _
        | cancelled => exact absurd how uncancelled

theorem dispatch_calls {number : Nat} {event : EventType} {before after : List Handler} {handler : Handler}
    (returns : ∀ other ∈ before, ends number other = .returned) (processor : EventProcessor Handler) :
    (number, handler) ∈ (dispatch isCoroutine ends number event (before ++ handler :: after) processor).calls := by
  induction before generalizing processor with
  | nil =>
      have called : ∀ next : EventProcessor Handler, (number, handler) ∈ next.calls →
          ∀ list, (number, handler) ∈ (dispatch isCoroutine ends number event list next).calls := by
        intro next member list
        obtain ⟨more, calls⟩ := (dispatch_leaves number event list next).calls
        rw [calls]
        exact List.mem_append_left _ member
      have new : (number, handler) ∈ processor.calls ++ [(number, handler)] :=
        List.mem_append_right _ List.mem_cons_self
      rw [List.nil_append, dispatch]
      split
      · exact called _ new after
      · exact new
      · exact called _ new after
      · exact called _ new after
      · exact new
      · exact new
  | cons other before ih =>
      rw [List.cons_append, dispatch, returns other List.mem_cons_self]
      exact ih (fun third member => returns third (List.mem_cons_of_mem _ member)) _

/-! ### One action -/

theorem poll_idle {processor : EventProcessor Handler} (idle : processor.queue = []) :
    processor.poll isCoroutine ends = processor := by
  rw [poll, idle]
  exact ite_self _

theorem poll_stopped {processor : EventProcessor Handler} (stopped : processor.running = false) :
    processor.poll isCoroutine ends = processor := by
  rw [poll, stopped, if_neg Bool.false_ne_true]

theorem poll_next {processor : EventProcessor Handler} {event : EventType} {queue : List EventType}
    (running : processor.running = true) (next : processor.queue = event :: queue) :
    processor.poll isCoroutine ends =
      dispatch isCoroutine ends processor.taken.length event (processor.handlersOf event)
        { processor with queue, taken := processor.taken ++ [event] } := by
  rw [poll, if_pos running, next]

theorem act_kept (processor : EventProcessor Handler) (action : Action) :
    (processor.act isCoroutine ends action).taken ++ (processor.act isCoroutine ends action).queue =
      processor.taken ++ processor.queue ++ published [action] := by
  cases action with
  | publish event => exact (List.append_assoc ..).symm
  | poll =>
      have nothing : published [Action.poll] = [] := rfl
      rw [nothing, List.append_nil, act]
      cases running : processor.running with
      | false => rw [poll_stopped running]
      | true =>
          cases next : processor.queue with
          | nil => rw [poll_idle next, next]
          | cons event queue =>
              have left := @dispatch_leaves _ _ isCoroutine ends processor.taken.length event
                (processor.handlersOf event) { processor with queue, taken := processor.taken ++ [event] }
              rw [poll_next running next, left.taken, left.queue]
              exact (List.append_assoc ..).trans rfl

theorem act_handlers (processor : EventProcessor Handler) (action : Action) (event : EventType) :
    (processor.act isCoroutine ends action).handlersOf event = processor.handlersOf event := by
  cases action with
  | publish _ => rfl
  | poll =>
      rw [act]
      cases running : processor.running with
      | false => rw [poll_stopped running]
      | true =>
          cases next : processor.queue with
          | nil => rw [poll_idle next]
          | cons first queue =>
              rw [poll_next running next]
              exact (dispatch_leaves _ _ _ _).handlers event

theorem published_cons (action : Action) (actions : List Action) :
    published (action :: actions) = published [action] ++ published actions := by
  unfold published
  cases action <;> rfl

/-- No event is lost and none is taken twice, and the subscriptions stay. -/
theorem run_kept (processor : EventProcessor Handler) (actions : List Action) :
    (processor.run isCoroutine ends actions).taken ++ (processor.run isCoroutine ends actions).queue =
        processor.taken ++ processor.queue ++ published actions ∧
      ∀ event, (processor.run isCoroutine ends actions).handlersOf event = processor.handlersOf event := by
  induction actions generalizing processor with
  | nil => exact ⟨(List.append_nil _).symm, fun _ => rfl⟩
  | cons action actions ih =>
      obtain ⟨kept, handlers⟩ := ih (processor.act isCoroutine ends action)
      have unfolded : processor.run isCoroutine ends (action :: actions) =
          (processor.act isCoroutine ends action).run isCoroutine ends actions := rfl
      rw [unfolded, kept, act_kept, published_cons action actions, List.append_assoc]
      exact ⟨rfl, fun event => (handlers event).trans (act_handlers processor action event)⟩

end EventProcessor

/-! ### Runs whose failures are harmless -/

namespace Subscriptions
open EventProcessor

variable {subscriptions : Subscriptions Handler} {isCoroutine : Handler → Bool} {ends : Nat → Handler → CallEnd}

/-- Every handler is called once for each event that it is subscribed to. -/
def allCalls (subscriptions : Subscriptions Handler) (events : List EventType) : List (Nat × Handler) :=
  events.zipIdx.flatMap fun event => (subscriptions.of event.1).map fun handler => (event.2, handler)

theorem allCalls_append (events : List EventType) (event : EventType) :
    subscriptions.allCalls (events ++ [event]) =
      subscriptions.allCalls events ++ (subscriptions.of event).map fun handler => (events.length, handler) := by
  simp [allCalls, List.zipIdx_append]

theorem mem_allCalls {events : List EventType} {number : Nat} {handler : Handler} :
    (number, handler) ∈ subscriptions.allCalls events ↔
      ∃ event, events[number]? = some event ∧ handler ∈ subscriptions.of event := by
  simp only [allCalls, List.mem_flatMap, List.mem_map, Prod.exists, List.mem_zipIdx_iff_getElem?, Prod.mk.injEq]
  constructor
  · rintro ⟨event, position, there, other, member, same, equal⟩
    subst same
    subst equal
    exact ⟨event, there, member⟩
  · rintro ⟨event, there, member⟩
    exact ⟨event, number, there, handler, member, rfl, rfl⟩

theorem calls_of_handler (events : List EventType) (handler : Handler) :
    ((subscriptions.allCalls events).filter fun call => decide (call.2 = handler)).map Prod.fst =
      subscriptions.numbers handler events := by
  unfold allCalls numbers
  induction events.zipIdx with
  | nil => rfl
  | cons event rest ih =>
      have here : ((subscriptions.of event.1).map fun handler => (event.2, handler)).filter
          (fun call => decide (call.2 = handler)) =
          if handler ∈ subscriptions.of event.1 then [(event.2, handler)] else [] := by
        rw [List.filter_map]
        have alone : (subscriptions.of event.1).filter ((fun call => decide (call.2 = handler)) ∘ fun handler =>
            (event.2, handler)) = if handler ∈ subscriptions.of event.1 then [handler] else [] := by
          have once : (subscriptions.of event.1).Nodup := subscriptions.once event.1
          refine (List.filter_eq handler).trans ?_
          by_cases member : handler ∈ subscriptions.of event.1
          · rw [if_pos member, List.count_eq_one_of_mem once member, List.replicate_one]
          · rw [if_neg member, List.count_eq_zero_of_not_mem member, List.replicate_zero]
        rw [alone]
        split <;> rfl
      rw [List.flatMap_cons, List.filter_append, List.map_append, ih, here, List.filter_cons]
      by_cases member : handler ∈ subscriptions.of event.1
      · rw [if_pos member, if_pos (decide_eq_true member)]
        rfl
      · rw [if_neg member, if_neg (by rw [decide_eq_true_eq]; exact member)]
        rfl

structure Delivering (subscriptions : Subscriptions Handler) (processor : EventProcessor Handler) : Prop where
  handlers : ∀ event, processor.handlersOf event = subscriptions.of event
  calls : processor.calls = subscriptions.allCalls processor.taken
  alive : processor.running = true

theorem delivering_act {events rest : List EventType} (harmless : subscriptions.Harmless ends isCoroutine events)
    {processor : EventProcessor Handler} (delivering : subscriptions.Delivering processor)
    (whole : processor.taken ++ processor.queue ++ rest = events) (action : Action) :
    subscriptions.Delivering (processor.act isCoroutine ends action) := by
  cases action with
  | publish event => exact ⟨delivering.handlers, delivering.calls, delivering.alive⟩
  | poll =>
      rw [act]
      cases next : processor.queue with
      | nil =>
          rw [poll_idle next]
          exact delivering
      | cons event queue =>
          have position : events[processor.taken.length]? = some event := by
            rw [← whole, next, List.append_assoc, List.getElem?_append_right le_rfl, Nat.sub_self]
            rfl
          -- The handlers registered now are those of the beginning, and none of them ends the loop at this event.
          have quiet : ∀ handler ∈ processor.handlersOf event,
              Quiet isCoroutine ends processor.taken.length handler := by
            intro handler member
            rw [delivering.handlers] at member
            rcases harmless _ _ _ position member with returned | ⟨coroutine, uncancelled, -⟩
            · exact Or.inl returned
            · exact Or.inr ⟨coroutine, uncancelled⟩
          have left := @dispatch_leaves _ _ isCoroutine ends processor.taken.length event
            (processor.handlersOf event) { processor with queue, taken := processor.taken ++ [event] }
          obtain ⟨calls, running⟩ := dispatch_quiet quiet
            { processor with queue, taken := processor.taken ++ [event] }
          rw [poll_next delivering.alive next]
          refine ⟨fun other => (left.handlers other).trans (delivering.handlers other), ?_, running.trans delivering.alive⟩
          rw [calls, left.taken, allCalls_append, delivering.handlers, delivering.calls]

theorem delivering_run {events : List EventType} (harmless : subscriptions.Harmless ends isCoroutine events)
    (actions : List Action) {processor : EventProcessor Handler} (delivering : subscriptions.Delivering processor)
    (whole : processor.taken ++ processor.queue ++ published actions = events) :
    subscriptions.Delivering (processor.run isCoroutine ends actions) := by
  induction actions generalizing processor with
  | nil => exact delivering
  | cons action actions ih =>
      rw [published_cons, ← List.append_assoc] at whole
      apply ih
      · exact delivering_act harmless delivering ((List.append_assoc ..).symm.trans whole) action
      · rw [act_kept]
        exact whole

theorem promised_of_harmless {actions : List Action}
    (harmless : subscriptions.Harmless ends isCoroutine (published actions)) :
    subscriptions.Promised ends actions (subscriptions.start.run isCoroutine ends actions) := by
  have kept := (@run_kept _ _ isCoroutine ends subscriptions.start actions).1
  have delivering : subscriptions.Delivering (subscriptions.start.run isCoroutine ends actions) :=
    delivering_run harmless actions ⟨fun _ => rfl, rfl, rfl⟩ rfl
  refine ⟨kept, ?_, ?_, delivering.alive⟩
  · intro handler _
    rw [delivering.calls]
    exact calls_of_handler _ handler
  · intro handler first second event called _ less early late
    rw [delivering.calls, mem_allCalls] at called
    obtain ⟨own, there, member⟩ := called
    cases early.symm.trans there
    have before : ∀ {number : Nat}, (subscriptions.start.run isCoroutine ends actions).taken[number]? = some event →
        (published actions)[number]? = some event := by
      intro number taken
      have inside := (List.getElem?_eq_some_iff.mp taken).1
      have whole : published actions = (subscriptions.start.run isCoroutine ends actions).taken ++
          (subscriptions.start.run isCoroutine ends actions).queue := kept.symm
      rw [whole, List.getElem?_append_left inside]
      exact taken
    rcases harmless first event handler (before early) member with returned | ⟨-, -, last⟩
    · exact returned
    · exact absurd (before late) (last second less)

/-! ### Handlers that may raise -/

def burst (event : EventType) (events polls : Nat) : List Action :=
  List.replicate events (.publish event) ++ List.replicate polls .poll

theorem published_burst (event : EventType) (events polls : Nat) :
    published (burst event events polls) = List.replicate events event := by
  simp [published, burst, List.filterMap_append]

theorem run_burst_succ (event : EventType) (events polls : Nat) :
    subscriptions.start.run isCoroutine ends (burst event events (polls + 1)) =
      (subscriptions.start.run isCoroutine ends (burst event events polls)).poll isCoroutine ends := by
  rw [burst, List.replicate_succ', ← List.append_assoc, run, List.foldl_append]
  rfl

theorem run_publishes (event : EventType) (events : Nat) (processor : EventProcessor Handler) :
    processor.run isCoroutine ends (List.replicate events (.publish event)) =
      { processor with queue := processor.queue ++ List.replicate events event } := by
  induction events generalizing processor with
  | zero => simp [run]
  | succ events ih =>
      rw [List.replicate_succ, run, List.foldl_cons, ← run, ih, List.replicate_succ]
      simp [act]

theorem taken_burst {event : EventType} {events : Nat}
    (alive : ∀ polls, (subscriptions.start.run isCoroutine ends (burst event events polls)).running = true)
    {polls : Nat} (enough : polls ≤ events) :
    (subscriptions.start.run isCoroutine ends (burst event events polls)).taken = List.replicate polls event ∧
      (subscriptions.start.run isCoroutine ends (burst event events polls)).queue =
        List.replicate (events - polls) event := by
  induction polls with
  | zero =>
      rw [burst, List.replicate_zero, List.append_nil, run_publishes]
      exact ⟨rfl, rfl⟩
  | succ polls ih =>
      obtain ⟨taken, queue⟩ := ih (Nat.le_of_succ_le enough)
      obtain ⟨left, remaining⟩ := Nat.exists_eq_add_of_lt enough
      have next : events - polls = left + 1 := by omega
      have after : events - (polls + 1) = left := by omega
      rw [next, List.replicate_succ] at queue
      have leaves := @dispatch_leaves _ _ isCoroutine ends
        (subscriptions.start.run isCoroutine ends (burst event events polls)).taken.length event
        ((subscriptions.start.run isCoroutine ends (burst event events polls)).handlersOf event)
        { subscriptions.start.run isCoroutine ends (burst event events polls) with
          queue := List.replicate left event
          taken := (subscriptions.start.run isCoroutine ends (burst event events polls)).taken ++ [event] }
      rw [run_burst_succ, poll_next (alive polls) queue, leaves.taken, leaves.queue, after, taken]
      exact ⟨List.replicate_succ'.symm, rfl⟩

omit [DecidableEq Handler] in
theorem exists_first {P : Handler → Prop} {list : List Handler} (found : ∃ handler ∈ list, P handler) :
    ∃ before handler after, list = before ++ handler :: after ∧ P handler ∧ ∀ other ∈ before, ¬P other := by
  induction list with
  | nil =>
      obtain ⟨handler, member, -⟩ := found
      cases member
  | cons first rest ih =>
      by_cases here : P first
      · exact ⟨[], first, rest, rfl, here, fun other member => absurd member List.not_mem_nil⟩
      · obtain ⟨handler, member, holds⟩ := found
        have later : handler ∈ rest := by
          rcases List.mem_cons.mp member with same | later
          · rw [same] at holds
            exact absurd holds here
          · exact later
        obtain ⟨before, other, after, split, found, earlier⟩ := ih ⟨handler, later, holds⟩
        refine ⟨first :: before, other, after, by rw [split, List.cons_append], found, ?_⟩
        intro third member
        rcases List.mem_cons.mp member with same | member
        · rw [same]
          exact here
        · exact earlier third member

/-- The first handler that may raise is called for each of a burst of events. -/
theorem called_in_burst {event : EventType} {events number : Nat} {before after : List Handler} {handler : Handler}
    (alive : ∀ polls, (subscriptions.start.run isCoroutine ends (burst event events polls)).running = true)
    (listed : subscriptions.of event = before ++ handler :: after)
    (returns : ∀ other ∈ before, ∀ number, ends number other = .returned) (within : number < events) :
    (number, handler) ∈ (subscriptions.start.run isCoroutine ends (burst event events (number + 1))).calls := by
  obtain ⟨taken, queue⟩ := taken_burst alive within.le
  obtain ⟨left, remaining⟩ := Nat.exists_eq_add_of_lt within
  have next : events - number = left + 1 := by omega
  rw [next, List.replicate_succ] at queue
  have handlers := (@run_kept _ _ isCoroutine ends subscriptions.start (burst event events number)).2 event
  have same : subscriptions.start.handlersOf event = subscriptions.of event := rfl
  rw [run_burst_succ, poll_next (alive number) queue, handlers, same, listed, taken, List.length_replicate]
  exact dispatch_calls (fun other member => returns other member number) _

theorem calls_kept (processor : EventProcessor Handler) {call : Nat × Handler} (member : call ∈ processor.calls) :
    call ∈ (processor.poll isCoroutine ends).calls := by
  cases running : processor.running with
  | false => rwa [poll_stopped running]
  | true =>
      cases next : processor.queue with
      | nil => rwa [poll_idle next]
      | cons event queue =>
          obtain ⟨more, calls⟩ := (@dispatch_leaves _ _ isCoroutine ends processor.taken.length event
            (processor.handlersOf event) { processor with queue, taken := processor.taken ++ [event] }).calls
          rw [poll_next running next, calls]
          exact List.mem_append_left _ member

theorem returned_of_promised
    (promised : ∀ actions, subscriptions.Promised ends actions (subscriptions.start.run isCoroutine ends actions))
    {event : EventType} {handler : Handler} (member : handler ∈ subscriptions.of event) (number : Nat) :
    ends number handler = .returned := by
  by_contra raised
  -- The first handler of the list that may raise is not kept from its calls by another one.
  obtain ⟨before, first, after, listed, ⟨number, raised⟩, returns⟩ :=
    @exists_first _ (fun handler => ∃ number, ends number handler ≠ .returned) _ ⟨handler, member, number, raised⟩
  have returns : ∀ other ∈ before, ∀ number, ends number other = .returned := by
    intro other member number
    by_contra raises
    exact returns other member ⟨number, raises⟩
  have alive : ∀ polls, (subscriptions.start.run isCoroutine ends (burst event (number + 2) polls)).running = true :=
    fun polls => (promised _).alive
  have early := called_in_burst alive listed returns (Nat.lt_add_of_pos_right Nat.two_pos)
  have late := called_in_burst alive listed returns (Nat.lt_succ_self (number + 1))
  have still := @calls_kept _ _ isCoroutine ends _ _ early
  rw [← run_burst_succ] at still
  have taken := (taken_burst alive (Nat.le_refl (number + 2))).1
  refine raised ((promised _).dropped first number (number + 1) event still late (Nat.lt_succ_self _) ?_ ?_)
  · rw [taken]
    exact List.getElem?_replicate_of_lt (by omega)
  · rw [taken]
    exact List.getElem?_replicate_of_lt (by omega)

variable (subscriptions isCoroutine ends) in
/-- Harmless failures keep the promises; every run keeps them exactly where no handler ever raises. -/
theorem events_delivered_iff :
    (∀ actions, subscriptions.Harmless ends isCoroutine (published actions) →
        subscriptions.Promised ends actions (subscriptions.start.run isCoroutine ends actions)) ∧
      ((∀ actions, subscriptions.Promised ends actions (subscriptions.start.run isCoroutine ends actions)) ↔
        ∀ event, ∀ handler ∈ subscriptions.of event, ∀ number, ends number handler = .returned) := by
  refine ⟨fun actions harmless => promised_of_harmless harmless, ?_, ?_⟩
  · intro promised event handler member number
    exact returned_of_promised promised member number
  · intro returns actions
    apply promised_of_harmless
    intro number event handler _ member
    exact Or.inl (returns event handler member number)

def single : Subscriptions Nat where
  handlers := EventHandlers.subscribe ∅ [EventType.jobUpdate.text] 0
  once := by
    intro event
    cases event <;> decide

/-- A coroutine that raises at the last of two updates. -/
theorem single_delivered :
    single.Promised (fun number _ => if number = 1 then .raised else .returned) (burst .jobUpdate 2 2)
      (single.start.run (fun _ => true) (fun number _ => if number = 1 then .raised else .returned)
        (burst .jobUpdate 2 2)) := by
  apply (events_delivered_iff single (fun _ => true) (fun number _ => if number = 1 then .raised else .returned)).1
  rw [published_burst]
  intro number event handler there _
  by_cases last : number = 1
  · refine Or.inr ⟨rfl, by simp [last], ?_⟩
    intro later less
    rw [List.getElem?_eq_none (by rw [List.length_replicate]; omega)]
    exact Option.some_ne_none event |>.symm
  · exact Or.inl (if_neg last)

/-- A coroutine that raises at the first of two updates is called for the second one, and a plain function that
raises stops the processor. -/
theorem raising_handler_breaks :
    (¬single.Promised (fun number _ => if number = 0 then .raised else .returned) (burst .jobUpdate 2 2)
      (single.start.run (fun _ => true) (fun number _ => if number = 0 then .raised else .returned)
        (burst .jobUpdate 2 2))) ∧
      ¬single.Promised (fun _ _ => .raised) (burst .jobUpdate 2 2)
        (single.start.run (fun _ => false) (fun _ _ => .raised) (burst .jobUpdate 2 2)) := by
  constructor
  · intro promised
    have returned := promised.dropped 0 0 1 .jobUpdate (by decide) (by decide) (by decide) (by decide) (by decide)
    cases returned
  · intro promised
    cases promised.alive

end Subscriptions

end PhysicalAiStudio.Jobs
