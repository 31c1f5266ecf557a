import Mathlib.Data.List.Nodup
import Mathlib.Logic.Function.Basic
import PhysicalAiStudio.Concurrency.Transition
import PhysicalAiStudio.Runtime.Contract

/-! The commands a runtime session client sends before and after it is attached.

`apply` and the flush of `attach` are sections of one lock. `attach` adopts the
instance and raises the metadata flag outside of it, so other threads may apply
commands between any two of its steps. A publication is a `put` on the command
publisher. Commands are numbered by the call that applied them.
-/

set_option autoImplicit false

namespace PhysicalAiStudio.Runtime.Transport

open Concurrency

inductive InstanceId where
  | absent
  | text (instanceId : String)
  | other
  deriving DecidableEq

structure Applied where
  call : Nat
  command : Command
  deriving DecidableEq

/-- What a call of `attach` has done so far. -/
inductive Attaching where
  | idle
  | adopted
  | ready
  | returned
  deriving DecidableEq

structure RuntimeSessionClient where
  instanceId : Option String
  metadataReady : Bool := false
  pendingCommands : List Applied := []
  published : List (Applied × Option String) := []
  applied : List Applied := []
  attaching : Nat → Attaching := fun _ => .idle

namespace RuntimeSessionClient

def apply (command : Command) (client : RuntimeSessionClient) : RuntimeSessionClient :=
  let call : Applied := ⟨client.applied.length, command⟩
  if client.metadataReady then
    { client with
      published := client.published ++ [(call, client.instanceId)]
      applied := client.applied ++ [call] }
  else
    { client with
      pendingCommands := client.pendingCommands ++ [call]
      applied := client.applied ++ [call] }

def flushPendingCommands (client : RuntimeSessionClient) : RuntimeSessionClient :=
  { client with
    published := client.published ++ client.pendingCommands.map fun call => (call, client.instanceId)
    pendingCommands := [] }

/-- The start of `attach`, which raises on an instance that is no text. -/
def adopt (instanceId : InstanceId) (client : RuntimeSessionClient) :
    Except Fault RuntimeSessionClient :=
  match instanceId with
  | .absent => .ok { client with instanceId := none }
  | .text name =>
    if name = "" then .error (.runtimeError "Runtime session metadata instance_id must be a string")
    else .ok { client with instanceId := some name }
  | .other => .error (.runtimeError "Runtime session metadata instance_id must be a string")

def advance (call : Nat) (stage : Attaching) (client : RuntimeSessionClient) : RuntimeSessionClient :=
  { client with attaching := Function.update client.attaching call stage }

end RuntimeSessionClient

inductive ClientEvent where
  | applied (command : Command)
  | adopted (attach : Nat) (instanceId : InstanceId)
  | readied (attach : Nat)
  | flushed (attach : Nat)
  deriving DecidableEq

/-- One step of a thread that calls `apply` or `attach`. -/
def RuntimeSessionClient.step (client : RuntimeSessionClient) :
    ClientEvent → Option RuntimeSessionClient
  | .applied command => some (client.apply command)
  | .adopted attach instanceId =>
    if client.attaching attach = .idle then
      match client.adopt instanceId with
      | .ok adopted => some (adopted.advance attach .adopted)
      -- `attach` raised and leaves the client alone.
      | .error _ => some client
    else none
  | .readied attach =>
    if client.attaching attach = .adopted then
      some ({ client with metadataReady := true }.advance attach .ready)
    else none
  | .flushed attach =>
    if client.attaching attach = .ready then some (client.flushPendingCommands.advance attach .returned)
    else none

def sessionClient (instanceId : Option String) :
    System RuntimeSessionClient ClientEvent where
  initial := { instanceId := instanceId }
  step := RuntimeSessionClient.step

/-- Every applied command is published once or still pending, in the order the commands were applied, and none is
pending once an `attach` has returned. -/
structure RuntimeSessionClient.PublishesInOrder (client : RuntimeSessionClient) : Prop where
  inOrder : client.published.map Prod.fst ++ client.pendingCommands = client.applied
  flushed : ∀ attach, client.attaching attach = .returned → client.pendingCommands = []

def NotOvertaking (client : RuntimeSessionClient) : ClientEvent → Prop
  | .applied _ => client.metadataReady = true → client.pendingCommands = []
  | .adopted .. | .readied _ | .flushed _ => True

instance (client : RuntimeSessionClient) : (event : ClientEvent) → Decidable (NotOvertaking client event)
  | .applied _ => inferInstanceAs (Decidable (_ → _))
  | .adopted .. | .readied _ | .flushed _ => inferInstanceAs (Decidable True)

structure RuntimeSessionClient.Inv (client : RuntimeSessionClient) : Prop where
  numbered : client.applied.map Applied.call = List.range client.applied.length
  pending : client.pendingCommands ⊆ client.applied
  ready : ∀ attach, client.attaching attach = .ready ∨ client.attaching attach = .returned →
    client.metadataReady = true
  flushed : ∀ attach, client.attaching attach = .returned → client.pendingCommands = []

namespace RuntimeSessionClient

variable {client next : RuntimeSessionClient} {event : ClientEvent} {instanceId : Option String}

theorem step_cases (step : client.step event = some next) :
    (∃ command, event = .applied command ∧ next = client.apply command) ∨
    (∃ attach adopted, (∀ command, event ≠ .applied command) ∧
      next = { client with instanceId := adopted }.advance attach .adopted) ∨
    ((∀ command, event ≠ .applied command) ∧ next = client) ∨
    (∃ attach, event = .readied attach ∧ next = { client with metadataReady := true }.advance attach .ready) ∨
    ∃ attach, event = .flushed attach ∧ client.attaching attach = .ready ∧
      next = client.flushPendingCommands.advance attach .returned := by
  cases event with
  | applied command => exact .inl ⟨command, rfl, (Option.some.inj step).symm⟩
  | adopted attach instanceId =>
    simp only [RuntimeSessionClient.step] at step
    split at step
    case isFalse => cases step
    case isTrue =>
      cases instanceId with
      | absent => exact .inr (.inl ⟨attach, none, by simp, (Option.some.inj step).symm⟩)
      | other => exact .inr (.inr (.inl ⟨by simp, (Option.some.inj step).symm⟩))
      | text name =>
        -- An empty id leaves the one that was adopted before.
        by_cases empty : name = ""
        · simp only [adopt, empty, if_true, Option.some.injEq] at step
          exact .inr (.inr (.inl ⟨by simp, step.symm⟩))
        · simp only [adopt, empty, if_false, Option.some.injEq] at step
          exact .inr (.inl ⟨attach, some name, by simp, step.symm⟩)
  | readied attach =>
    simp only [RuntimeSessionClient.step] at step
    split at step
    · exact .inr (.inr (.inr (.inl ⟨attach, rfl, (Option.some.inj step).symm⟩)))
    · cases step
  | flushed attach =>
    simp only [RuntimeSessionClient.step] at step
    split at step
    · exact .inr (.inr (.inr (.inr ⟨attach, rfl, ‹_›, (Option.some.inj step).symm⟩)))
    · cases step

@[simp] theorem apply_applied (command : Command) :
    (client.apply command).applied = client.applied ++ [⟨client.applied.length, command⟩] := by
  unfold apply
  split <;> rfl

theorem Inv.apply (inv : client.Inv) (command : Command) : (client.apply command).Inv := by
  have numbered : (client.apply command).applied.map Applied.call =
      List.range (client.apply command).applied.length := by
    rw [apply_applied, List.map_append, inv.numbered, List.length_append, List.length_singleton, List.range_succ]
    rfl
  refine ⟨numbered, ?_, ?_, ?_⟩
  · rw [apply_applied]
    unfold RuntimeSessionClient.apply
    split
    · exact List.Subset.trans inv.pending (List.subset_append_left _ _)
    · exact List.append_subset.mpr
        ⟨List.Subset.trans inv.pending (List.subset_append_left _ _), List.subset_append_right _ _⟩
  · unfold RuntimeSessionClient.apply
    split <;> exact inv.ready
  · unfold RuntimeSessionClient.apply
    split
    · exact inv.flushed
    · next unready => exact fun attach returned => absurd (inv.ready attach (.inr returned)) unready

theorem Inv.step (inv : client.Inv) (step : client.step event = some next) : next.Inv := by
  rcases step_cases step with ⟨command, -, rfl⟩ | ⟨attach, adopted, -, rfl⟩ | ⟨-, rfl⟩ | ⟨attach, -, rfl⟩ |
    ⟨attach, -, ready, rfl⟩
  · exact inv.apply command
  · refine ⟨inv.numbered, inv.pending, fun other stage => ?_, fun other stage => ?_⟩
    all_goals
      have elsewhere : other ≠ attach := fun same => by simp [advance, same] at stage
      simp only [advance, Function.update_of_ne elsewhere] at stage
    · exact inv.ready other stage
    · exact inv.flushed other stage
  · exact inv
  · refine ⟨inv.numbered, inv.pending, fun _ _ => rfl, fun other stage => ?_⟩
    have elsewhere : other ≠ attach := fun same => by simp [advance, same] at stage
    simp only [advance, Function.update_of_ne elsewhere] at stage
    exact inv.flushed other stage
  · exact ⟨inv.numbered, List.nil_subset _, fun _ _ => inv.ready attach (.inl ready), fun _ _ => rfl⟩

theorem reached_inv {history : List ClientEvent} (reached : (sessionClient instanceId).reached history = some client) :
    client.Inv :=
  System.invariant_always ⟨rfl, List.nil_subset _, by simp [sessionClient], by simp [sessionClient]⟩
    (fun _ _ _ inv step => Inv.step inv step) reached

theorem apply_inOrder_iff (inv : client.Inv) (command : Command) :
    (client.apply command).published.map Prod.fst ++ (client.apply command).pendingCommands =
        (client.apply command).applied ↔
      (client.metadataReady = true → client.pendingCommands = []) ∧
        client.published.map Prod.fst ++ client.pendingCommands = client.applied := by
  rw [apply_applied]
  unfold RuntimeSessionClient.apply
  split
  case isFalse unready => simp [unready, ← List.append_assoc]
  case isTrue ready =>
    cases waiting : client.pendingCommands with
    | nil => simp [ready]
    | cons first rest =>
      -- The last of the pending commands would be the new one, whose number none of them has.
      suffices client.published.map Prod.fst ++ [⟨client.applied.length, command⟩] ++ (first :: rest) ≠
          client.applied ++ [⟨client.applied.length, command⟩] by simpa [ready] using this
      intro same
      have last := congrArg List.getLast? same
      rw [List.getLast?_append_of_ne_nil _ (by simp), List.getLast?_append_of_ne_nil _ (by simp)] at last
      have member : (⟨client.applied.length, command⟩ : Applied) ∈ client.applied :=
        inv.pending (waiting ▸ List.mem_of_getLast? (last.trans rfl))
      have bound := List.mem_map_of_mem (f := Applied.call) member
      rw [inv.numbered, List.mem_range] at bound
      exact Nat.lt_irrefl _ bound

theorem notOvertaking_of_ne (other : ∀ command, event ≠ .applied command) : NotOvertaking client event := by
  cases event with
  | applied command => exact absurd rfl (other command)
  | adopted | readied | flushed => trivial

theorem step_inOrder_iff (inv : client.Inv) (step : client.step event = some next) :
    next.published.map Prod.fst ++ next.pendingCommands = next.applied ↔
      NotOvertaking client event ∧
        client.published.map Prod.fst ++ client.pendingCommands = client.applied := by
  rcases step_cases step with ⟨command, rfl, rfl⟩ | ⟨attach, adopted, other, rfl⟩ | ⟨other, rfl⟩ |
    ⟨attach, rfl, rfl⟩ | ⟨attach, rfl, ready, rfl⟩
  · exact apply_inOrder_iff inv command
  · exact (and_iff_right (notOvertaking_of_ne other)).symm
  · exact (and_iff_right (notOvertaking_of_ne other)).symm
  · exact (and_iff_right trivial).symm
  · have flush : (client.flushPendingCommands.advance attach .returned).published.map Prod.fst =
        client.published.map Prod.fst ++ client.pendingCommands := by
      simp [flushPendingCommands, advance, Function.comp_def]
    rw [flush]
    simp only [advance, flushPendingCommands, List.append_nil]
    exact (and_iff_right trivial).symm

end RuntimeSessionClient

/-- A run publishes every command once and in order exactly if no command in it was applied between the raising of the
metadata flag and the flush of the commands buffered before. -/
theorem publishes_in_order_iff {instanceId : Option String} {history : List ClientEvent}
    {client : RuntimeSessionClient} (reached : (sessionClient instanceId).reached history = some client) :
    client.PublishesInOrder ↔ (sessionClient instanceId).Throughout NotOvertaking history := by
  have inv := RuntimeSessionClient.reached_inv reached
  refine Iff.trans ⟨fun publishes => publishes.inOrder, fun inOrder => ⟨inOrder, inv.flushed⟩⟩ ?_
  clear inv
  induction history generalizing client with
  | nil =>
    cases reached
    exact ⟨fun _ => trivial, fun _ => rfl⟩
  | cons event older ih =>
    obtain ⟨before, led, step⟩ := System.reached_cons.mp reached
    rw [RuntimeSessionClient.step_inOrder_iff (RuntimeSessionClient.reached_inv led) step, ih led,
      System.throughout_cons led]

def attachedBetween : List ClientEvent :=
  [.applied .stopTask, .flushed 0, .readied 0, .adopted 0 (.text "live"), .applied (.startTask "pick")]

theorem attached_between_publishes :
    ∃ client, (sessionClient none).reached attachedBetween = some client ∧ client.PublishesInOrder := by
  exact ⟨_, rfl, (@publishes_in_order_iff none attachedBetween _ rfl).mpr (by decide)⟩

/-- A stop applied after the flag is up and before the flush goes out ahead of the start it was to stop. -/
theorem stop_overtakes_start :
    ¬ ∀ (instanceId : Option String) (history : List ClientEvent) (client : RuntimeSessionClient),
      (sessionClient instanceId).reached history = some client → client.PublishesInOrder := by
  intro every
  have publishes := every none
    [.flushed 0, .applied .stopTask, .readied 0, .adopted 0 (.text "live"), .applied (.startTask "pick")] _ rfl
  exact absurd publishes.inOrder (by decide)

end PhysicalAiStudio.Runtime.Transport
