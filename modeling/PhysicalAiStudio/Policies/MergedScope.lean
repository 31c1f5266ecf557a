import PhysicalAiStudio.Collections.WriteLog

/-! Adapters folded into their base layers for a while: `_iter_tuner_layers` and `merged_lora_scope` of
`policies/mixins/peft/functions.py`.

What `torch` and `peft` do is a parameter with the laws they document. The body of the scope reads the
network; raising is an input: any layer can raise at any stage of its entering, the body can raise, and
leaving can raise after any number of its steps.
-/

set_option autoImplicit false

namespace PhysicalAiStudio.Policies.MergedScope
open Collections

variable {Module Name Param Adapter Value : Type}

/-- The parameters, and the `merged_adapters` of each wrapper. -/
@[ext] structure Tensors (Module Param Adapter Value : Type) where
  weight : Param → Value
  mergedAdapters : Module → List Adapter

@[ext] structure State (Module Name Param Adapter Value : Type) where
  child : Module × Name → Option Module
  tensors : Tensors Module Param Adapter Value

structure Network (Module Name Param Adapter Value : Type) where
  /-- `module.modules()`, each module once. -/
  modules : (Module × Name → Option Module) → List Module
  modules_nodup : ∀ child, (modules child).Nodup
  /-- The names of the children of a module, in their order. -/
  attributes : Module → List Name
  attributes_nodup : ∀ parent, (attributes parent).Nodup
  /-- `isinstance(child, BaseTunerLayer)` -/
  isTuner : Module → Bool
  /-- The innermost base layer, which is no wrapper. -/
  getBaseLayer : Module → Module
  base_plain : ∀ child, isTuner child = true → isTuner (getBaseLayer child) = false
  /-- `named_parameters(recurse=False)` -/
  parameters : Module → List Param
  merge : Module → Tensors Module Param Adapter Value → Tensors Module Param Adapter Value
  merge_weight : ∀ child tensors param, param ∉ parameters (getBaseLayer child) →
    (merge child tensors).weight param = tensors.weight param
  merge_record : ∀ child tensors other, other ≠ child →
    (merge child tensors).mergedAdapters other = tensors.mergedAdapters other
  /-- What a merge that raises leaves. -/
  interrupted : Module → Tensors Module Param Adapter Value → Tensors Module Param Adapter Value

structure Layer (Module Name : Type) where
  parent : Module
  name : Name
  child : Module
  deriving DecidableEq

def Layer.place (layer : Layer Module Name) : Module × Name := (layer.parent, layer.name)

/-- `parent.named_children()`: a module that is there under two names is given once. -/
def namedChildren [DecidableEq Module] (child : Module × Name → Option Module) (parent : Module) :
    List Name → List Module → List (Name × Module)
  | [], _ => []
  | name :: names, memo =>
      match child (parent, name) with
      | none => namedChildren child parent names memo
      | some module =>
          if module ∈ memo then namedChildren child parent names memo
          else (name, module) :: namedChildren child parent names (module :: memo)

inductive Stage where
  | snapshot | merge | swap
  deriving DecidableEq

/-- One statement of the restoring loop. A copy carries what it copies, or where that is from. -/
inductive Step (Module Name Param Saved : Type) where
  | setattr (layer : Layer Module Name)
  | copy (param : Param) (saved : Saved)
  | clear (child : Module)

structure Faults (Module Name Param Adapter Value : Type) where
  entering : Layer Module Name → Option Stage
  body : Bool → State Module Name Param Adapter Value → Bool
  /-- The statements that the restoring loop completes, where it raises. -/
  leaving : Option Nat

def Step.perform [DecidableEq Module] [DecidableEq Name] [DecidableEq Param]
    (state : State Module Name Param Adapter Value) :
    Step Module Name Param Value → State Module Name Param Adapter Value
  | .setattr layer => { state with child := Function.update state.child layer.place (some layer.child) }
  | .copy param saved =>
      { state with tensors := { state.tensors with weight := Function.update state.tensors.weight param saved } }
  | .clear child =>
      { state with tensors :=
          { state.tensors with mergedAdapters := Function.update state.tensors.mergedAdapters child [] } }

def performed {α : Type} (raises : Option Nat) (steps : List α) : List α :=
  match raises with
  | none => steps
  | some count => steps.take count

def restore (saved : Layer Module Name × List (Param × Value)) : List (Step Module Name Param Value) :=
  .setattr saved.1 :: saved.2.map (fun entry => .copy entry.1 entry.2) ++ [.clear saved.1.child]

namespace Network

variable [DecidableEq Module] [DecidableEq Name] [DecidableEq Param]
variable (net : Network Module Name Param Adapter Value)

def iterTunerLayers (state : State Module Name Param Adapter Value) : List (Layer Module Name) :=
  (net.modules state.child).flatMap fun parent =>
    ((namedChildren state.child parent (net.attributes parent) []).filter fun entry => net.isTuner entry.2).map
      fun entry => ⟨parent, entry.1, entry.2⟩

def snapshot (layer : Layer Module Name) (tensors : Tensors Module Param Adapter Value) : List (Param × Value) :=
  (net.parameters (net.getBaseLayer layer.child)).map fun param => (param, tensors.weight param)

/-- The entering loop: the state it leaves, with the snapshots unless a layer raised. -/
def enter (raises : Layer Module Name → Option Stage) : List (Layer Module Name) →
    State Module Name Param Adapter Value →
    State Module Name Param Adapter Value × Option (List (List (Param × Value)))
  | [], state => (state, some [])
  | layer :: layers, state =>
      -- The layers are entered before the `try`: what one of them raises leaves the others merged.
      match raises layer with
      | some .snapshot => (state, none)
      | some .merge => ({ state with tensors := net.interrupted layer.child state.tensors }, none)
      | some .swap => ({ state with tensors := net.merge layer.child state.tensors }, none)
      | none =>
          let swapped :=
            { child := Function.update state.child layer.place (some (net.getBaseLayer layer.child))
              tensors := net.merge layer.child state.tensors }
          let (left, snapshots) := enter raises layers swapped
          (left, snapshots.map (net.snapshot layer state.tensors :: ·))

def mergedLoraScope (faults : Faults Module Name Param Adapter Value)
    (state : State Module Name Param Adapter Value) : State Module Name Param Adapter Value × Bool :=
  let tunerLayers := net.iterTunerLayers state
  if tunerLayers.isEmpty then (state, faults.body false state)
  else
    match net.enter faults.entering tunerLayers state with
    | (left, none) => (left, true)
    | (merged, some snapshots) =>
        let steps := (tunerLayers.zip snapshots).flatMap restore
        ((performed faults.leaving steps).foldl Step.perform merged,
          faults.body true merged || faults.leaving.any (· < steps.length))

/-- What holds when the scope has been left, however it was left. -/
structure Promised (before after : State Module Name Param Adapter Value) : Prop where
  wrapper_again : ∀ layer ∈ net.iterTunerLayers before, after.child layer.place = some layer.child
  weights_back : ∀ layer ∈ net.iterTunerLayers before, ∀ param ∈ net.parameters (net.getBaseLayer layer.child),
    after.tensors.weight param = before.tensors.weight param
  records_back : ∀ layer ∈ net.iterTunerLayers before,
    after.tensors.mergedAdapters layer.child = before.tensors.mergedAdapters layer.child
  same_function : ∀ (Result : Type) (computes : State Module Name Param Adapter Value → Result),
    computes after = computes before

/-! ### When the promise is kept -/

def mergedBy (layers : List (Layer Module Name)) (tensors : Tensors Module Param Adapter Value) :
    Tensors Module Param Adapter Value :=
  layers.foldl (fun merged layer => net.merge layer.child merged) tensors

/-- The statements of the restoring loop; a copy carries the layers merged before its snapshot. -/
def restoring (earlier : List (Layer Module Name)) : List (Layer Module Name) →
    List (Step Module Name Param (List (Layer Module Name)))
  | [] => []
  | layer :: layers =>
      (.setattr layer :: (net.parameters (net.getBaseLayer layer.child)).map (fun param => .copy param earlier) ++
        [.clear layer.child]) ++ restoring (earlier ++ [layer]) layers

end Network

def Step.copies {Saved : Type} : Step Module Name Param Saved → Option (Param × Saved)
  | .copy param saved => some (param, saved)
  | _ => none

/-- Of the restoring loop, the given statements put everything back. -/
structure Network.Restores [DecidableEq Param] (net : Network Module Name Param Adapter Value)
    (layers : List (Layer Module Name)) (tensors : Tensors Module Param Adapter Value)
    (steps : List (Step Module Name Param (List (Layer Module Name)))) : Prop where
  reattached : ∀ layer ∈ layers, .setattr layer ∈ steps
  /-- No layer merged before the snapshot that is copied last, or no layer where none is, has changed the
  parameter. -/
  copied : ∀ layer ∈ layers, ∀ param ∈ net.parameters (net.getBaseLayer layer.child),
    (net.mergedBy ((lastWrite (steps.filterMap Step.copies) param).getD layers) tensors).weight param =
      tensors.weight param
  cleared : ∀ layer ∈ layers, .clear layer.child ∈ steps → tensors.mergedAdapters layer.child = []
  uncleared : ∀ layer ∈ layers, .clear layer.child ∉ steps →
    (net.mergedBy layers tensors).mergedAdapters layer.child = tensors.mergedAdapters layer.child

def Network.LeavesNoTrace [DecidableEq Param] (net : Network Module Name Param Adapter Value)
    (faults : Faults Module Name Param Adapter Value) (tensors : Tensors Module Param Adapter Value) :
    List (Layer Module Name) → Prop
  | [] => True
  | first :: layers =>
      match faults.entering first with
      | some .snapshot => True
      | some .merge => net.interrupted first.child tensors = tensors
      | some .swap => net.merge first.child tensors = tensors
      | none =>
          (∀ layer ∈ layers, faults.entering layer = none) ∧
            net.Restores (first :: layers) tensors
              (performed faults.leaving (net.restoring [] (first :: layers)))

end PhysicalAiStudio.Policies.MergedScope
