import PhysicalAiStudio.Observations.Fields

/-! A batch of observations: `_collate_observations` of `data/datamodules.py`, `Observation.__getitem__` of
`data/observation.py` and `infer_batch_size` of `data/utils.py`.

Tensors are those of a library that is a parameter, with the laws of stacking and indexing.
-/

set_option autoImplicit false

namespace PhysicalAiStudio.Observations.Batch
open Strings

variable {Tensor NdArray Number Object : Type}

/-- The value of a field, or of an entry of a field's dictionary. A number is a `bool`, an `int` or a `float`;
whatever is neither of these nor a list or a dictionary, as a string, is an object. -/
inductive Value (Tensor NdArray Number Object : Type) where
  | none
  | tensor (t : Tensor)
  | array (a : NdArray)
  | number (x : Number)
  | object (o : Object)
  | list (items : List (Value Tensor NdArray Number Object))
  | dict (entries : List (Text × Value Tensor NdArray Number Object))

abbrev Observation (Tensor NdArray Number Object : Type) := FieldName → Value Tensor NdArray Number Object

def Converts (fromNumpy : NdArray → Tensor) (alike : Tensor → Tensor → Prop) (holds : Number → Tensor → Prop) :
    Value Tensor NdArray Number Object → Tensor → Prop
  | .tensor t, made => alike t made
  | .array a, made => alike (fromNumpy a) made
  | .number x, made => holds x made
  | _, _ => False

structure Torch (Tensor NdArray Number Object : Type) where
  /-- `t.shape[0]`; a tensor without dimensions has none. -/
  size : Tensor → Option Nat
  index : Tensor → Nat → Option Tensor
  indexArray : NdArray → Nat → Option NdArray
  fromNumpy : NdArray → Tensor
  stack : List Tensor → Option Tensor
  /-- `torch.tensor` of a list. -/
  tensorOf : List (Value Tensor NdArray Number Object) → Option Tensor
  /-- The same entries, in one type of entries or another. -/
  alike : Tensor → Tensor → Prop
  holds : Number → Tensor → Prop
  stack_size : ∀ ts t, stack ts = some t → size t = some ts.length
  stack_index : ∀ ts t, stack ts = some t → ∀ i part, ts[i]? = some part → ∃ row, index t i = some row ∧ alike part row
  tensorOf_size : ∀ values t, tensorOf values = some t → size t = some values.length
  tensorOf_index : ∀ values t, tensorOf values = some t → ∀ i value, values[i]? = some value →
    ∃ row, index t i = some row ∧ Converts fromNumpy alike holds value row

namespace Value

def isNone : Value Tensor NdArray Number Object → Bool
  | .none => true
  | _ => false

/-- `isinstance(value, (torch.Tensor, np.ndarray))` -/
def isArrayLike : Value Tensor NdArray Number Object → Bool
  | .tensor _ | .array _ => true
  | _ => false

def get (key : Text) : Value Tensor NdArray Number Object → Option (Value Tensor NdArray Number Object)
  | .dict entries => some ((entries.lookup key).getD .none)
  | _ => Option.none

def firstTensor : Value Tensor NdArray Number Object → Option Tensor
  | .tensor t => some t
  | .dict entries => entries.findSome? fun entry =>
      match entry.2 with
      | .tensor t => some t
      | _ => Option.none
  | _ => Option.none

end Value

def build (field : FieldName → Option (Value Tensor NdArray Number Object)) :
    Option (Observation Tensor NdArray Number Object) :=
  if there : ∀ name ∈ FieldName.all, (field name).isSome = true then
    some fun name => (field name).get (there name (FieldName.mem_all name))
  else none

variable (torch : Torch Tensor NdArray Number Object)

namespace Torch

def toTensor : Value Tensor NdArray Number Object → Option Tensor
  | .tensor t => some t
  | .array a => some (torch.fromNumpy a)
  | _ => none

def stackAll (values : List (Value Tensor NdArray Number Object)) : Option Tensor := do
  torch.stack (← values.mapM torch.toTensor)

def collateEntries (dicts : List (Value Tensor NdArray Number Object)) :
    List (Text × Value Tensor NdArray Number Object) → Option (List (Text × Value Tensor NdArray Number Object))
  | [] => some []
  | (key, _) :: entries => do
      let inner ← dicts.mapM (Value.get key)
      let rest ← collateEntries dicts entries
      match inner with
      | [] => return rest
      | first :: _ =>
          if first.isArrayLike then return (key, .tensor (← torch.stackAll inner)) :: rest
          else return (key, .list inner) :: rest

def collateField (values : List (Value Tensor NdArray Number Object)) :
    Option (Value Tensor NdArray Number Object) :=
  let nonNone := values.filter fun value => !value.isNone
  match nonNone with
  | [] => some .none
  | .tensor _ :: _ => (torch.stackAll nonNone).map .tensor
  | .array _ :: _ => (torch.stackAll nonNone).map .tensor
  | .dict entries :: _ => (torch.collateEntries nonNone entries).map .dict
  | .number _ :: _ => (torch.tensorOf nonNone).map .tensor
  | _ => some (.list values)

def collateObservations (batch : List (Observation Tensor NdArray Number Object)) :
    Option (Observation Tensor NdArray Number Object) :=
  if batch.isEmpty then some fun _ => .none
  else build fun field => torch.collateField (batch.map fun elem => elem field)

mutual

def indexValue (i : Nat) : Value Tensor NdArray Number Object → Option (Value Tensor NdArray Number Object)
  | .none => some .none
  | .dict entries => (indexEntries i entries).map .dict
  | .tensor t => (torch.index t i).map .tensor
  | .array a => (torch.indexArray a i).map .array
  | .list items => items[i]?
  | .number x => some (.number x)
  | .object o => some (.object o)

def indexEntries (i : Nat) : List (Text × Value Tensor NdArray Number Object) →
    Option (List (Text × Value Tensor NdArray Number Object))
  | [] => some []
  | (key, value) :: entries => do
      let indexed ← indexValue i value
      let rest ← indexEntries i entries
      return (key, indexed) :: rest

end

def getItem (batch : Observation Tensor NdArray Number Object) (i : Nat) :
    Option (Observation Tensor NdArray Number Object) :=
  build fun field => torch.indexValue i (batch field)

def inferBatchSize (batch : Observation Tensor NdArray Number Object) : Option Nat := do
  let t ← (([.action, .state, .images] : List FieldName) ++ FieldName.all).findSome? fun field =>
    (batch field).firstTensor
  torch.size t

end Torch

theorem build_eq_some {field : FieldName → Option (Value Tensor NdArray Number Object)}
    {built : Observation Tensor NdArray Number Object} :
    build field = some built ↔ ∀ name, field name = some (built name) := by
  unfold build
  constructor
  · intro same name
    split at same
    next there =>
      cases same
      exact (Option.some_get _).symm
    next missing => cases same
  · intro each
    have there : ∀ name ∈ FieldName.all, (field name).isSome = true := by
      intro name _
      rw [each name]
      rfl
    rw [dif_pos there]
    congr 1
    funext name
    exact Option.some.inj ((Option.some_get _).trans (each name))

end PhysicalAiStudio.Observations.Batch
