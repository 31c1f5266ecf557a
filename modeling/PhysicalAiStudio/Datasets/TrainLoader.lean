import Mathlib.Data.List.Basic
import Mathlib.Data.List.Perm.Basic

/-! The batches of a training epoch: `train_dataloader` of `data/datamodules.py`.

The loader shuffles, so an epoch takes the samples of the dataset in any order, and it drops a last
batch that is not full.
-/

set_option autoImplicit false

namespace PhysicalAiStudio.Datasets.TrainLoader

variable {Sample : Type}

def fullBatches (trainBatchSize : Nat) (order : List Sample) : List (List Sample) :=
  (List.range (order.length / trainBatchSize)).map fun index =>
    (order.drop (index * trainBatchSize)).take trainBatchSize

structure Epoch (trainDataset : List Sample) (trainBatchSize : Nat) (batches : List (List Sample)) : Prop where
  shuffled : ∃ order : List Sample, order.Perm trainDataset ∧ batches = fullBatches trainBatchSize order

theorem flatten_batches (size count : Nat) (order : List Sample) :
    ((List.range count).map fun index => (order.drop (index * size)).take size).flatten =
      order.take (count * size) := by
  induction count with
  | zero => simp
  | succ count ih =>
      rw [List.range_succ, List.map_append, List.flatten_append, ih, Nat.succ_mul, List.take_add]
      simp

theorem flatten_fullBatches (trainBatchSize : Nat) (order : List Sample) :
    (fullBatches trainBatchSize order).flatten =
      order.take (order.length / trainBatchSize * trainBatchSize) :=
  flatten_batches trainBatchSize _ order

end PhysicalAiStudio.Datasets.TrainLoader
