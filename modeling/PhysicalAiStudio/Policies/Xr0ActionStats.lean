import PhysicalAiStudio.Datasets.TrainLoader
import PhysicalAiStudio.Numeric.Elementary
import PhysicalAiStudio.Numeric.Population
import PhysicalAiStudio.Policies.Xr0Processors

/-! The action statistics that XR0 normalizes with: `compute_action_chunk_stats` of
`policies/xr0/pretrained_utils.py`.

A tensor of a batch is held as the list of its samples, along its first axis. The sums are exact, over
an ordered field with a square root; devices and number types are left out.
-/

set_option autoImplicit false

namespace PhysicalAiStudio.Policies.Xr0ActionStats
open Numeric Strings Datasets.TrainLoader
open Xr0 (ActionMode)

/-- The shape of a feature in every sample of a dataset. A sequence has a last step. -/
inductive FeatureShape where
  | vector (width : Nat)
  | sequence (steps width : Nat) (nonempty : 0 < steps)

def FeatureShape.width : FeatureShape → Nat
  | .vector width => width
  | .sequence _ width _ => width

/-- The second axis of a batch, where a single vector gets an axis of one step. -/
def FeatureShape.steps : FeatureShape → Nat
  | .vector _ => 1
  | .sequence steps _ _ => steps

structure Shapes where
  action : FeatureShape
  state : FeatureShape

structure Sample (K : Type) where
  action : Nat → Nat → K
  state : Nat → Nat → K

structure Settings where
  chunkSize : Nat
  actionDim : Nat
  maxActionDim : Nat
  actionMode : ActionMode
  maxBatches : Option Int
  subsetSize : Option Int

inductive Error where
  | valueError (message : Text)
  | runtimeError
  deriving DecidableEq

def noSamples : Error := .valueError "no samples found while computing action chunk stats".toList

def wrongSteps (steps chunkSize : Nat) : Error :=
  .valueError ("action chunk has temporal dim ".toList ++ decimal steps ++ ", expected chunk_size=".toList ++
    decimal chunkSize ++ "; call reformat_dataset_to_match_policy(policy, datamodule) first".toList)

section Code
variable {K : Type} [Field K] [LinearOrder K]

def currentState (shapes : Shapes) (sample : Sample K) (channel : Nat) : K :=
  sample.state (shapes.state.steps - 1) channel

def deltaTarget (actionDim : Nat) (shapes : Shapes) (step channel : Nat) (sample : Sample K) : K :=
  if channel < min actionDim shapes.state.width then
    sample.action step channel - currentState shapes sample channel
  else sample.action step channel

def target (settings : Settings) (shapes : Shapes) (step channel : Nat) (sample : Sample K) : K :=
  match settings.actionMode with
  | .absolute => sample.action step channel
  | .delta => deltaTarget settings.actionDim shapes step channel sample

/-- The subtraction in place, of as many dimensions as the state has. -/
def subtractable (settings : Settings) (shapes : Shapes) : Bool :=
  match settings.actionMode with
  | .absolute => true
  | .delta =>
    let overlap := min settings.actionDim shapes.state.width
    let sliced := min overlap (min settings.actionDim shapes.action.width)
    extent sliced overlap = some sliced

structure Totals (K : Type) where
  sum1 : Nat → Nat → K
  sum2 : Nat → Nat → K
  count : Nat

def Totals.add (totals : Totals K) (settings : Settings) (shapes : Shapes) (samples : List (Sample K)) :
    Totals K :=
  let width := min settings.actionDim shapes.action.width
  let value (step channel : Nat) := target settings shapes step (axis width channel)
  { sum1 := fun step channel => totals.sum1 step channel + (samples.map (value step channel)).sum
    sum2 := fun step channel => totals.sum2 step channel +
      (samples.map fun sample => value step channel sample * value step channel sample).sum
    count := totals.count + samples.length }

/-- The samples that a cap still lets in. It is checked after each batch, so some are still let in. -/
def admitted (subsetSize : Option Int) (count : Nat) (batch : List (Sample K)) : List (Sample K) :=
  match subsetSize with
  | none => batch
  | some size => batch.take (size - count).toNat

def accumulate (settings : Settings) (shapes : Shapes) (totals : Totals K) (batch : List (Sample K)) :
    Except Error (Totals K) := do
  let samples := admitted settings.subsetSize totals.count batch
  if shapes.action.steps ≠ settings.chunkSize then
    throw (wrongSteps shapes.action.steps settings.chunkSize)
  let width := min settings.actionDim shapes.action.width
  unless subtractable settings shapes do
    throw .runtimeError
  if extent settings.actionDim width ≠ some settings.actionDim then
    throw .runtimeError
  return totals.add settings shapes samples

def stopsAt (cap : Option Int) (count : Nat) : Bool :=
  match cap with
  | none => false
  | some limit => count ≥ limit

def scan (settings : Settings) (shapes : Shapes) :
    Nat → List (List (Sample K)) → Totals K → Except Error (Totals K)
  | _, [], totals => .ok totals
  | index, batch :: rest, totals =>
    if stopsAt settings.maxBatches index then .ok totals
    else do
      let next ← accumulate settings shapes totals batch
      if stopsAt settings.subsetSize next.count then return next
      else scan settings shapes (index + 1) rest next

structure Stats (K : Type) where
  mean : Tensor2 K
  std : Tensor2 K

/-- Statistics of the real dimensions, padded with a mean of zero and a deviation of one. -/
def padded (settings : Settings) (mean std : Nat → Nat → K) : Stats K :=
  { mean := .generate settings.chunkSize settings.maxActionDim fun step channel =>
      if channel < min settings.actionDim settings.maxActionDim then mean step channel else 0
    std := .generate settings.chunkSize settings.maxActionDim fun step channel =>
      if channel < min settings.actionDim settings.maxActionDim then std step channel else 1 }

variable (root : SquareRoot K)

def finish (settings : Settings) (totals : Totals K) : Except Error (Stats K) :=
  if totals.count = 0 then .error noSamples
  else
    let mean (step channel : Nat) := totals.sum1 step channel / totals.count
    let var (step channel : Nat) :=
      max (totals.sum2 step channel / totals.count - mean step channel * mean step channel) 0
    .ok (padded settings mean fun step channel => root.sqrt (var step channel))

def computeActionChunkStats (settings : Settings) (shapes : Shapes)
    (trainDataloader : List (List (Sample K))) : Except Error (Stats K) :=
  if ∃ size ∈ settings.subsetSize, size ≤ 0 then
    .error (.valueError "subset_size must be positive".toList)
  else do
    let totals ← scan settings shapes 0 trainDataloader ⟨fun _ _ => 0, fun _ _ => 0, 0⟩
    finish root settings totals

end Code

/-! ### The statistics of a population -/

section Statistics
variable {K : Type} [Field K] [LinearOrder K] (root : SquareRoot K) (settings : Settings) (shapes : Shapes)

def population (samples : List (Sample K)) : Stats K :=
  padded settings (fun step channel => mean (target settings shapes step channel) samples)
    fun step channel => root.sqrt (variance (target settings shapes step channel) samples)

def documented (trainDataset : List (Sample K)) : Except Error (Stats K) :=
  if trainDataset = [] then .error noSamples else .ok (population root settings shapes trainDataset)

/-- Whatever order an epoch takes, the statistics are those of the whole dataset. -/
def OfWholeDataset (trainDataset : List (Sample K)) (trainBatchSize : Nat) : Prop :=
  ∀ batches, Epoch trainDataset trainBatchSize batches →
    computeActionChunkStats root settings shapes batches = documented root settings shapes trainDataset

def SameTargets (trainDataset : List (Sample K)) : Prop :=
  ∀ step < settings.chunkSize, ∀ channel < min settings.actionDim settings.maxActionDim,
    ∀ first ∈ trainDataset, ∀ second ∈ trainDataset,
      target settings shapes step channel first = target settings shapes step channel second

/-- No cap is given, the actions are chunks of the right length and have the dimensions asked for. -/
structure Prepared : Prop where
  all_batches : settings.maxBatches = none
  all_samples : settings.subsetSize = none
  chunked : shapes.action.steps = settings.chunkSize
  dimensions : settings.actionDim ≤ shapes.action.width

/-! ### What the loop accumulates -/

omit [LinearOrder K] in
theorem Totals.add_add (totals : Totals K) (first second : List (Sample K)) :
    (totals.add settings shapes first).add settings shapes second = totals.add settings shapes (first ++ second) := by
  simp only [Totals.add, List.map_append, List.sum_append, add_assoc, List.length_append]

omit [LinearOrder K] in
theorem Totals.add_nil (totals : Totals K) : totals.add settings shapes [] = totals := by
  simp only [Totals.add, List.map_nil, List.sum_nil, add_zero, List.length_nil]

variable {settings shapes}

theorem Prepared.width (prepared : Prepared settings shapes) :
    min settings.actionDim shapes.action.width = settings.actionDim :=
  min_eq_left prepared.dimensions

theorem Prepared.subtractable (prepared : Prepared settings shapes) : subtractable settings shapes = true := by
  unfold Xr0ActionStats.subtractable
  cases settings.actionMode with
  | absolute => rfl
  | delta => simp [prepared.width]

omit [LinearOrder K] in
theorem accumulate_of_prepared (prepared : Prepared settings shapes) (totals : Totals K)
    (batch : List (Sample K)) :
    accumulate settings shapes totals batch = .ok (totals.add settings shapes batch) := by
  unfold accumulate
  rw [prepared.all_samples, prepared.subtractable, prepared.width]
  simp [prepared.chunked, admitted, pure, Except.pure]

omit [LinearOrder K] in
theorem scan_of_prepared (prepared : Prepared settings shapes) (index : Nat)
    (batches : List (List (Sample K))) (totals : Totals K) :
    scan settings shapes index batches totals = .ok (totals.add settings shapes batches.flatten) := by
  induction batches generalizing index totals with
  | nil =>
      rw [List.flatten_nil, Totals.add_nil]
      rfl
  | cons batch rest ih =>
      have step := accumulate_of_prepared prepared totals batch
      have later := ih (index + 1) (totals.add settings shapes batch)
      rw [Totals.add_add] at later
      rw [scan, prepared.all_batches, prepared.all_samples, step, List.flatten_cons]
      exact later

/-! ### What the loop returns -/

variable (settings shapes)

def Totals.none : Totals K := ⟨fun _ _ => 0, fun _ _ => 0, 0⟩

omit [LinearOrder K] in
theorem padded_congr {settings : Settings} {mean mean' std std' : Nat → Nat → K}
    (means : ∀ step < settings.chunkSize, ∀ channel < min settings.actionDim settings.maxActionDim,
      mean step channel = mean' step channel)
    (stds : ∀ step < settings.chunkSize, ∀ channel < min settings.actionDim settings.maxActionDim,
      std step channel = std' step channel) :
    padded settings mean std = padded settings mean' std' := by
  unfold padded
  congr 1
  · apply Tensor2.generate_congr
    intro step inSteps channel _
    split
    · next inside => exact means step inSteps channel inside
    · rfl
  · apply Tensor2.generate_congr
    intro step inSteps channel _
    split
    · next inside => exact stds step inSteps channel inside
    · rfl

variable [IsStrictOrderedRing K] {settings shapes}

theorem finish_of_prepared (prepared : Prepared settings shapes) {samples : List (Sample K)}
    (nonempty : samples ≠ []) :
    finish root settings (Totals.none.add settings shapes samples) =
      .ok (population root settings shapes samples) := by
  have counted : (Totals.none.add settings shapes samples).count ≠ 0 := by
    simp only [Totals.add, Totals.none, Nat.zero_add]
    exact (List.length_pos_iff.mpr nonempty).ne'
  have dimension : ∀ channel, channel < settings.actionDim →
      axis (min settings.actionDim shapes.action.width) channel = channel := by
    intro channel inside
    rw [prepared.width]
    exact axis_inside inside
  -- The sums over the samples divided by the count are the means of the targets.
  have means : ∀ step channel, channel < settings.actionDim →
      (Totals.none.add settings shapes samples).sum1 step channel / (Totals.none.add settings shapes samples).count =
        mean (target settings shapes step channel) samples := by
    intro step channel inside
    simp only [Totals.add, Totals.none, dimension channel inside, zero_add]
    rfl
  have squares : ∀ step channel, channel < settings.actionDim →
      (Totals.none.add settings shapes samples).sum2 step channel / (Totals.none.add settings shapes samples).count =
        mean (fun sample => target settings shapes step channel sample * target settings shapes step channel sample)
          samples := by
    intro step channel inside
    simp only [Totals.add, Totals.none, dimension channel inside, zero_add]
    rfl
  unfold finish
  rw [if_neg counted]
  refine congrArg Except.ok (padded_congr ?_ ?_)
  · intro step _ channel inside
    exact means step channel (by omega)
  · intro step _ channel inside
    dsimp only
    rw [means step channel (by omega), squares step channel (by omega), ← variance_eq nonempty,
      max_eq_left (variance_nonneg _ _)]

theorem computeActionChunkStats_of_prepared (prepared : Prepared settings shapes)
    (batches : List (List (Sample K))) :
    computeActionChunkStats root settings shapes batches = documented root settings shapes batches.flatten := by
  have uncapped : ¬∃ size ∈ settings.subsetSize, size ≤ 0 := by
    rw [prepared.all_samples]
    simp
  unfold computeActionChunkStats documented
  rw [if_neg uncapped]
  show (scan settings shapes 0 batches Totals.none >>= finish root settings) = _
  rw [scan_of_prepared prepared]
  by_cases nothing : batches.flatten = []
  · rw [if_pos nothing, nothing]
    rfl
  · rw [if_neg nothing]
    exact finish_of_prepared root prepared nothing

omit [IsStrictOrderedRing K] in
theorem population_perm {first second : List (Sample K)} (same : first.Perm second) :
    population root settings shapes first = population root settings shapes second := by
  simp only [population, mean_perm same, variance_perm same]

omit [IsStrictOrderedRing K] in
theorem documented_perm {first second : List (Sample K)} (same : first.Perm second) :
    documented root settings shapes first = documented root settings shapes second := by
  unfold documented
  rw [population_perm root same]
  exact if_congr ⟨fun none => (none ▸ same).symm.eq_nil, fun none => (none ▸ same).eq_nil⟩ rfl rfl

/-- Samples with the same targets have the same statistics, however many there are. -/
theorem population_of_same {trainDataset samples : List (Sample K)} (same : SameTargets settings shapes trainDataset)
    (nonempty : samples ≠ []) (within : ∀ sample ∈ samples, sample ∈ trainDataset) :
    population root settings shapes samples = population root settings shapes trainDataset := by
  obtain ⟨chosen, isChosen⟩ := List.exists_mem_of_ne_nil samples nonempty
  have datasetNonempty : trainDataset ≠ [] := List.ne_nil_of_mem (within chosen isChosen)
  apply padded_congr
  · intro step inSteps channel inside
    have value := fun sample member => same step inSteps channel inside sample member chosen (within chosen isChosen)
    rw [mean_of_constant nonempty (fun sample member => value sample (within sample member)),
      mean_of_constant datasetNonempty value]
  · intro step inSteps channel inside
    have value := fun sample member => same step inSteps channel inside sample member chosen (within chosen isChosen)
    rw [variance_of_constant nonempty (fun sample member => value sample (within sample member)),
      variance_of_constant datasetNonempty value]

omit [IsStrictOrderedRing K] in
theorem mean_of_population {first second : List (Sample K)}
    (same : population root settings shapes first = population root settings shapes second) {step channel : Nat}
    (inSteps : step < settings.chunkSize) (inside : channel < min settings.actionDim settings.maxActionDim) :
    mean (target settings shapes step channel) first = mean (target settings shapes step channel) second := by
  have entries := congrArg (fun stats => stats.mean.get step channel) same
  have within : channel < settings.maxActionDim := lt_of_lt_of_le inside (min_le_right _ _)
  simp only [population, padded, Tensor2.get_generate] at entries
  rw [if_pos ⟨inSteps, within⟩, if_pos inside, if_pos ⟨inSteps, within⟩, if_pos inside] at entries
  exact entries

/-! ### When the whole dataset is read -/

theorem ofWholeDataset_iff (prepared : Prepared settings shapes) (trainDataset : List (Sample K))
    (trainBatchSize : Nat) :
    OfWholeDataset root settings shapes trainDataset trainBatchSize ↔
      ∀ order : List (Sample K), order.Perm trainDataset →
        documented root settings shapes (order.take (trainDataset.length / trainBatchSize * trainBatchSize)) =
          documented root settings shapes trainDataset := by
  constructor
  · intro whole order shuffled
    have result := whole _ ⟨order, shuffled, rfl⟩
    rw [computeActionChunkStats_of_prepared root prepared, flatten_fullBatches, shuffled.length_eq] at result
    exact result
  · rintro taken batches ⟨order, shuffled, built⟩
    rw [computeActionChunkStats_of_prepared root prepared, built, flatten_fullBatches, shuffled.length_eq]
    exact taken order shuffled

theorem whole_of_dvd (prepared : Prepared settings shapes) {trainDataset : List (Sample K)} {trainBatchSize : Nat}
    (full : trainBatchSize ∣ trainDataset.length) :
    OfWholeDataset root settings shapes trainDataset trainBatchSize := by
  rw [ofWholeDataset_iff root prepared]
  intro order shuffled
  rw [Nat.div_mul_cancel full, ← shuffled.length_eq, List.take_length]
  exact documented_perm root shuffled

theorem whole_of_same (prepared : Prepared settings shapes) {trainDataset : List (Sample K)} {trainBatchSize : Nat}
    (positive : 0 < trainBatchSize) (enough : trainBatchSize ≤ trainDataset.length)
    (same : SameTargets settings shapes trainDataset) :
    OfWholeDataset root settings shapes trainDataset trainBatchSize := by
  rw [ofWholeDataset_iff root prepared]
  intro order shuffled
  have batches : 0 < trainDataset.length / trainBatchSize := Nat.div_pos enough positive
  have taken : 0 < trainDataset.length / trainBatchSize * trainBatchSize := Nat.mul_pos batches positive
  have orderNonempty : order ≠ [] := by
    apply List.ne_nil_of_length_pos
    rw [shuffled.length_eq]
    omega
  have takenNonempty : order.take (trainDataset.length / trainBatchSize * trainBatchSize) ≠ [] := by
    simp only [ne_eq, List.take_eq_nil_iff, not_or]
    exact ⟨taken.ne', orderNonempty⟩
  have datasetNonempty : trainDataset ≠ [] := List.ne_nil_of_length_pos (by omega)
  unfold documented
  rw [if_neg takenNonempty, if_neg datasetNonempty]
  rw [population_of_same root same takenNonempty
    (fun sample member => shuffled.mem_iff.mp (List.mem_of_mem_take member))]

theorem same_of_whole (prepared : Prepared settings shapes) {trainDataset : List (Sample K)} {trainBatchSize : Nat}
    (concluded : ¬trainBatchSize ∣ trainDataset.length)
    (whole : OfWholeDataset root settings shapes trainDataset trainBatchSize) :
    trainBatchSize ≤ trainDataset.length ∧ SameTargets settings shapes trainDataset := by
  rw [ofWholeDataset_iff root prepared] at whole
  have datasetNonempty : trainDataset ≠ [] := by
    intro empty
    apply concluded
    rw [empty]
    exact dvd_zero _
  have left : trainDataset.length / trainBatchSize * trainBatchSize < trainDataset.length := by
    apply lt_of_le_of_ne (Nat.div_mul_le_self _ _)
    intro full
    exact concluded (Dvd.intro_left _ full)
  -- Whatever the shuffle, the samples that are taken have the statistics of the whole dataset.
  have populations : ∀ order : List (Sample K), order.Perm trainDataset →
      0 < trainDataset.length / trainBatchSize * trainBatchSize ∧
        population root settings shapes (order.take (trainDataset.length / trainBatchSize * trainBatchSize)) =
          population root settings shapes trainDataset := by
    intro order shuffled
    have result := whole order shuffled
    unfold documented at result
    rw [if_neg datasetNonempty] at result
    split at result
    · cases result
    · next taken =>
        constructor
        · apply Nat.pos_of_ne_zero
          intro nothing
          rw [nothing] at taken
          exact taken rfl
        · exact Except.ok.inj result
  have taken := (populations trainDataset (List.Perm.refl _)).1
  constructor
  · by_contra short
    rw [Nat.div_eq_of_lt (by omega), Nat.zero_mul] at taken
    exact Nat.lt_irrefl 0 taken
  · intro step inSteps channel inside first firstIn second secondIn
    exact constant_of_means taken left
      (fun order shuffled => mean_of_population root (populations order shuffled).2 inSteps inside) firstIn secondIn

theorem stats_of_whole_dataset_iff (prepared : Prepared settings shapes) (trainDataset : List (Sample K))
    {trainBatchSize : Nat} (positive : 0 < trainBatchSize) :
    OfWholeDataset root settings shapes trainDataset trainBatchSize ↔
      trainBatchSize ∣ trainDataset.length ∨
        trainBatchSize ≤ trainDataset.length ∧ SameTargets settings shapes trainDataset := by
  constructor
  · intro whole
    by_cases full : trainBatchSize ∣ trainDataset.length
    · exact Or.inl full
    · exact Or.inr (same_of_whole root prepared full whole)
  · rintro (full | ⟨enough, same⟩)
    · exact whole_of_dvd root prepared full
    · exact whole_of_same root prepared positive enough same

end Statistics

/-! ### Runs -/

/-- Single actions of one dimension, taken as they are. -/
def oneJoint : Settings := ⟨1, 1, 1, .absolute, none, none⟩

def oneJointShapes : Shapes := ⟨.vector 1, .vector 1⟩

theorem oneJoint_prepared : Prepared oneJoint oneJointShapes := ⟨rfl, rfl, rfl, by decide⟩

def holding {K : Type} [Zero K] (action : K) : Sample K := ⟨fun _ _ => action, fun _ _ => 0⟩

theorem full_batches_read : OfWholeDataset SquareRoot.real oneJoint oneJointShapes [holding 1, holding 3] 2 :=
  (stats_of_whole_dataset_iff SquareRoot.real oneJoint_prepared _ (by decide)).mpr (Or.inl (by decide))

/-- Of three samples in batches of two one is left out. -/
theorem left_over_not_read :
    ¬OfWholeDataset SquareRoot.real oneJoint oneJointShapes [holding 0, holding 0, holding 1] 2 := by
  intro whole
  have same := (same_of_whole SquareRoot.real oneJoint_prepared (by decide) whole).2
  have equal := same 0 (by decide) 0 (by decide) (holding 0) (by simp) (holding 1) (by simp)
  exact zero_ne_one equal

end PhysicalAiStudio.Policies.Xr0ActionStats
