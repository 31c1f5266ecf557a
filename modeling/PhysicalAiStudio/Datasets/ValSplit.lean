import PhysicalAiStudio.Numeric.Binary64
import PhysicalAiStudio.Strings.Text
import Mathlib.Algebra.Order.Floor.Semiring
import Mathlib.Data.List.Sort
import Mathlib.Data.Rat.Floor
import Mathlib.Tactic.Linarith

/-! The split of episodes into training and validation: `LeRobotDataModule` of
`data/lerobot/datamodule.py`.

The fraction and its product with the number of episodes are floating-point numbers of 64 bits. Drawing
at random and the number of episodes of a repository are parameters. Of a dataset the format and the requested episodes are kept; what else it is built with,
the quantile statistics and the loaders change neither.
-/

set_option autoImplicit false

namespace PhysicalAiStudio.Datasets.ValSplit
open Numeric Strings

inductive DataFormat where
  | physicalai | lerobot
  deriving DecidableEq, Repr

def DataFormat.parse (value : Text) : Option DataFormat :=
  if value = "physicalai".toList then some .physicalai
  else if value = "lerobot".toList then some .lerobot
  else none

structure Dataset where
  format : DataFormat
  episodes : Option (List Int)
  deriving DecidableEq

inductive Error where
  | valueError (message : Text)
  | invalidValSplit (valSplit : ℚ)
  | sampleTooLarge
  deriving DecidableEq

structure Arguments where
  repoId : Option Text
  /-- The episodes of a dataset that is given as it is. -/
  dataset : Option (Option (List Int))
  /-- The name of the root directory. -/
  rootName : Option Text
  episodes : Option (List Int)
  dataFormat : Text
  valSplit : Binary64
  valSplitSeed : Option Int
  valGym : Bool

structure DataModule where
  trainDataset : Dataset
  valEvalDataset : Option Dataset
  deriving DecidableEq

/-- `random.sample`, of the global generator or of one with its own seed. -/
abbrev Sampler : Type := Option Int → List Int → Nat → List Int

abbrev TotalEpisodes : Type := Text → Nat

def sorted (episodes : List Int) : List Int := episodes.mergeSort fun first second => decide (first ≤ second)

structure Split where
  trainEpisodes : Option (List Int)
  valEpisodes : Option (List Int)

def allEpisodes (totalEpisodes : TotalEpisodes) (repoId : Text) (episodes : Option (List Int)) : List Int :=
  episodes.getD ((List.range (totalEpisodes repoId)).map Int.ofNat)

/-- The count is converted to a floating-point number, and the product is rounded to one. -/
def heldOut (count : Nat) (valSplit : Binary64) : Nat := max 1 ⌊toBinary64 (toBinary64 count * valSplit.value)⌋₊

def splitEpisodes (sample : Sampler) (seed : Option Int) (all : List Int) (valSplit : Binary64) : Except Error Split :=
  let nVal := heldOut all.length valSplit
  if all.length < nVal then .error .sampleTooLarge
  else
    let valEpisodes := sorted (sample seed all nVal)
    .ok ⟨some (sorted (all.filter fun ep => ep ∉ valEpisodes)), some valEpisodes⟩

def split (sample : Sampler) (totalEpisodes : TotalEpisodes) (repoId : Option Text) (args : Arguments) :
    Except Error Split :=
  match repoId with
  | some repo =>
    if args.valSplit.value > 0 then
      splitEpisodes sample args.valSplitSeed (allEpisodes totalEpisodes repo args.episodes) args.valSplit
    else .ok ⟨args.episodes, none⟩
  | none => .ok ⟨args.episodes, none⟩

def buildDatasets (format : DataFormat) (split : Split) : DataModule :=
  match format with
  | .physicalai => ⟨⟨.physicalai, split.trainEpisodes⟩, split.valEpisodes.map fun episodes => ⟨.physicalai, some episodes⟩⟩
  | .lerobot => ⟨⟨.lerobot, split.trainEpisodes⟩, none⟩

def create (sample : Sampler) (totalEpisodes : TotalEpisodes) (args : Arguments) : Except Error DataModule := do
  let repoId := args.repoId.or args.rootName
  if args.dataset.isSome ∧ repoId.isSome then
    throw (.valueError "Cannot provide both 'repo_id' and 'dataset'. Please provide only one.".toList)
  if ¬(0 ≤ args.valSplit.value ∧ args.valSplit.value < 1) then
    throw (.invalidValSplit args.valSplit.value)
  if args.valSplit.value > 0 ∧ args.dataset.isSome then
    throw (.valueError ("Cannot use 'val_split' with a pre-initialized 'dataset'. " ++
      "Use 'repo_id' instead (for local datasets, combine 'repo_id' with 'root').").toList)
  if args.valSplit.value > 0 ∧ args.valGym then
    throw (.valueError
      "Cannot use both 'val_split' and 'val_gym'. Choose eval-loss or gym-based validation.".toList)
  match DataFormat.parse args.dataFormat with
  | none => throw (.valueError ("'".toList ++ args.dataFormat ++ "' is not a valid DataFormat".toList))
  | some format => do
    -- The split is drawn before the check that either source is given.
    let episodes ← split sample totalEpisodes repoId args
    match args.dataset, repoId with
    | some given, _ => return ⟨⟨format, given⟩, none⟩
    | none, some _ => return buildDatasets format episodes
    | none, none => throw (.valueError "Must provide either 'repo_id' or a 'dataset' instance.".toList)

/-! ### What the split is for -/

/-- Drawing without replacement, as many as are asked for. -/
def DrawsDistinct (sample : Sampler) : Prop :=
  ∀ seed population count, count ≤ population.length →
    (sample seed population count).length = count ∧ (sample seed population count).Subperm population

/-- Two parts of the requested episodes that share none and leave none out. -/
structure Parts (requested train val : List Int) : Prop where
  disjoint : ∀ ep ∈ train, ep ∉ val
  whole : (train ++ val).Perm requested

def Promised (requested : List Int) (built : Except Error DataModule) : Prop :=
  ∃ module train val valFormat, built = .ok module ∧ module.trainDataset.episodes = some train ∧
    module.valEvalDataset = some ⟨valFormat, some val⟩ ∧ Parts requested train val ∧
    (2 ≤ requested.length → train ≠ [] ∧ val ≠ []) ∧ train ≠ []

/-- The arguments ask for a part of a repository's episodes to be held out. -/
structure AsksForSplit (args : Arguments) (repoId : Text) (format : DataFormat) : Prop where
  repository : args.repoId.or args.rootName = some repoId
  noDataset : args.dataset = none
  noGym : args.valGym = false
  valid : DataFormat.parse args.dataFormat = some format
  positive : 0 < args.valSplit.value
  below : args.valSplit.value < 1

/-! ### How many are held out -/

section Count
variable {count : Nat} {valSplit : Binary64}

theorem heldOut_pos (count : Nat) (valSplit : Binary64) : 1 ≤ heldOut count valSplit :=
  le_max_left _ _

theorem floor_lt (nonempty : 0 < count) (positive : 0 < valSplit.value) (below : valSplit.value < 1) :
    ⌊toBinary64 (toBinary64 count * valSplit.value)⌋₊ < count := by
  have one_le : (1 : ℚ) ≤ count := Nat.one_le_cast.mpr nonempty
  have rounded := toBinary64_nonneg (Nat.cast_nonneg (α := ℚ) count)
  rw [Nat.floor_lt (toBinary64_nonneg (mul_nonneg rounded positive.le))]
  exact toBinary64_toBinary64_mul_lt one_le positive below

theorem heldOut_le (nonempty : 0 < count) (positive : 0 < valSplit.value) (below : valSplit.value < 1) :
    heldOut count valSplit ≤ count :=
  max_le nonempty (floor_lt nonempty positive below).le

/-- Everything is held out only of a single episode. -/
theorem heldOut_lt_iff (nonempty : 0 < count) (positive : 0 < valSplit.value) (below : valSplit.value < 1) :
    heldOut count valSplit < count ↔ 2 ≤ count := by
  have few := floor_lt nonempty positive below
  unfold heldOut
  rw [max_lt_iff]
  constructor
  · exact fun less => less.1
  · exact fun several => ⟨several, few⟩

-- Of ten episodes 0.7 holds out seven: the exact product is below seven and rounds up to it.
example : heldOut 10 ⟨3152519739159347 / 2 ^ 52, 3152519739159347, -52, by norm_num, by norm_num, by norm_num⟩ = 7 := by
  decide +kernel

end Count

/-! ### The parts -/

section Parts
variable {sample : Sampler} (draws : DrawsDistinct sample) {all : List Int} (nodup : all.Nodup) (nonempty : 0 < all.length)
  {valSplit : Binary64} (positive : 0 < valSplit.value) (below : valSplit.value < 1)

theorem mem_sorted {episodes : List Int} {ep : Int} : ep ∈ sorted episodes ↔ ep ∈ episodes :=
  (List.mergeSort_perm episodes _).mem_iff

theorem length_sorted (episodes : List Int) : (sorted episodes).length = episodes.length :=
  (List.mergeSort_perm episodes _).length_eq

theorem nodup_sorted {episodes : List Int} : (sorted episodes).Nodup ↔ episodes.Nodup :=
  (List.mergeSort_perm episodes _).nodup_iff

theorem nodup_of_subperm {drawn population : List Int} (within : drawn.Subperm population)
    (nodup : population.Nodup) : drawn.Nodup := by
  obtain ⟨ordered, same, sub⟩ := within
  exact same.nodup_iff.mp (nodup.sublist sub)

include draws nodup nonempty positive below

theorem splitEpisodes_parts (seed : Option Int) :
    ∃ train val, splitEpisodes sample seed all valSplit = .ok ⟨some train, some val⟩ ∧ Parts all train val ∧
      val.length = heldOut all.length valSplit := by
  have enough := heldOut_le nonempty positive below
  -- What is drawn are distinct positions of the list, so it is a part of it without repetition.
  obtain ⟨drawn, within⟩ := draws seed all (heldOut all.length valSplit) enough
  have valNodup : (sorted (sample seed all (heldOut all.length valSplit))).Nodup :=
    nodup_sorted.mpr (nodup_of_subperm within nodup)
  have valSubset : ∀ ep ∈ sorted (sample seed all (heldOut all.length valSplit)), ep ∈ all :=
    fun ep member => List.Subperm.subset within (mem_sorted.mp member)
  refine ⟨_, _, if_neg (by omega), ⟨?_, ?_⟩, ?_⟩
  · intro ep member
    have kept := (List.mem_filter.mp (mem_sorted.mp member)).2
    exact of_decide_eq_true kept
  · have trainNodup := nodup_sorted.mpr (nodup.filter fun ep =>
      decide (ep ∉ sorted (sample seed all (heldOut all.length valSplit))))
    apply (List.perm_ext_iff_of_nodup ?_ nodup).mpr
    · intro ep
      rw [List.mem_append, mem_sorted, List.mem_filter, decide_eq_true_iff]
      constructor
      · rintro (⟨listed, -⟩ | held)
        · exact listed
        · exact valSubset ep held
      · intro listed
        by_cases held : ep ∈ sorted (sample seed all (heldOut all.length valSplit))
        · exact Or.inr held
        · exact Or.inl ⟨listed, held⟩
    · rw [List.nodup_append]
      refine ⟨trainNodup, valNodup, ?_⟩
      intro ep member other held same
      have kept := (List.mem_filter.mp (mem_sorted.mp member)).2
      exact of_decide_eq_true kept (same ▸ held)
  · rw [length_sorted, drawn]

end Parts

/-! ### The data module -/

section Module
variable {sample : Sampler} {totalEpisodes : TotalEpisodes} {args : Arguments} {repoId : Text} {format : DataFormat}

theorem create_of_asksForSplit (asks : AsksForSplit args repoId format) :
    create sample totalEpisodes args =
      (splitEpisodes sample args.valSplitSeed (allEpisodes totalEpisodes repoId args.episodes) args.valSplit).map
        (buildDatasets format) := by
  have range : ¬¬(0 ≤ args.valSplit.value ∧ args.valSplit.value < 1) := not_not.mpr ⟨asks.positive.le, asks.below⟩
  have positive : args.valSplit.value > 0 := asks.positive
  simp only [create, split, asks.repository, asks.noDataset, asks.noGym, asks.valid, if_neg range, if_pos positive,
    Option.isSome_none, Bool.false_eq_true, false_and, and_false, if_false]
  cases splitEpisodes sample args.valSplitSeed (allEpisodes totalEpisodes repoId args.episodes) args.valSplit <;> rfl

/-- In the format of LeRobot no episodes are left for validation. -/
theorem not_promised_of_lerobot (asks : AsksForSplit args repoId .lerobot) (requested : List Int) :
    ¬Promised requested (create sample totalEpisodes args) := by
  rintro ⟨module, train, val, valFormat, built, -, valDataset, -⟩
  rw [create_of_asksForSplit asks] at built
  cases divided : splitEpisodes sample args.valSplitSeed (allEpisodes totalEpisodes repoId args.episodes) args.valSplit with
  | error error =>
      rw [divided] at built
      cases built
  | ok parts =>
      rw [divided] at built
      cases built
      cases valDataset

theorem promised_iff_of_physicalai (draws : DrawsDistinct sample) (asks : AsksForSplit args repoId .physicalai)
    (nodup : (allEpisodes totalEpisodes repoId args.episodes).Nodup)
    (nonempty : allEpisodes totalEpisodes repoId args.episodes ≠ []) :
    Promised (allEpisodes totalEpisodes repoId args.episodes) (create sample totalEpisodes args) ↔
      2 ≤ (allEpisodes totalEpisodes repoId args.episodes).length := by
  have counted : 0 < (allEpisodes totalEpisodes repoId args.episodes).length := List.length_pos_iff.mpr nonempty
  obtain ⟨train, val, divided, parts, held⟩ :=
    splitEpisodes_parts draws nodup counted asks.positive asks.below args.valSplitSeed
  have lengths := parts.whole.length_eq
  rw [List.length_append, held] at lengths
  have trains : train ≠ [] ↔ 2 ≤ (allEpisodes totalEpisodes repoId args.episodes).length := by
    rw [← heldOut_lt_iff counted asks.positive asks.below, ← List.length_pos_iff]
    omega
  have validates : val ≠ [] := by
    rw [← List.length_pos_iff, held]
    exact heldOut_pos _ _
  have built : create sample totalEpisodes args = _ := create_of_asksForSplit asks
  rw [divided] at built
  constructor
  · rintro ⟨module, train', val', valFormat, built', trainEpisodes, -, -, -, full⟩
    rw [built] at built'
    cases built'
    cases trainEpisodes
    exact trains.mp full
  · intro several
    exact ⟨_, train, val, .physicalai, built, rfl, rfl, parts, fun _ => ⟨trains.mpr several, validates⟩,
      trains.mpr several⟩

theorem val_split_promised_iff (draws : DrawsDistinct sample) (asks : AsksForSplit args repoId format)
    (nodup : (allEpisodes totalEpisodes repoId args.episodes).Nodup)
    (nonempty : allEpisodes totalEpisodes repoId args.episodes ≠ []) :
    Promised (allEpisodes totalEpisodes repoId args.episodes) (create sample totalEpisodes args) ↔
      format = .physicalai ∧ 2 ≤ (allEpisodes totalEpisodes repoId args.episodes).length := by
  cases format with
  | lerobot =>
      exact iff_of_false (not_promised_of_lerobot asks _) (fun condition => by cases condition.1)
  | physicalai =>
      rw [promised_iff_of_physicalai draws asks nodup nonempty]
      exact (and_iff_right rfl).symm

end Module

/-! ### Runs -/

def fromFront : Sampler := fun _ population count => population.take count

theorem fromFront_draws : DrawsDistinct fromFront := by
  intro seed population count enough
  exact ⟨List.length_take_of_le enough, (List.take_sublist count population).subperm⟩

/-- The number that 0.1 stands for. -/
def oneTenth : Binary64 where
  value := 3602879701896397 / 2 ^ 55
  representable := ⟨7205759403792794, -56, by norm_num, by norm_num, by norm_num⟩

def tenth (dataFormat : Text) : Arguments where
  repoId := some "pick".toList
  dataset := none
  rootName := none
  episodes := none
  dataFormat := dataFormat
  valSplit := oneTenth
  valSplitSeed := none
  valGym := false

theorem tenth_asks : AsksForSplit (tenth "physicalai".toList) "pick".toList .physicalai :=
  ⟨rfl, rfl, rfl, rfl, by norm_num [tenth, oneTenth], by norm_num [tenth, oneTenth]⟩

theorem three_episodes_split :
    Promised (allEpisodes (fun _ => 3) "pick".toList none) (create fromFront (fun _ => 3) (tenth "physicalai".toList)) :=
  (val_split_promised_iff fromFront_draws tenth_asks (by decide) (by decide)).mpr ⟨rfl, by decide⟩

/-- The single episode is held out, and none is left to train on. -/
theorem single_episode_held_out :
    ¬Promised (allEpisodes (fun _ => 1) "pick".toList none) (create fromFront (fun _ => 1) (tenth "physicalai".toList)) := by
  intro promised
  have several := (promised_iff_of_physicalai fromFront_draws tenth_asks (by decide) (by decide)).mp promised
  exact absurd several (by decide)

end PhysicalAiStudio.Datasets.ValSplit
