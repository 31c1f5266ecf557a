import PhysicalAiStudio.Numeric.Elementary
import Mathlib.Data.List.Basic
import Mathlib.Tactic.Positivity

/-! The weights that hold the start of a chunk to the previous one: `policies/mixins/rtc.py`. -/

set_option autoImplicit false

namespace PhysicalAiStudio.Policies.Rtc
open Numeric

variable {K : Type} [Field K] [LinearOrder K]

/-- The control values of an inference batch, each of which may be missing. -/
structure Inputs (K : Type) where
  inferenceDelay : Option K
  executionHorizon : Option K
  maxGuidanceWeight : Option K

def Inputs.delay (batch : Inputs K) : K := batch.inferenceDelay.getD 0

def Inputs.horizon (batch : Inputs K) : K := batch.executionHorizon.getD 0

def Inputs.guidance (batch : Inputs K) : K := batch.maxGuidanceWeight.getD 0

structure Policy where
  rtcEnabled : Bool
  chunkSize : Nat
  nActionSteps : Nat

/-- What the errors of the validation say, with the values they name. -/
inductive InputError (K : Type) where
  | horizonNotPositive (horizon : K)
  | unorderedTiming (delay horizon : K) (chunkSize : Nat)
  | negativeGuidance (guidance : K)
  | horizonAboveHalf (horizon : K) (half : Nat)
  | partialChunk (nActionSteps chunkSize : Nat)

def validateRtcInputs (policy : Policy) (batch : Inputs K) : Except (InputError K) Unit :=
  if !policy.rtcEnabled then .ok ()
  else if batch.horizon ≤ 0 then .error (.horizonNotPositive batch.horizon)
  else if ¬(0 ≤ batch.delay ∧ batch.delay ≤ batch.horizon ∧ batch.horizon ≤ (policy.chunkSize : K)) then
    .error (.unorderedTiming batch.delay batch.horizon policy.chunkSize)
  else if batch.guidance < 0 then .error (.negativeGuidance batch.guidance)
  else if ((policy.chunkSize / 2 : Nat) : K) < batch.horizon then
    .error (.horizonAboveHalf batch.horizon (policy.chunkSize / 2))
  else if policy.nActionSteps ≠ policy.chunkSize then .error (.partialChunk policy.nActionSteps policy.chunkSize)
  else .ok ()

inductive PrefixAttentionSchedule where
  | linear
  | exp
  deriving DecidableEq

/-- `torch.clamp` between zero and one. -/
def clamp (weight : K) : K := min (max weight 0) 1

variable (exponential : Exponential K)

/-- The weight at one index; nothing where a divisor is zero. -/
def prefixWeight (schedule : PrefixAttentionSchedule) (start stop : K) (index : Nat) : Option K := do
  let ratio ← divide (stop - index) (stop - start + 1)
  let weight := clamp ratio
  match schedule with
  | .exp => divide (weight * (exponential.exp weight - 1)) (exponential.e - 1)
  | .linear => return weight

def computePrefixWeights (schedule : PrefixAttentionSchedule) (chunkSize : Nat)
    (inferenceDelay executionHorizon : K) : Option (List K) :=
  (List.range chunkSize).mapM
    (prefixWeight exponential schedule (min inferenceDelay executionHorizon) executionHorizon)

structure Fades (chunkSize : Nat) (delay horizon : ℤ) (weights : List K) : Prop where
  length : weights.length = chunkSize
  bounded : ∀ weight ∈ weights, 0 ≤ weight ∧ weight ≤ 1
  falls : weights.Pairwise (· ≥ ·)
  full : ∀ (index : Nat) (weight : K), weights[index]? = some weight → index < delay → weight = 1
  none : ∀ (index : Nat) (weight : K), weights[index]? = some weight → horizon ≤ index → weight = 0
  between : ∀ (index : Nat) (weight : K), weights[index]? = some weight → delay ≤ index → index < horizon →
    0 < weight ∧ weight < 1

/-! ### One weight -/

section Weights
variable [IsStrictOrderedRing K]

omit [IsStrictOrderedRing K] in
theorem clamp_of_le {weight : K} (nonneg : 0 ≤ weight) (bounded : weight ≤ 1) : clamp weight = weight := by
  rw [clamp, max_eq_left nonneg, min_eq_left bounded]

theorem clamp_of_one_le {weight : K} (above : 1 ≤ weight) : clamp weight = 1 := by
  rw [clamp, max_eq_left (zero_le_one.trans above), min_eq_right above]

theorem clamp_of_nonpos {weight : K} (below : weight ≤ 0) : clamp weight = 0 := by
  rw [clamp, max_eq_right below, min_eq_left zero_le_one]

theorem clamp_nonneg (weight : K) : 0 ≤ clamp weight :=
  le_min (le_max_right weight 0) zero_le_one

omit [IsStrictOrderedRing K] in
theorem clamp_le_one (weight : K) : clamp weight ≤ 1 := min_le_right _ 1

omit [IsStrictOrderedRing K] in
theorem clamp_mono {first second : K} (ordered : first ≤ second) : clamp first ≤ clamp second :=
  min_le_min (max_le_max ordered le_rfl) le_rfl

def scheduled (schedule : PrefixAttentionSchedule) (weight : K) : K :=
  match schedule with
  | .exp => weight * (exponential.exp weight - 1) / (exponential.e - 1)
  | .linear => weight

variable {exponential} {schedule : PrefixAttentionSchedule}

omit [IsStrictOrderedRing K] in
theorem scheduled_zero : scheduled exponential schedule 0 = 0 := by
  cases schedule <;> simp [scheduled]

theorem scheduled_one : scheduled exponential schedule 1 = 1 := by
  have apart : exponential.e - 1 ≠ 0 := sub_ne_zero.mpr exponential.one_lt_e.ne'
  cases schedule with
  | exp => rw [scheduled, exponential.exp_one, one_mul, div_self apart]
  | linear => rfl

/-- The exponential schedule keeps the order of the weights that it is given. -/
theorem scheduled_lt {first second : K} (nonneg : 0 ≤ first) (less : first < second) :
    scheduled exponential schedule first < scheduled exponential schedule second := by
  cases schedule with
  | linear => exact less
  | exp =>
      have divisor : 0 < exponential.e - 1 := sub_pos.mpr exponential.one_lt_e
      have low : 0 ≤ exponential.exp first - 1 := by
        rw [sub_nonneg, ← exponential.exp_zero]
        exact exponential.increasing.monotone nonneg
      have high : exponential.exp first - 1 < exponential.exp second - 1 :=
        sub_lt_sub_right (exponential.increasing less) 1
      apply div_lt_div_of_pos_right _ divisor
      calc first * (exponential.exp first - 1)
          ≤ second * (exponential.exp first - 1) := mul_le_mul_of_nonneg_right less.le low
        _ < second * (exponential.exp second - 1) := mul_lt_mul_of_pos_left high (nonneg.trans_lt less)

theorem scheduled_le {first second : K} (nonneg : 0 ≤ first) (ordered : first ≤ second) :
    scheduled exponential schedule first ≤ scheduled exponential schedule second := by
  rcases ordered.lt_or_eq with less | same
  · exact (scheduled_lt nonneg less).le
  · rw [same]

def ramp (delay horizon : ℤ) (index : Nat) : K := ((horizon : K) - index) / ((horizon : K) - delay + 1)

theorem divisor_pos {delay horizon : ℤ} (ordered : delay ≤ horizon) : 0 < (horizon : K) - delay + 1 := by
  have cast : (delay : K) ≤ horizon := Int.cast_le.mpr ordered
  linarith

theorem prefixWeight_eq {delay horizon : ℤ} (ordered : delay ≤ horizon) (index : Nat) :
    prefixWeight exponential schedule (delay : K) horizon index =
      some (scheduled exponential schedule (clamp (ramp delay horizon index))) := by
  have apart : exponential.e - 1 ≠ 0 := sub_ne_zero.mpr exponential.one_lt_e.ne'
  unfold prefixWeight
  rw [divide_of_ne_zero _ (divisor_pos ordered).ne']
  cases schedule with
  | exp => exact divide_of_ne_zero _ apart
  | linear => rfl

theorem ramp_antitone {delay horizon : ℤ} (ordered : delay ≤ horizon) {first second : Nat} (less : first ≤ second) :
    (ramp delay horizon second : K) ≤ ramp delay horizon first := by
  have cast : (first : K) ≤ second := Nat.cast_le.mpr less
  exact div_le_div_of_nonneg_right (by linarith) (divisor_pos ordered).le

theorem one_le_ramp {delay horizon : ℤ} (ordered : delay ≤ horizon) {index : Nat} (before : (index : ℤ) < delay) :
    (1 : K) ≤ ramp delay horizon index := by
  have cast : (index : K) + 1 ≤ delay := by exact_mod_cast before
  rw [ramp, le_div_iff₀ (divisor_pos ordered)]
  linarith

theorem ramp_nonpos {delay horizon : ℤ} (ordered : delay ≤ horizon) {index : Nat} (after : horizon ≤ (index : ℤ)) :
    (ramp delay horizon index : K) ≤ 0 := by
  have cast : (horizon : K) ≤ index := by exact_mod_cast after
  exact div_nonpos_of_nonpos_of_nonneg (by linarith) (divisor_pos ordered).le

theorem ramp_between {delay horizon : ℤ} (ordered : delay ≤ horizon) {index : Nat} (reached : delay ≤ (index : ℤ))
    (before : (index : ℤ) < horizon) : (0 : K) < ramp delay horizon index ∧ (ramp delay horizon index : K) < 1 := by
  have low : (delay : K) ≤ index := by exact_mod_cast reached
  have high : (index : K) < horizon := by exact_mod_cast before
  constructor
  · exact div_pos (by linarith) (divisor_pos ordered)
  · rw [ramp, div_lt_one (divisor_pos ordered)]
    linarith

/-! ### The whole row -/

variable (exponential) (schedule) in
def rowOf (chunkSize : Nat) (delay horizon : ℤ) : List K :=
  (List.range chunkSize).map fun index => scheduled exponential schedule (clamp (ramp delay horizon index))

theorem computePrefixWeights_eq {delay horizon : ℤ} (ordered : delay ≤ horizon) (chunkSize : Nat) :
    computePrefixWeights exponential schedule chunkSize (delay : K) horizon =
      some (rowOf exponential schedule chunkSize delay horizon) := by
  have cast : (delay : K) ≤ horizon := Int.cast_le.mpr ordered
  have entries : prefixWeight exponential schedule (delay : K) horizon = fun index =>
      pure (scheduled exponential schedule (clamp (ramp delay horizon index))) := by
    funext index
    exact prefixWeight_eq ordered index
  rw [computePrefixWeights, min_eq_left cast, entries, List.mapM_pure]
  rfl

theorem rowOf_fades {delay horizon : ℤ} (ordered : delay ≤ horizon) (chunkSize : Nat) :
    Fades chunkSize delay horizon (rowOf exponential schedule chunkSize delay horizon) := by
  have entry : ∀ (index : Nat) (weight : K), (rowOf exponential schedule chunkSize delay horizon)[index]? = some weight →
      weight = scheduled exponential schedule (clamp (ramp delay horizon index)) := by
    intro index weight found
    rw [rowOf, List.getElem?_map, Option.map_eq_some_iff] at found
    obtain ⟨position, there, same⟩ := found
    obtain ⟨bound, here⟩ := List.getElem?_eq_some_iff.mp there
    rw [List.getElem_range] at here
    rw [← same, here]
  -- The schedule is monotone with fixed ends, so a clamped argument stays between them.
  have between : ∀ index : Nat, 0 ≤ scheduled exponential schedule (clamp (ramp delay horizon index)) ∧
      scheduled exponential schedule (clamp (ramp delay horizon index)) ≤ 1 := by
    intro index
    have low : scheduled exponential schedule 0 ≤ scheduled exponential schedule (clamp (ramp delay horizon index)) :=
      scheduled_le le_rfl (clamp_nonneg _)
    have high : scheduled exponential schedule (clamp (ramp delay horizon index)) ≤ scheduled exponential schedule 1 :=
      scheduled_le (clamp_nonneg _) (clamp_le_one _)
    rw [scheduled_zero] at low
    rw [scheduled_one] at high
    exact ⟨low, high⟩
  constructor
  · rw [rowOf, List.length_map, List.length_range]
  · intro weight member
    obtain ⟨index, -, same⟩ := List.mem_map.mp member
    rw [← same]
    exact between index
  · rw [rowOf, List.pairwise_map]
    refine List.Pairwise.imp ?_ List.pairwise_lt_range
    intro first second less
    exact scheduled_le (clamp_nonneg _) (clamp_mono (ramp_antitone ordered less.le))
  · intro index weight found before
    rw [entry index weight found, clamp_of_one_le (one_le_ramp ordered before), scheduled_one]
  · intro index weight found after
    rw [entry index weight found, clamp_of_nonpos (ramp_nonpos ordered after), scheduled_zero]
  · intro index weight found reached before
    obtain ⟨positive, below⟩ := @ramp_between K _ _ _ delay horizon ordered index reached before
    have low := @scheduled_lt K _ _ exponential _ schedule 0 (ramp delay horizon index) le_rfl positive
    have high := @scheduled_lt K _ _ exponential _ schedule (ramp delay horizon index) 1 positive.le below
    rw [scheduled_zero] at low
    rw [scheduled_one] at high
    rw [entry index weight found, clamp_of_le positive.le below.le]
    exact ⟨low, high⟩

/-! ### What the validation admits -/

omit [IsStrictOrderedRing K] in
theorem delay_le_horizon {policy : Policy} {batch : Inputs K} (enabled : policy.rtcEnabled = true)
    (admitted : validateRtcInputs policy batch = .ok ()) : batch.delay ≤ batch.horizon := by
  unfold validateRtcInputs at admitted
  rw [enabled, Bool.not_true, if_neg Bool.false_ne_true] at admitted
  by_contra unordered
  have refused : ¬(0 ≤ batch.delay ∧ batch.delay ≤ batch.horizon ∧ batch.horizon ≤ (policy.chunkSize : K)) :=
    fun timing => unordered timing.2.1
  rw [if_pos refused] at admitted
  split at admitted <;> cases admitted

/-- Every admitted delay and horizon gives the weights of a fade, with no divisor that is zero. -/
theorem prefix_weights_fade {policy : Policy} {batch : Inputs K} (enabled : policy.rtcEnabled = true)
    (admitted : validateRtcInputs policy batch = .ok ()) {delay horizon : ℤ} (delayGiven : batch.delay = delay)
    (horizonGiven : batch.horizon = horizon) :
    ∃ row, computePrefixWeights exponential schedule policy.chunkSize batch.delay batch.horizon = some row ∧
      Fades policy.chunkSize delay horizon row := by
  have cast := delay_le_horizon enabled admitted
  rw [delayGiven, horizonGiven] at cast ⊢
  have ordered : delay ≤ horizon := Int.cast_le.mp cast
  exact ⟨_, computePrefixWeights_eq ordered policy.chunkSize, rowOf_fades ordered policy.chunkSize⟩

end Weights

theorem prefix_weights_fade_exp :
    ∃ row, computePrefixWeights Exponential.real .exp 16 2 5 = some row ∧ Fades 16 2 5 row := by
  have admitted : validateRtcInputs ⟨true, 16, 16⟩ (⟨some 2, some 5, some 10⟩ : Inputs ℝ) = .ok () := by
    norm_num [validateRtcInputs, Inputs.delay, Inputs.horizon, Inputs.guidance]
  have delayGiven : (⟨some 2, some 5, some 10⟩ : Inputs ℝ).delay = ((2 : ℤ) : ℝ) := by
    simp [Inputs.delay]
  have horizonGiven : (⟨some 2, some 5, some 10⟩ : Inputs ℝ).horizon = ((5 : ℤ) : ℝ) := by
    simp [Inputs.horizon]
  exact prefix_weights_fade rfl admitted delayGiven horizonGiven

end PhysicalAiStudio.Policies.Rtc
