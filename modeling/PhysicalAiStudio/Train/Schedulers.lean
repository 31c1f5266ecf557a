import PhysicalAiStudio.Numeric.Elementary
import Mathlib.Algebra.Order.Floor.Semiring
import Mathlib.Data.Rat.Floor
import Mathlib.Order.Interval.Set.Basic
import Mathlib.Tactic.FieldSimp
import Mathlib.Tactic.Ring

/-! The learning rate over a training run: `train/schedulers.py`.

The factor is computed exactly, over an ordered field with a cosine. Steps count from zero, as the
scheduler that calls the function counts them.
-/

set_option autoImplicit false

namespace PhysicalAiStudio.Train.Schedulers
open Numeric

def maxWarmupFraction : ℚ := 1 / 20

def actualWarmupSteps (numWarmupSteps numDecaySteps : Nat) : Nat :=
  if numWarmupSteps ≥ numDecaySteps then max 1 ⌊(numDecaySteps : ℚ) * maxWarmupFraction⌋₊
  else numWarmupSteps

section Code
variable {K : Type} [Field K] [LinearOrder K] (cosine : Cosine K)

def lrLambda (alpha : K) (actualWarmup numDecaySteps currentStep : Nat) : Option K :=
  if currentStep < actualWarmup then
    -- The ramp starts at one part of the warmup, and the cosine counts from step 0.
    if currentStep ≤ 0 then divide 1 (actualWarmup + 1)
    else do
      let ratio ← divide (currentStep : K) actualWarmup
      let frac := 1 - ratio
      let start ← divide 1 (actualWarmup + 1 : K)
      return (start - 1) * frac + 1
  else do
    let step := min currentStep numDecaySteps
    let angle ← divide (cosine.pi * step) (numDecaySteps : K)
    let cosineDecay := 1 / 2 * (1 + cosine.cos angle)
    return (1 - alpha) * cosineDecay + alpha

def cosineDecayWithWarmupScheduler (peakLr decayLr : K) (numWarmupSteps numDecaySteps : Nat) :
    Option (Nat → Option K) := do
  let actualWarmup := actualWarmupSteps numWarmupSteps numDecaySteps
  let alpha ← divide decayLr peakLr
  return lrLambda cosine alpha actualWarmup numDecaySteps

end Code

/-! ### What the schedule is for -/

structure Shape {K : Type} [One K] [LinearOrder K] (warmup horizon : Nat) (last : K)
    (factor : Nat → K) : Prop where
  rises : MonotoneOn factor (Set.Iic warmup)
  peak : factor warmup = 1
  falls : AntitoneOn factor (Set.Ici warmup)
  settles : ∀ step, horizon ≤ step → factor step = last
  bounded : ∀ step, min (factor 0) last ≤ factor step ∧ factor step ≤ 1

/-- The function is there, is defined at every step and has the documented shape. -/
def Documented {K : Type} [Field K] [LinearOrder K] (cosine : Cosine K) (peakLr decayLr : K)
    (numWarmupSteps numDecaySteps : Nat) : Prop :=
  ∃ lambda, cosineDecayWithWarmupScheduler cosine peakLr decayLr numWarmupSteps numDecaySteps = some lambda ∧
    ∃ factor : Nat → K, (∀ step, lambda step = some (factor step)) ∧
      Shape (actualWarmupSteps numWarmupSteps numDecaySteps) numDecaySteps (decayLr / peakLr) factor

/-- A factor that rises over the warmup, goes on at its end with a value of the decay, which is one only where there is
no warmup or nothing to decay to, and falls from there to its last value at the horizon. -/
structure Resuming {K : Type} [One K] [LinearOrder K] (warmup horizon : Nat) (last : K) (decay : Nat → K)
    (factor : Nat → K) : Prop where
  rises : MonotoneOn factor (Set.Iio warmup)
  resumes : factor warmup = decay warmup
  peak : factor warmup = 1 ↔ warmup = 0 ∨ last = 1
  falls : AntitoneOn factor (Set.Ici warmup)
  settles : ∀ step, horizon ≤ step → factor step = last
  bounded : ∀ step, min (factor 0) last ≤ factor step ∧ factor step ≤ 1

/-! ### The warmup length -/

theorem actualWarmupSteps_zero {numDecaySteps : Nat} (positive : 0 < numDecaySteps) :
    actualWarmupSteps 0 numDecaySteps = 0 :=
  if_neg (by omega)

theorem actualWarmupSteps_pos {numWarmupSteps : Nat} (positive : 0 < numWarmupSteps) (numDecaySteps : Nat) :
    0 < actualWarmupSteps numWarmupSteps numDecaySteps := by
  unfold actualWarmupSteps
  split
  · exact lt_of_lt_of_le Nat.one_pos (le_max_left _ _)
  · exact positive

theorem floor_warmup_le (numDecaySteps : Nat) : ⌊(numDecaySteps : ℚ) * maxWarmupFraction⌋₊ ≤ numDecaySteps := by
  have small : (numDecaySteps : ℚ) * maxWarmupFraction ≤ numDecaySteps := by
    have nonneg : (0 : ℚ) ≤ numDecaySteps := Nat.cast_nonneg numDecaySteps
    unfold maxWarmupFraction
    linarith
  calc ⌊(numDecaySteps : ℚ) * maxWarmupFraction⌋₊ ≤ ⌊(numDecaySteps : ℚ)⌋₊ := Nat.floor_le_floor small
    _ = numDecaySteps := Nat.floor_natCast numDecaySteps

/-- The clamped warmup fits every horizon of at least one step. -/
theorem actualWarmupSteps_le (numWarmupSteps : Nat) {numDecaySteps : Nat} (positive : 0 < numDecaySteps) :
    actualWarmupSteps numWarmupSteps numDecaySteps ≤ numDecaySteps := by
  unfold actualWarmupSteps
  split
  · exact max_le positive (floor_warmup_le numDecaySteps)
  · omega

theorem actualWarmupSteps_of_horizon_zero (numWarmupSteps : Nat) : actualWarmupSteps numWarmupSteps 0 = 1 := by
  simp [actualWarmupSteps]

/-! ### The factor of each step -/

section Factor
variable {K : Type} [Field K] [LinearOrder K] [IsStrictOrderedRing K] (cosine : Cosine K)

def warmupFactor (warmup step : Nat) : K :=
  (1 / (warmup + 1) - 1) * (1 - step / warmup) + 1

def decayFactor (alpha : K) (horizon step : Nat) : K :=
  (1 - alpha) * (1 / 2 * (1 + cosine.cos (cosine.pi * (min step horizon : Nat) / horizon))) + alpha

def factorAt (alpha : K) (warmup horizon step : Nat) : K :=
  if step < warmup then warmupFactor warmup step else decayFactor cosine alpha horizon step

/-- The function is there, is defined at every step and goes on after the warmup with the cosine from step zero. -/
def ResumesCosine (peakLr decayLr : K) (numWarmupSteps numDecaySteps : Nat) : Prop :=
  ∃ lambda, cosineDecayWithWarmupScheduler cosine peakLr decayLr numWarmupSteps numDecaySteps = some lambda ∧
    ∃ factor : Nat → K, (∀ step, lambda step = some (factor step)) ∧
      Resuming (actualWarmupSteps numWarmupSteps numDecaySteps) numDecaySteps (decayLr / peakLr)
        (decayFactor cosine (decayLr / peakLr) numDecaySteps) factor

omit [LinearOrder K] [IsStrictOrderedRing K] in
theorem warmupFactor_zero (warmup : Nat) : warmupFactor warmup 0 = (1 / (warmup + 1) : K) := by
  simp [warmupFactor]

theorem lrLambda_of_horizon (alpha : K) (warmup : Nat) {horizon : Nat} (positive : 0 < horizon) (step : Nat) :
    lrLambda cosine alpha warmup horizon step = some (factorAt cosine alpha warmup horizon step) := by
  have horizonNonzero : (horizon : K) ≠ 0 := Nat.cast_ne_zero.mpr positive.ne'
  have nextNonzero : (warmup + 1 : K) ≠ 0 := Nat.cast_add_one_ne_zero warmup
  unfold lrLambda factorAt
  by_cases warming : step < warmup
  · rw [if_pos warming, if_pos warming]
    by_cases start : step ≤ 0
    · rw [if_pos start, Nat.le_zero.mp start, warmupFactor_zero]
      exact divide_of_ne_zero 1 nextNonzero
    · have warmupNonzero : (warmup : K) ≠ 0 := Nat.cast_ne_zero.mpr (by omega)
      rw [if_neg start, divide_of_ne_zero _ warmupNonzero, divide_of_ne_zero 1 nextNonzero]
      rfl
  · rw [if_neg warming, if_neg warming]
    simp only [divide_of_ne_zero _ horizonNonzero]
    rfl

omit [IsStrictOrderedRing K] in
theorem lrLambda_of_horizon_zero (alpha : K) {warmup step : Nat} (past : warmup ≤ step) :
    lrLambda cosine alpha warmup 0 step = none := by
  have divisor : ((0 : Nat) : K) = 0 := Nat.cast_zero
  unfold lrLambda
  rw [if_neg (by omega)]
  simp only [divisor, divide_zero]
  rfl

/-! ### Warmup -/

theorem start_le_one (warmup : Nat) : (1 / (warmup + 1) : K) ≤ 1 := by
  have nonneg : (0 : K) ≤ warmup := Nat.cast_nonneg warmup
  rw [div_le_one (by linarith)]
  linarith

theorem warmupFactor_mono (warmup : Nat) {first second : Nat} (ordered : first ≤ second) :
    warmupFactor (K := K) warmup first ≤ warmupFactor warmup second := by
  have start := start_le_one (K := K) warmup
  have ratios : (first / warmup : K) ≤ second / warmup := by
    gcongr
  unfold warmupFactor
  have scaled := mul_le_mul_of_nonpos_left (sub_le_sub_left ratios 1) (sub_nonpos.mpr start)
  linarith

theorem warmupFactor_le_one {warmup step : Nat} (warming : step ≤ warmup) :
    (warmupFactor warmup step : K) ≤ 1 := by
  have start := start_le_one (K := K) warmup
  have ratio : (step / warmup : K) ≤ 1 := div_le_one_of_le₀ (Nat.cast_le.mpr warming) (Nat.cast_nonneg warmup)
  have product : (1 / (warmup + 1) - 1 : K) * (1 - step / warmup) ≤ 0 :=
    mul_nonpos_of_nonpos_of_nonneg (sub_nonpos.mpr start) (sub_nonneg.mpr ratio)
  unfold warmupFactor
  linarith

/-! ### Decay -/

theorem angle_nonneg (horizon step : Nat) : 0 ≤ cosine.pi * (min step horizon : Nat) / horizon :=
  div_nonneg (mul_nonneg cosine.pi_pos.le (Nat.cast_nonneg _)) (Nat.cast_nonneg _)

theorem decayFactor_zero (alpha : K) (horizon : Nat) : decayFactor cosine alpha horizon 0 = 1 := by
  unfold decayFactor
  rw [Nat.zero_min, Nat.cast_zero, mul_zero, zero_div, cosine.cos_zero]
  ring

section Decay
variable {alpha : K} {horizon : Nat} (positive : 0 < horizon)
include positive

theorem angle_le_pi (step : Nat) : cosine.pi * (min step horizon : Nat) / horizon ≤ cosine.pi := by
  have horizonPositive : (0 : K) < horizon := Nat.cast_pos.mpr positive
  have bounded : ((min step horizon : Nat) : K) ≤ horizon := Nat.cast_le.mpr (min_le_right step horizon)
  rw [div_le_iff₀ horizonPositive]
  exact mul_le_mul_of_nonneg_left bounded cosine.pi_pos.le

theorem angle_mono {first second : Nat} (ordered : first ≤ second) :
    cosine.pi * (min first horizon : Nat) / horizon ≤ cosine.pi * (min second horizon : Nat) / horizon := by
  have horizonPositive : (0 : K) < horizon := Nat.cast_pos.mpr positive
  have steps : ((min first horizon : Nat) : K) ≤ (min second horizon : Nat) :=
    Nat.cast_le.mpr (min_le_min_right horizon ordered)
  have scaled := mul_le_mul_of_nonneg_left steps cosine.pi_pos.le
  exact div_le_div_of_nonneg_right scaled horizonPositive.le

theorem decayFactor_antitone (upper : alpha ≤ 1) {first second : Nat} (ordered : first ≤ second) :
    decayFactor cosine alpha horizon second ≤ decayFactor cosine alpha horizon first := by
  have cosines := cosine.antitone (angle_nonneg cosine horizon first) (angle_mono cosine positive ordered)
    (angle_le_pi cosine positive second)
  have scaled := mul_le_mul_of_nonneg_left cosines (sub_nonneg.mpr upper)
  unfold decayFactor
  linarith

theorem decayFactor_of_horizon_le {step : Nat} (past : horizon ≤ step) :
    decayFactor cosine alpha horizon step = alpha := by
  have horizonNonzero : (horizon : K) ≠ 0 := Nat.cast_ne_zero.mpr positive.ne'
  unfold decayFactor
  rw [min_eq_right past, mul_div_assoc, div_self horizonNonzero, mul_one, cosine.cos_pi]
  ring

theorem decayFactor_le_one (upper : alpha ≤ 1) (step : Nat) : decayFactor cosine alpha horizon step ≤ 1 := by
  have cosines := cosine.le_one (angle_nonneg cosine horizon step) (angle_le_pi cosine positive step)
  have scaled := mul_le_mul_of_nonneg_left cosines (sub_nonneg.mpr upper)
  unfold decayFactor
  linarith

theorem le_decayFactor (upper : alpha ≤ 1) (step : Nat) : alpha ≤ decayFactor cosine alpha horizon step := by
  have cosines := cosine.neg_one_le (angle_nonneg cosine horizon step) (angle_le_pi cosine positive step)
  have scaled := mul_le_mul_of_nonneg_left cosines (sub_nonneg.mpr upper)
  unfold decayFactor
  linarith

/-- The cosine starts at step zero, so after any warmup the factor is already below its peak. -/
theorem decayFactor_lt_one (upper : alpha < 1) {step : Nat} (later : 0 < step) :
    decayFactor cosine alpha horizon step < 1 := by
  have horizonPositive : (0 : K) < horizon := Nat.cast_pos.mpr positive
  have stepPositive : (0 : K) < (min step horizon : Nat) := Nat.cast_pos.mpr (lt_min later positive)
  have angle : 0 < cosine.pi * (min step horizon : Nat) / horizon :=
    div_pos (mul_pos cosine.pi_pos stepPositive) horizonPositive
  have cosines := cosine.lt_one angle (angle_le_pi cosine positive step)
  have scaled := mul_lt_mul_of_pos_left cosines (sub_pos.mpr upper)
  unfold decayFactor
  linarith

end Decay
/-! ### The whole schedule -/

section Schedule
variable {alpha : K} {warmup horizon : Nat} (positive : 0 < horizon)

omit [IsStrictOrderedRing K] in
theorem factorAt_of_lt {step : Nat} (warming : step < warmup) :
    factorAt cosine alpha warmup horizon step = warmupFactor warmup step :=
  if_pos warming

omit [IsStrictOrderedRing K] in
theorem factorAt_of_le {step : Nat} (past : warmup ≤ step) :
    factorAt cosine alpha warmup horizon step = decayFactor cosine alpha horizon step :=
  if_neg (by omega)

include positive

theorem factorAt_le_one (upper : alpha ≤ 1) (step : Nat) : factorAt cosine alpha warmup horizon step ≤ 1 := by
  rcases Nat.lt_or_ge step warmup with warming | past
  · rw [factorAt_of_lt cosine warming]
    exact warmupFactor_le_one warming.le
  · rw [factorAt_of_le cosine past]
    exact decayFactor_le_one cosine positive upper step

theorem min_le_factorAt (upper : alpha ≤ 1) (step : Nat) :
    min (factorAt cosine alpha warmup horizon 0) alpha ≤ factorAt cosine alpha warmup horizon step := by
  rcases Nat.lt_or_ge step warmup with warming | past
  · rw [factorAt_of_lt cosine warming, factorAt_of_lt cosine (Nat.zero_lt_of_lt warming)]
    exact min_le_of_left_le (warmupFactor_mono warmup (Nat.zero_le step))
  · rw [factorAt_of_le cosine past]
    exact min_le_of_right_le (le_decayFactor cosine positive upper step)

theorem factorAt_falls (upper : alpha ≤ 1) :
    AntitoneOn (factorAt cosine alpha warmup horizon) (Set.Ici warmup) := by
  intro first firstPast second secondPast ordered
  rw [factorAt_of_le cosine firstPast, factorAt_of_le cosine secondPast]
  exact decayFactor_antitone cosine positive upper ordered

theorem factorAt_rises (upper : alpha ≤ 1) (peak : factorAt cosine alpha warmup horizon warmup = 1) :
    MonotoneOn (factorAt cosine alpha warmup horizon) (Set.Iic warmup) := by
  intro first _ second secondWithin ordered
  rcases (Set.mem_Iic.mp secondWithin).lt_or_eq with warming | ends
  · rw [factorAt_of_lt cosine warming, factorAt_of_lt cosine (lt_of_le_of_lt ordered warming)]
    exact warmupFactor_mono warmup ordered
  · rw [ends, peak]
    exact factorAt_le_one cosine positive upper first

theorem shape_iff_peak (upper : alpha ≤ 1) (fits : warmup ≤ horizon) :
    Shape warmup horizon alpha (factorAt cosine alpha warmup horizon) ↔
      factorAt cosine alpha warmup horizon warmup = 1 := by
  constructor
  · exact Shape.peak
  · intro peak
    exact {
      rises := factorAt_rises cosine positive upper peak
      peak := peak
      falls := factorAt_falls cosine positive upper
      settles := fun step past => by
        rw [factorAt_of_le cosine (fits.trans past)]
        exact decayFactor_of_horizon_le cosine positive past
      bounded := fun step =>
        ⟨min_le_factorAt cosine positive upper step, factorAt_le_one cosine positive upper step⟩ }

/-- The peak is met only where there is no warmup to spend, or nothing to decay to. -/
theorem peak_iff (upper : alpha ≤ 1) :
    factorAt cosine alpha warmup horizon warmup = 1 ↔ warmup = 0 ∨ alpha = 1 := by
  rw [factorAt_of_le cosine le_rfl]
  constructor
  · intro peak
    by_contra neither
    have later : 0 < warmup := by omega
    have below : alpha < 1 := lt_of_le_of_ne upper (fun same => neither (Or.inr same))
    exact (decayFactor_lt_one cosine positive below later).ne peak
  · rintro (noWarmup | full)
    · rw [noWarmup]
      exact decayFactor_zero cosine alpha horizon
    · rw [full]
      unfold decayFactor
      ring

end Schedule

variable {peakLr decayLr : K}

omit [IsStrictOrderedRing K] in
theorem scheduler_of_peak (peakPositive : 0 < peakLr) (decayLr : K) (numWarmupSteps numDecaySteps : Nat) :
    cosineDecayWithWarmupScheduler cosine peakLr decayLr numWarmupSteps numDecaySteps =
      some (lrLambda cosine (decayLr / peakLr) (actualWarmupSteps numWarmupSteps numDecaySteps) numDecaySteps) := by
  simp only [cosineDecayWithWarmupScheduler, divide_of_ne_zero _ peakPositive.ne']
  rfl

omit [IsStrictOrderedRing K] in
/-- No schedule is documented by an empty horizon: the step after its clamped warmup raises. -/
theorem not_documented_of_horizon_zero (peakPositive : 0 < peakLr) (decayLr : K) (numWarmupSteps : Nat) :
    ¬Documented cosine peakLr decayLr numWarmupSteps 0 := by
  rintro ⟨lambda, built, factor, defined, -⟩
  rw [scheduler_of_peak cosine peakPositive, actualWarmupSteps_of_horizon_zero] at built
  cases built
  have raised := lrLambda_of_horizon_zero cosine (decayLr / peakLr) (le_refl 1)
  rw [defined 1] at raised
  cases raised

theorem documented_iff_peak (peakPositive : 0 < peakLr) (upper : decayLr ≤ peakLr) (numWarmupSteps : Nat)
    {numDecaySteps : Nat} (horizon : 0 < numDecaySteps) :
    Documented cosine peakLr decayLr numWarmupSteps numDecaySteps ↔
      actualWarmupSteps numWarmupSteps numDecaySteps = 0 ∨ decayLr / peakLr = 1 := by
  have ratio : decayLr / peakLr ≤ 1 := (div_le_one peakPositive).mpr upper
  rw [← peak_iff cosine horizon ratio,
    ← shape_iff_peak cosine horizon ratio (actualWarmupSteps_le numWarmupSteps horizon)]
  constructor
  · rintro ⟨lambda, built, factor, defined, shape⟩
    rw [scheduler_of_peak cosine peakPositive] at built
    cases built
    have same : factor = factorAt cosine (decayLr / peakLr) (actualWarmupSteps numWarmupSteps numDecaySteps)
        numDecaySteps := by
      funext step
      have value := defined step
      rw [lrLambda_of_horizon cosine _ _ horizon] at value
      exact (Option.some.inj value).symm
    rwa [same] at shape
  · intro shape
    exact ⟨_, scheduler_of_peak cosine peakPositive decayLr numWarmupSteps numDecaySteps, _,
      lrLambda_of_horizon cosine _ _ horizon, shape⟩

theorem scheduler_documented_iff (peakPositive : 0 < peakLr) (upper : decayLr ≤ peakLr)
    (numWarmupSteps numDecaySteps : Nat) :
    Documented cosine peakLr decayLr numWarmupSteps numDecaySteps ↔
      0 < numDecaySteps ∧ (numWarmupSteps = 0 ∨ decayLr = peakLr) := by
  rcases Nat.eq_zero_or_pos numDecaySteps with empty | horizon
  · subst empty
    exact iff_of_false (not_documented_of_horizon_zero cosine peakPositive decayLr numWarmupSteps)
      (fun condition => absurd condition.1 (Nat.lt_irrefl 0))
  · have warmups : actualWarmupSteps numWarmupSteps numDecaySteps = 0 ↔ numWarmupSteps = 0 := by
      constructor
      · intro noWarmup
        by_contra configured
        exact (actualWarmupSteps_pos (by omega) numDecaySteps).ne' noWarmup
      · intro noWarmup
        rw [noWarmup]
        exact actualWarmupSteps_zero horizon
    rw [documented_iff_peak cosine peakPositive upper numWarmupSteps horizon, warmups,
      div_eq_one_iff_eq peakPositive.ne']
    exact (and_iff_right horizon).symm

theorem factorAt_resuming {alpha : K} {warmup horizon : Nat} (positive : 0 < horizon) (upper : alpha ≤ 1)
    (fits : warmup ≤ horizon) :
    Resuming warmup horizon alpha (decayFactor cosine alpha horizon) (factorAt cosine alpha warmup horizon) where
  rises first _ second secondWithin ordered := by
    rw [factorAt_of_lt cosine secondWithin, factorAt_of_lt cosine (lt_of_le_of_lt ordered secondWithin)]
    exact warmupFactor_mono warmup ordered
  resumes := factorAt_of_le cosine le_rfl
  peak := peak_iff cosine positive upper
  falls := factorAt_falls cosine positive upper
  settles step past := by
    rw [factorAt_of_le cosine (fits.trans past)]
    exact decayFactor_of_horizon_le cosine positive past
  bounded step := ⟨min_le_factorAt cosine positive upper step, factorAt_le_one cosine positive upper step⟩

/-- Over a horizon of at least one step the schedule goes on where the warmup ends with a cosine counted from step zero,
and so it has the documented shape only without a warmup or without a decay. -/
theorem schedule_resumes_cosine (peakPositive : 0 < peakLr) (upper : decayLr ≤ peakLr) (numWarmupSteps : Nat)
    {numDecaySteps : Nat} (horizon : 0 < numDecaySteps) :
    ResumesCosine cosine peakLr decayLr numWarmupSteps numDecaySteps ∧
      (Documented cosine peakLr decayLr numWarmupSteps numDecaySteps ↔ numWarmupSteps = 0 ∨ decayLr = peakLr) := by
  have ratio : decayLr / peakLr ≤ 1 := (div_le_one peakPositive).mpr upper
  constructor
  · exact ⟨_, scheduler_of_peak cosine peakPositive decayLr numWarmupSteps numDecaySteps, _,
      lrLambda_of_horizon cosine _ _ horizon,
      factorAt_resuming cosine horizon ratio (actualWarmupSteps_le numWarmupSteps horizon)⟩
  · rw [scheduler_documented_iff cosine peakPositive upper]
    exact and_iff_right horizon

theorem thousand_steps_resume :
    ResumesCosine Cosine.real 1 (1 / 10) 1000 30000 ∧
      (Documented Cosine.real 1 (1 / 10) 1000 30000 ↔ 1000 = 0 ∨ (1 / 10 : ℝ) = 1) :=
  schedule_resumes_cosine Cosine.real one_pos (by norm_num) 1000 (by decide)

/-- After a warmup of a thousand steps the rate resumes below the peak it climbed to. -/
theorem peak_never_reached : ¬Documented Cosine.real 1 (1 / 10) 1000 30000 := by
  rw [documented_iff_peak Cosine.real one_pos (by norm_num) 1000 (by decide)]
  rintro (noWarmup | full)
  · exact (actualWarmupSteps_pos (by decide) 30000).ne' noWarmup
  · norm_num at full

end Factor

end PhysicalAiStudio.Train.Schedulers
