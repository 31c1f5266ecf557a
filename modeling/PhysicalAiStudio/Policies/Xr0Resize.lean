import PhysicalAiStudio.Numeric.Elementary
import Mathlib.Tactic.FieldSimp
import Mathlib.Tactic.GCongr
import Mathlib.Tactic.LinearCombination
import Mathlib.Tactic.Ring

/-! The size that camera images are resized to before the vision encoder: `_target_size` of
`policies/xr0/preprocessor.py`.

The computation is exact, over an ordered field with a square root. The pixels are left out.
-/

set_option autoImplicit false

namespace PhysicalAiStudio.Policies.Xr0Resize
open Numeric

def maxAspectRatio : Nat := 200

section Code
variable {K : Type} [Field K] [LinearOrder K] [FloorRing K] (root : SquareRoot K)

inductive Error (K : Type) where
  | zeroDivision
  | aspectRatio (ratio : K)

def quotient (numerator divisor : K) : Except (Error K) K :=
  match divide numerator divisor with
  | none => .error .zeroDivision
  | some value => .ok value

def targetSize (height width factor maxPixels : Nat) : Except (Error K) (ℤ × ℤ) := do
  let ratio ← quotient ((max height width : Nat) : K) (min height width : Nat)
  if ratio > maxAspectRatio then
    throw (.aspectRatio ratio)
  let heightParts ← quotient (height : K) factor
  let newHeight : ℤ := max (factor : ℤ) (roundHalfEven heightParts * factor)
  let widthParts ← quotient (width : K) factor
  let newWidth : ℤ := max (factor : ℤ) (roundHalfEven widthParts * factor)
  -- Over the budget the original sides are scaled anew, and rounded down.
  if newHeight * newWidth > maxPixels then
    let radicand ← quotient ((height * width : Nat) : K) maxPixels
    let scale := root.sqrt radicand
    let scaledHeight ← quotient (← quotient (height : K) scale) factor
    let scaledWidth ← quotient (← quotient (width : K) scale) factor
    return (max (factor : ℤ) (⌊scaledHeight⌋ * factor), max (factor : ℤ) (⌊scaledWidth⌋ * factor))
  else
    return (newHeight, newWidth)

end Code

/-! ### The size that is promised -/

/-- Both sides are patches side by side, and the area is within the budget. -/
structure Capped (factor maxPixels : Nat) (size : ℤ × ℤ) : Prop where
  height_pos : 0 < size.1
  height_patches : (factor : ℤ) ∣ size.1
  width_pos : 0 < size.2
  width_patches : (factor : ℤ) ∣ size.2
  area_le : size.1 * size.2 ≤ maxPixels

def Accepted (height width : Nat) : Prop :=
  max height width ≤ maxAspectRatio * min height width

instance (height width : Nat) : Decidable (Accepted height width) :=
  inferInstanceAs (Decidable (_ ≤ _))

def roundedSide (K : Type) [Field K] [LinearOrder K] [FloorRing K] (factor side : Nat) : ℤ :=
  max (factor : ℤ) (roundHalfEven (side / factor : K) * factor)

/-- Without scaling the image is within the budget. -/
def RoundedFits (K : Type) [Field K] [LinearOrder K] [FloorRing K]
    (height width factor maxPixels : Nat) : Prop :=
  roundedSide K factor height * roundedSide K factor width ≤ maxPixels

def ShortSideFits (short long factor maxPixels : Nat) : Prop :=
  long * factor ^ 2 ≤ short * maxPixels

/-- Scaled to the area of the budget, the long side has no more patches than the budget. -/
def LongSideFits (short long factor maxPixels : Nat) : Prop :=
  long * maxPixels < short * factor ^ 2 * (maxPixels / factor ^ 2 + 1) ^ 2

/-! ### Sides in whole patches -/

theorem max_patches (factor : Nat) {patches : ℤ} :
    max (factor : ℤ) (patches * factor) = factor * max 1 patches := by
  rw [mul_comm patches, mul_max_of_nonneg 1 patches (Int.natCast_nonneg factor), mul_one]

theorem side_pos {factor : Nat} (positive : 0 < factor) (patches : ℤ) :
    0 < max (factor : ℤ) (patches * factor) :=
  lt_max_of_lt_left (Int.natCast_pos.mpr positive)

theorem side_patches (factor : Nat) (patches : ℤ) : (factor : ℤ) ∣ max (factor : ℤ) (patches * factor) := by
  rw [max_patches]
  exact dvd_mul_right _ _

/-- Of a size that the code builds only the area can be wrong. -/
theorem capped_iff_area {factor : Nat} (positive : 0 < factor) (maxPixels : Nat) (heights widths : ℤ) :
    Capped factor maxPixels (max (factor : ℤ) (heights * factor), max (factor : ℤ) (widths * factor)) ↔
      max (factor : ℤ) (heights * factor) * max (factor : ℤ) (widths * factor) ≤ maxPixels := by
  constructor
  · exact Capped.area_le
  · intro area
    exact ⟨side_pos positive heights, side_patches factor heights, side_pos positive widths,
      side_patches factor widths, area⟩

theorem area_eq (factor heights widths : Nat) :
    max (factor : ℤ) (heights * factor) * max (factor : ℤ) (widths * factor) =
      (max 1 heights * max 1 widths * factor ^ 2 : Nat) := by
  rw [max_patches, max_patches]
  push_cast
  ring

/-! ### How many patches are left after scaling -/

section Scaling
variable {K : Type} [Field K] [LinearOrder K] [IsStrictOrderedRing K]

/-- The square of a scaled side is a ratio of integers, so its patches are counted without a root. -/
theorem le_scaled_iff {scale : K} {side other factor maxPixels : Nat} (scalePositive : 0 < scale)
    (square : scale * scale = (side * other : Nat) / maxPixels) (sidePositive : 0 < side)
    (factorPositive : 0 < factor) (budget : 0 < maxPixels) (patches : Nat) :
    (patches : K) ≤ side / scale / factor ↔ patches ^ 2 * factor ^ 2 * other ≤ side * maxPixels := by
  have sideField : (0 : K) < side := Nat.cast_pos.mpr sidePositive
  have factorField : (0 : K) < factor := Nat.cast_pos.mpr factorPositive
  have budgetField : (0 : K) < maxPixels := Nat.cast_pos.mpr budget
  have squared : scale * scale * maxPixels = side * other := by
    rw [square, div_mul_cancel₀ _ budgetField.ne']
    push_cast
    ring
  calc (patches : K) ≤ side / scale / factor
      ↔ patches * factor * scale ≤ side := by
        rw [le_div_iff₀ factorField, le_div_iff₀ scalePositive]
    _ ↔ (patches * factor * scale) ^ 2 ≤ (side : K) ^ 2 :=
        (pow_le_pow_iff_left₀ (by positivity) sideField.le two_ne_zero).symm
    _ ↔ (patches * factor * scale) ^ 2 * maxPixels ≤ (side : K) ^ 2 * maxPixels :=
        (mul_le_mul_iff_left₀ budgetField).symm
    _ ↔ side * ((patches : K) ^ 2 * factor ^ 2 * other) ≤ side * (side * maxPixels) := by
        have left : (patches * factor * scale) ^ 2 * maxPixels = side * ((patches : K) ^ 2 * factor ^ 2 * other) := by
          linear_combination (patches : K) ^ 2 * factor ^ 2 * squared
        have right : (side : K) ^ 2 * maxPixels = side * (side * maxPixels) := by ring
        rw [left, right]
    _ ↔ (patches : K) ^ 2 * factor ^ 2 * other ≤ side * maxPixels := mul_le_mul_iff_right₀ sideField
    _ ↔ patches ^ 2 * factor ^ 2 * other ≤ side * maxPixels := by
        rw [← Nat.cast_le (α := K)]
        push_cast
        rfl

end Scaling

/-! ### The area in whole patches -/

/-- A count of patches that is the largest whose squared length fits beside the other side. -/
def Counts (patches side other factor maxPixels : Nat) : Prop :=
  ∀ count, count ≤ patches ↔ count ^ 2 * factor ^ 2 * other ≤ side * maxPixels

theorem area_of_both {shorts longs short long factor maxPixels : Nat} (shortPositive : 0 < short)
    (longPositive : 0 < long) (shortCount : Counts shorts short long factor maxPixels)
    (longCount : Counts longs long short factor maxPixels) :
    shorts * longs * factor ^ 2 ≤ maxPixels := by
  have shortFits := (shortCount shorts).mp le_rfl
  have longFits := (longCount longs).mp le_rfl
  have product := Nat.mul_le_mul shortFits longFits
  have squares : (shorts * longs * factor ^ 2) ^ 2 * (short * long) ≤ maxPixels ^ 2 * (short * long) := by
    calc (shorts * longs * factor ^ 2) ^ 2 * (short * long)
        = shorts ^ 2 * factor ^ 2 * long * (longs ^ 2 * factor ^ 2 * short) := by ring
      _ ≤ short * maxPixels * (long * maxPixels) := product
      _ = maxPixels ^ 2 * (short * long) := by ring
  have root := Nat.le_of_mul_le_mul_right squares (Nat.mul_pos shortPositive longPositive)
  exact (Nat.pow_le_pow_iff_left two_ne_zero).mp root

/-- A side that is raised to one patch is not paid for by the other, which keeps its scaled length. -/
theorem scaled_area_iff {shorts longs short long factor maxPixels : Nat} (shortPositive : 0 < short)
    (ordered : short ≤ long) (factorPositive : 0 < factor) (budget : factor ^ 2 ≤ maxPixels)
    (shortCount : Counts shorts short long factor maxPixels)
    (longCount : Counts longs long short factor maxPixels) :
    max 1 shorts * max 1 longs * factor ^ 2 ≤ maxPixels ↔
      ShortSideFits short long factor maxPixels ∨ LongSideFits short long factor maxPixels := by
  have one : 1 ≤ shorts ↔ ShortSideFits short long factor maxPixels := by
    rw [shortCount 1]
    unfold ShortSideFits
    rw [one_pow, one_mul, mul_comm]
  have patchPositive : 0 < factor ^ 2 := by positivity
  -- Either both sides hold a patch, or the short one was raised to one.
  by_cases fits : 1 ≤ shorts
  · have longOne : 1 ≤ longs := by
      apply (longCount 1).mpr
      have shortFits := (shortCount 1).mp fits
      calc 1 ^ 2 * factor ^ 2 * short ≤ 1 ^ 2 * factor ^ 2 * long := Nat.mul_le_mul_left _ ordered
        _ ≤ short * maxPixels := shortFits
        _ ≤ long * maxPixels := Nat.mul_le_mul_right _ ordered
    rw [max_eq_right fits, max_eq_right longOne]
    exact iff_of_true (area_of_both shortPositive (lt_of_lt_of_le shortPositive ordered) shortCount longCount)
      (Or.inl (one.mp fits))
  · have budgetOne : 1 ≤ maxPixels / factor ^ 2 := (Nat.one_le_div_iff patchPositive).mpr budget
    have long : longs < maxPixels / factor ^ 2 + 1 ↔ LongSideFits short long factor maxPixels := by
      rw [← not_le, longCount, not_le]
      unfold LongSideFits
      rw [mul_comm short, mul_comm (factor ^ 2 * short), mul_assoc]
    have raised : max 1 shorts = 1 := by omega
    rw [raised, one_mul, ← Nat.le_div_iff_mul_le patchPositive, max_le_iff, and_iff_right budgetOne,
      ← Nat.lt_succ_iff, ← Nat.add_one, long]
    exact (or_iff_right (fun shortFits => fits (one.mpr shortFits))).symm

/-! ### What the code returns -/

section Size
variable {K : Type} [Field K] [LinearOrder K] [IsStrictOrderedRing K] [FloorRing K] (root : SquareRoot K)

def scaleOf (height width maxPixels : Nat) : K :=
  root.sqrt ((height * width : Nat) / maxPixels)

def scaledSide (scale : K) (factor side : Nat) : ℤ :=
  max (factor : ℤ) (⌊(side : K) / scale / factor⌋ * factor)

omit [Field K] [LinearOrder K] [IsStrictOrderedRing K] [FloorRing K] in
theorem ok_bind {α β : Type} (value : α) (next : α → Except (Error K) β) :
    (Except.ok value : Except (Error K) α) >>= next = next value := rfl

omit [IsStrictOrderedRing K] [FloorRing K] in
theorem quotient_of_ne_zero (numerator : K) {divisor : K} (nonzero : divisor ≠ 0) :
    quotient numerator divisor = .ok (numerator / divisor) := by
  rw [quotient, divide_of_ne_zero numerator nonzero]

variable {height width factor maxPixels : Nat}

omit [FloorRing K] in
theorem ratio_le_iff (heightPositive : 0 < height) (widthPositive : 0 < width) :
    ((max height width : Nat) : K) / (min height width : Nat) ≤ maxAspectRatio ↔ Accepted height width := by
  have short : (0 : K) < (min height width : Nat) := Nat.cast_pos.mpr (lt_min heightPositive widthPositive)
  rw [div_le_iff₀ short, ← Nat.cast_mul, Nat.cast_le]
  rfl

omit [FloorRing K] in
theorem scaleOf_pos (heightPositive : 0 < height) (widthPositive : 0 < width) (budget : 0 < maxPixels) :
    0 < scaleOf root height width maxPixels :=
  root.sqrt_pos (div_pos (Nat.cast_pos.mpr (Nat.mul_pos heightPositive widthPositive)) (Nat.cast_pos.mpr budget))

omit [FloorRing K] in
theorem scaleOf_square (height width maxPixels : Nat) :
    scaleOf root height width maxPixels * scaleOf root height width maxPixels =
      (height * width : Nat) / maxPixels :=
  root.square (div_nonneg (Nat.cast_nonneg _) (Nat.cast_nonneg _))

open Classical in
theorem targetSize_of_accepted (heightPositive : 0 < height) (widthPositive : 0 < width)
    (factorPositive : 0 < factor) (budget : 0 < maxPixels) (accepted : Accepted height width) :
    targetSize root height width factor maxPixels =
      .ok (if RoundedFits K height width factor maxPixels then
          (roundedSide K factor height, roundedSide K factor width)
        else (scaledSide (scaleOf root height width maxPixels) factor height,
          scaledSide (scaleOf root height width maxPixels) factor width)) := by
  have short : ((min height width : Nat) : K) ≠ 0 :=
    Nat.cast_ne_zero.mpr (lt_min heightPositive widthPositive).ne'
  have factorNonzero : (factor : K) ≠ 0 := Nat.cast_ne_zero.mpr factorPositive.ne'
  have budgetNonzero : (maxPixels : K) ≠ 0 := Nat.cast_ne_zero.mpr budget.ne'
  have scaleNonzero := (scaleOf_pos root heightPositive widthPositive budget).ne'
  have ratio := not_lt.mpr ((ratio_le_iff (K := K) heightPositive widthPositive).mpr accepted)
  unfold scaleOf at scaleNonzero
  simp only [targetSize, quotient_of_ne_zero _ short, quotient_of_ne_zero _ factorNonzero,
    quotient_of_ne_zero _ budgetNonzero, ok_bind, if_neg ratio, quotient_of_ne_zero _ scaleNonzero]
  by_cases fits : RoundedFits K height width factor maxPixels
  · rw [if_pos fits]
    exact if_neg (not_lt.mpr fits)
  · rw [if_neg fits]
    exact if_pos (not_le.mp fits)

theorem counts_of_scale {scale : K} {side other : Nat} (scalePositive : 0 < scale)
    (square : scale * scale = (side * other : Nat) / maxPixels) (sidePositive : 0 < side)
    (factorPositive : 0 < factor) (budget : 0 < maxPixels) :
    ∃ patches : Nat, Counts patches side other factor maxPixels ∧
      scaledSide scale factor side = max (factor : ℤ) (patches * factor) := by
  have nonneg : 0 ≤ ⌊(side : K) / scale / factor⌋ :=
    Int.floor_nonneg.mpr (div_nonneg (div_nonneg (Nat.cast_nonneg _) scalePositive.le) (Nat.cast_nonneg _))
  refine ⟨⌊(side : K) / scale / factor⌋.toNat, ?_, ?_⟩
  · intro count
    rw [← le_scaled_iff scalePositive square sidePositive factorPositive budget, Int.le_toNat nonneg,
      Int.le_floor, Int.cast_natCast]
  · rw [Int.toNat_of_nonneg nonneg]
    rfl

theorem scaled_capped_iff (heightPositive : 0 < height) (widthPositive : 0 < width)
    (factorPositive : 0 < factor) (budget : factor ^ 2 ≤ maxPixels) :
    Capped factor maxPixels (scaledSide (scaleOf root height width maxPixels) factor height,
        scaledSide (scaleOf root height width maxPixels) factor width) ↔
      ShortSideFits (min height width) (max height width) factor maxPixels ∨
        LongSideFits (min height width) (max height width) factor maxPixels := by
  have budgetPositive : 0 < maxPixels := lt_of_lt_of_le (pow_pos factorPositive 2) budget
  have scalePositive := scaleOf_pos root heightPositive widthPositive budgetPositive
  have square := scaleOf_square root height width maxPixels
  have swapped := square
  rw [mul_comm height width] at swapped
  obtain ⟨heights, heightCount, heightSide⟩ :=
    counts_of_scale scalePositive square heightPositive factorPositive budgetPositive
  obtain ⟨widths, widthCount, widthSide⟩ :=
    counts_of_scale scalePositive swapped widthPositive factorPositive budgetPositive
  rw [heightSide, widthSide, capped_iff_area factorPositive, area_eq, Nat.cast_le]
  rcases Nat.le_total height width with tall | wide
  · rw [min_eq_left tall, max_eq_right tall]
    exact scaled_area_iff heightPositive tall factorPositive budget heightCount widthCount
  · rw [min_eq_right wide, max_eq_left wide, mul_comm (max 1 heights)]
    exact scaled_area_iff widthPositive wide factorPositive budget widthCount heightCount

def Resizes (height width factor maxPixels : Nat) : Prop :=
  ∃ size, targetSize root height width factor maxPixels = .ok size ∧ Capped factor maxPixels size

theorem resizes_of_rounded_fits (heightPositive : 0 < height) (widthPositive : 0 < width)
    (factorPositive : 0 < factor) (budget : 0 < maxPixels) (accepted : Accepted height width)
    (fits : RoundedFits K height width factor maxPixels) : Resizes root height width factor maxPixels := by
  refine ⟨_, targetSize_of_accepted root heightPositive widthPositive factorPositive budget accepted, ?_⟩
  rw [if_pos fits]
  exact (capped_iff_area factorPositive maxPixels _ _).mpr fits

theorem resizes_iff_of_scaling (heightPositive : 0 < height) (widthPositive : 0 < width)
    (factorPositive : 0 < factor) (budget : factor ^ 2 ≤ maxPixels) (accepted : Accepted height width)
    (scaling : ¬RoundedFits K height width factor maxPixels) :
    Resizes root height width factor maxPixels ↔
      ShortSideFits (min height width) (max height width) factor maxPixels ∨
        LongSideFits (min height width) (max height width) factor maxPixels := by
  have budgetPositive : 0 < maxPixels := lt_of_lt_of_le (pow_pos factorPositive 2) budget
  have returned := targetSize_of_accepted root heightPositive widthPositive factorPositive budgetPositive accepted
  rw [if_neg scaling] at returned
  rw [← scaled_capped_iff root heightPositive widthPositive factorPositive budget]
  constructor
  · rintro ⟨size, same, capped⟩
    rw [returned] at same
    cases same
    exact capped
  · intro capped
    exact ⟨_, returned, capped⟩

theorem targetSize_capped_iff (heightPositive : 0 < height) (widthPositive : 0 < width)
    (factorPositive : 0 < factor) (budget : factor ^ 2 ≤ maxPixels) (accepted : Accepted height width) :
    Resizes root height width factor maxPixels ↔
      RoundedFits K height width factor maxPixels ∨
        ShortSideFits (min height width) (max height width) factor maxPixels ∨
          LongSideFits (min height width) (max height width) factor maxPixels := by
  by_cases fits : RoundedFits K height width factor maxPixels
  · have budgetPositive : 0 < maxPixels := lt_of_lt_of_le (pow_pos factorPositive 2) budget
    exact iff_of_true
      (resizes_of_rounded_fits root heightPositive widthPositive factorPositive budgetPositive accepted fits)
      (Or.inl fits)
  · exact (resizes_iff_of_scaling root heightPositive widthPositive factorPositive budget accepted fits).trans
      (or_iff_right fits).symm

end Size

theorem camera_frame_resized : Resizes SquareRoot.real 480 640 32 90000 :=
  (targetSize_capped_iff SquareRoot.real (by decide) (by decide) (by decide) (by decide) (by decide)).mpr
    (Or.inr (Or.inl (by decide : 640 * 32 ^ 2 ≤ 480 * 90000)))

theorem strip_not_rounded_fits : ¬RoundedFits ℝ 1 200 32 1024 := by
  have short : roundedSide ℝ 32 1 = 32 := by
    have floor : ⌊((1 : Nat) / (32 : Nat) : ℝ)⌋ = 0 := by
      rw [Int.floor_eq_iff]
      norm_num
    rw [roundedSide, roundHalfEven_of_lt (by rw [floor]; norm_num), floor]
    rfl
  have long : roundedSide ℝ 32 200 = 192 := by
    have floor : ⌊((200 : Nat) / (32 : Nat) : ℝ)⌋ = 6 := by
      rw [Int.floor_eq_iff]
      norm_num
    rw [roundedSide, roundHalfEven_of_lt (by rw [floor]; norm_num), floor]
    rfl
  rw [RoundedFits, short, long]
  decide

/-- A strip of one row is raised to a whole patch and keeps fourteen patches of its width. -/
theorem strip_over_budget : ¬Resizes SquareRoot.real 1 200 32 1024 := by
  intro resized
  have sides := (resizes_iff_of_scaling SquareRoot.real (by decide) (by decide) (by decide) (by decide)
    (by decide) strip_not_rounded_fits).mp resized
  exact absurd sides (by unfold ShortSideFits LongSideFits; decide)

end PhysicalAiStudio.Policies.Xr0Resize
