import Mathlib.Algebra.Order.Field.Basic
import Mathlib.Algebra.Order.Floor.Ring
import Mathlib.Analysis.Real.Sqrt
import Mathlib.Analysis.SpecialFunctions.Trigonometric.Basic
import Mathlib.Tactic.Linarith

/-! Elementary functions over an ordered field, each given by the facts that are relied on.

A development over them is exact arithmetic: it holds for the real numbers, and for any other ordered
field that has such functions. Python's division is here too, which raises on a zero divisor.
-/

set_option autoImplicit false

namespace PhysicalAiStudio.Numeric

variable {K : Type} [Field K] [LinearOrder K]

/-- A division that raises is `none`. -/
def divide (numerator divisor : K) : Option K :=
  if divisor = 0 then none else some (numerator / divisor)

theorem divide_of_ne_zero (numerator : K) {divisor : K} (nonzero : divisor ≠ 0) :
    divide numerator divisor = some (numerator / divisor) :=
  if_neg nonzero

@[simp] theorem divide_zero (numerator : K) : divide numerator 0 = none :=
  if_pos rfl

/-! ### Cosine -/

structure Cosine (K : Type) [Field K] [LinearOrder K] where
  pi : K
  cos : K → K
  pi_pos : 0 < pi
  cos_zero : cos 0 = 1
  cos_pi : cos pi = -1
  decreasing : ∀ {first second : K}, 0 ≤ first → first < second → second ≤ pi → cos second < cos first

namespace Cosine

noncomputable def real : Cosine ℝ where
  pi := Real.pi
  cos := Real.cos
  pi_pos := Real.pi_pos
  cos_zero := Real.cos_zero
  cos_pi := Real.cos_pi
  decreasing := fun nonneg less bounded => Real.cos_lt_cos_of_nonneg_of_le_pi nonneg bounded less

variable (cosine : Cosine K) {angle first second : K}

theorem antitone (nonneg : 0 ≤ first) (ordered : first ≤ second) (bounded : second ≤ cosine.pi) :
    cosine.cos second ≤ cosine.cos first := by
  rcases ordered.lt_or_eq with less | same
  · exact (cosine.decreasing nonneg less bounded).le
  · rw [same]

theorem le_one (nonneg : 0 ≤ angle) (bounded : angle ≤ cosine.pi) : cosine.cos angle ≤ 1 := by
  rw [← cosine.cos_zero]
  exact cosine.antitone le_rfl nonneg bounded

theorem neg_one_le (nonneg : 0 ≤ angle) (bounded : angle ≤ cosine.pi) : -1 ≤ cosine.cos angle := by
  rw [← cosine.cos_pi]
  exact cosine.antitone nonneg bounded le_rfl

theorem lt_one (positive : 0 < angle) (bounded : angle ≤ cosine.pi) : cosine.cos angle < 1 := by
  rw [← cosine.cos_zero]
  exact cosine.decreasing le_rfl positive bounded

end Cosine

/-! ### Exponential -/

structure Exponential (K : Type) [Field K] [LinearOrder K] where
  exp : K → K
  e : K
  exp_zero : exp 0 = 1
  exp_one : exp 1 = e
  increasing : StrictMono exp

namespace Exponential

noncomputable def real : Exponential ℝ where
  exp := Real.exp
  e := Real.exp 1
  exp_zero := Real.exp_zero
  exp_one := rfl
  increasing := Real.exp_strictMono

variable [IsStrictOrderedRing K] (exponential : Exponential K)

theorem one_lt_e : 1 < exponential.e := by
  rw [← exponential.exp_zero, ← exponential.exp_one]
  exact exponential.increasing one_pos

end Exponential

/-! ### Square root -/

/-- The non-negative root of every non-negative number. -/
structure SquareRoot (K : Type) [Field K] [LinearOrder K] where
  sqrt : K → K
  nonneg : ∀ {radicand : K}, 0 ≤ radicand → 0 ≤ sqrt radicand
  square : ∀ {radicand : K}, 0 ≤ radicand → sqrt radicand * sqrt radicand = radicand

namespace SquareRoot

noncomputable def real : SquareRoot ℝ where
  sqrt := Real.sqrt
  nonneg := fun _ => Real.sqrt_nonneg _
  square := Real.mul_self_sqrt

variable (root : SquareRoot K) {radicand : K}

theorem sqrt_pos (positive : 0 < radicand) : 0 < root.sqrt radicand := by
  rcases (root.nonneg positive.le).lt_or_eq with above | zero
  · exact above
  · have squared := root.square positive.le
    rw [← zero, mul_zero] at squared
    exact absurd squared positive.ne

end SquareRoot

/-! ### Rounding -/

/-- The nearest integer, and of two that are equally near the even one. -/
def roundHalfEven [FloorRing K] (number : K) : ℤ :=
  let below := ⌊number⌋
  let rest := number - below
  if rest + rest < 1 then below
  else if 1 < rest + rest then below + 1
  else if below % 2 = 0 then below
  else below + 1

theorem roundHalfEven_of_lt [FloorRing K] {number : K} (lower : number - ⌊number⌋ + (number - ⌊number⌋) < 1) :
    roundHalfEven number = ⌊number⌋ :=
  if_pos lower

end PhysicalAiStudio.Numeric
