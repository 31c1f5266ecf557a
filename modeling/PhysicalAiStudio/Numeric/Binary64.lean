import PhysicalAiStudio.Numeric.Elementary
import Mathlib.Data.Int.Log
import Mathlib.Data.Rat.Floor

/-! The finite floating-point numbers of 64 bits, as rationals, and rounding to the nearest of them.

The exponent is bounded below and not above: what is computed here stays far from the largest number.
-/

set_option autoImplicit false

namespace PhysicalAiStudio.Numeric

/-! ### Rounding to an integer -/

section Integers
variable {number other : ℚ}

theorem roundHalfEven_eq (number : ℚ) :
    roundHalfEven number = ⌊number⌋ ∧ number - ⌊number⌋ ≤ 1 / 2 ∨
      roundHalfEven number = ⌊number⌋ + 1 ∧ 1 / 2 ≤ number - ⌊number⌋ := by
  by_cases below : number - ⌊number⌋ + (number - ⌊number⌋) < 1
  · exact Or.inl ⟨roundHalfEven_of_lt below, by linarith⟩
  · by_cases above : 1 < number - ⌊number⌋ + (number - ⌊number⌋)
    · refine Or.inr ⟨?_, by linarith⟩
      simp only [roundHalfEven, if_neg below, if_pos above]
    · by_cases even : ⌊number⌋ % 2 = 0
      · refine Or.inl ⟨?_, by linarith⟩
        simp only [roundHalfEven, if_neg below, if_neg above, if_pos even]
      · refine Or.inr ⟨?_, by linarith⟩
        simp only [roundHalfEven, if_neg below, if_neg above, if_neg even]

theorem roundHalfEven_le_add_half (number : ℚ) : (roundHalfEven number : ℚ) ≤ number + 1 / 2 := by
  have floored := Int.floor_le number
  rcases roundHalfEven_eq number with ⟨rounded, -⟩ | ⟨rounded, half⟩
  · rw [rounded]
    linarith
  · rw [rounded]
    push_cast
    linarith

@[simp] theorem roundHalfEven_intCast (value : ℤ) : roundHalfEven (value : ℚ) = value := by
  have whole : (value : ℚ) - ⌊(value : ℚ)⌋ + (value - ⌊(value : ℚ)⌋) < 1 := by
    rw [Int.floor_intCast]
    linarith
  rw [roundHalfEven_of_lt whole, Int.floor_intCast]

theorem roundHalfEven_mono (ordered : number ≤ other) : roundHalfEven number ≤ roundHalfEven other := by
  have floors : ⌊number⌋ ≤ ⌊other⌋ := Int.floor_mono ordered
  rcases floors.lt_or_eq with less | same
  · have upper : roundHalfEven number ≤ ⌊number⌋ + 1 := by
      rcases roundHalfEven_eq number with ⟨rounded, -⟩ | ⟨rounded, -⟩ <;> omega
    have lower : ⌊other⌋ ≤ roundHalfEven other := by
      rcases roundHalfEven_eq other with ⟨rounded, -⟩ | ⟨rounded, -⟩ <;> omega
    omega
  · -- Within one unit only the rests decide, and a tie goes the same way on both sides.
    simp only [roundHalfEven, same]
    split_ifs <;> first | omega | (exfalso; linarith)

end Integers

/-! ### The grid -/

def quantumExponent (number : ℚ) : ℤ := max (Int.log 2 |number| - 52) (-1074)

def quantum (number : ℚ) : ℚ := 2 ^ quantumExponent number

def toBinary64 (number : ℚ) : ℚ := roundHalfEven (number / quantum number) * quantum number

def IsBinary64 (number : ℚ) : Prop :=
  ∃ mantissa exponent : ℤ, |mantissa| < 2 ^ 53 ∧ -1074 ≤ exponent ∧ number = mantissa * 2 ^ exponent

structure Binary64 where
  value : ℚ
  representable : IsBinary64 value

section Grid
variable {number other : ℚ}

theorem quantum_pos (number : ℚ) : 0 < quantum number :=
  zpow_pos two_pos _

theorem log_le_quantumExponent (number : ℚ) : Int.log 2 |number| - 52 ≤ quantumExponent number :=
  le_max_left _ _

theorem lt_quantum (positive : 0 < number) : number < 2 ^ (53 : ℤ) * quantum number := by
  calc number < 2 ^ (Int.log 2 number + 1) := by exact_mod_cast Int.lt_zpow_succ_log_self (b := 2) (by norm_num) number
    _ ≤ 2 ^ (53 + quantumExponent number) := by
        apply zpow_le_zpow_right₀ one_le_two
        have exponent := log_le_quantumExponent number
        rw [abs_of_pos positive] at exponent
        omega
    _ = 2 ^ (53 : ℤ) * quantum number := zpow_add₀ two_ne_zero 53 (quantumExponent number)

theorem quantumExponent_mono (positive : 0 < number) (ordered : number ≤ other) :
    quantumExponent number ≤ quantumExponent other := by
  have logs : Int.log 2 number ≤ Int.log 2 other := Int.log_mono_right positive ordered
  unfold quantumExponent
  rw [abs_of_pos positive, abs_of_pos (positive.trans_le ordered)]
  omega

/-- Above the smallest exponent the leading bit is set. -/
theorem quantum_le_of_normal (positive : 0 < number) (normal : -1074 < quantumExponent number) :
    2 ^ (52 : ℤ) * quantum number ≤ number := by
  have exponent : quantumExponent number = Int.log 2 number - 52 := by
    unfold quantumExponent at normal ⊢
    rw [abs_of_pos positive] at normal ⊢
    omega
  rw [quantum, exponent, ← zpow_add₀ two_ne_zero, show (52 : ℤ) + (Int.log 2 number - 52) = Int.log 2 number by omega]
  exact_mod_cast Int.zpow_log_le_self (b := 2) (by norm_num) positive

theorem toBinary64_le_of_le (number : ℚ) (bound : ℤ) (within : number ≤ bound * quantum number) :
    toBinary64 number ≤ bound * quantum number := by
  have divided : number / quantum number ≤ bound := (div_le_iff₀ (quantum_pos number)).mpr within
  have rounded := roundHalfEven_mono divided
  rw [roundHalfEven_intCast] at rounded
  exact mul_le_mul_of_nonneg_right (by exact_mod_cast rounded) (quantum_pos number).le

theorem le_toBinary64_of_le (number : ℚ) (bound : ℤ) (within : bound * quantum number ≤ number) :
    bound * quantum number ≤ toBinary64 number := by
  have divided : (bound : ℚ) ≤ number / quantum number := (le_div_iff₀ (quantum_pos number)).mpr within
  have rounded := roundHalfEven_mono divided
  rw [roundHalfEven_intCast] at rounded
  exact mul_le_mul_of_nonneg_right (by exact_mod_cast rounded) (quantum_pos number).le

theorem toBinary64_nonneg (nonneg : 0 ≤ number) : 0 ≤ toBinary64 number := by
  have lower := le_toBinary64_of_le number 0 (by simpa using nonneg)
  simpa using lower

@[simp] theorem toBinary64_zero : toBinary64 0 = 0 := by
  rw [toBinary64, zero_div, ← Int.cast_zero, roundHalfEven_intCast, Int.cast_zero, zero_mul]

theorem toBinary64_le_add (number : ℚ) : toBinary64 number ≤ number + quantum number / 2 := by
  have rounded := mul_le_mul_of_nonneg_right (roundHalfEven_le_add_half (number / quantum number)) (quantum_pos number).le
  calc toBinary64 number ≤ (number / quantum number + 1 / 2) * quantum number := rounded
    _ = number + quantum number / 2 := by
        rw [add_mul, div_mul_cancel₀ _ (quantum_pos number).ne']
        ring

theorem toBinary64_mono (nonneg : 0 ≤ number) (ordered : number ≤ other) : toBinary64 number ≤ toBinary64 other := by
  rcases nonneg.eq_or_lt with zero | positive
  · rw [← zero, toBinary64_zero]
    exact toBinary64_nonneg (nonneg.trans ordered)
  · rcases (quantumExponent_mono positive ordered).lt_or_eq with less | same
    · -- The power of two between the two grids is on both.
      have normal : -1074 < quantumExponent other := lt_of_le_of_lt (le_max_right _ _) less
      have step : 2 ^ (53 : ℤ) * quantum number ≤ 2 ^ (52 : ℤ) * quantum other := by
        rw [quantum, quantum, ← zpow_add₀ two_ne_zero, ← zpow_add₀ two_ne_zero]
        exact zpow_le_zpow_right₀ one_le_two (by omega)
      have upper := toBinary64_le_of_le number (2 ^ 53) (by exact_mod_cast (lt_quantum positive).le)
      have lower := le_toBinary64_of_le other (2 ^ 52)
        (by exact_mod_cast quantum_le_of_normal (positive.trans_le ordered) normal)
      push_cast at upper lower
      exact upper.trans ((by exact_mod_cast step : (2 : ℚ) ^ 53 * quantum number ≤ 2 ^ 52 * quantum other).trans lower)
    · have quanta : quantum number = quantum other := congrArg (2 ^ ·) same
      unfold toBinary64
      rw [quanta]
      apply mul_le_mul_of_nonneg_right _ (quantum_pos other).le
      exact_mod_cast roundHalfEven_mono (div_le_div_of_nonneg_right ordered (quantum_pos other).le)

theorem quantumExponent_le_of_mantissa {mantissa exponent : ℤ} (nonzero : mantissa ≠ 0) (small : |mantissa| < 2 ^ 53)
    (lowest : -1074 ≤ exponent) : quantumExponent (mantissa * 2 ^ exponent) ≤ exponent := by
  have power : (0 : ℚ) < 2 ^ exponent := zpow_pos two_pos _
  have magnitude : |(mantissa * 2 ^ exponent : ℚ)| = |mantissa| * 2 ^ exponent := by
    rw [abs_mul, abs_of_pos power, Int.cast_abs]
  have positive : (0 : ℚ) < |mantissa| * 2 ^ exponent := mul_pos (by exact_mod_cast abs_pos.mpr nonzero) power
  have below : (|mantissa| * 2 ^ exponent : ℚ) < ((2 : ℕ) : ℚ) ^ (53 + exponent) := by
    rw [Nat.cast_ofNat, zpow_add₀ two_ne_zero]
    exact mul_lt_mul_of_pos_right (by exact_mod_cast small) power
  have log := (Int.lt_zpow_iff_log_lt (b := 2) (by norm_num) positive).mp below
  rw [quantumExponent, magnitude]
  omega

theorem toBinary64_of_isBinary64 (representable : IsBinary64 number) : toBinary64 number = number := by
  obtain ⟨mantissa, exponent, small, lowest, rfl⟩ := representable
  rcases eq_or_ne mantissa 0 with zero | nonzero
  · rw [zero, Int.cast_zero, zero_mul, toBinary64_zero]
  · obtain ⟨shift, shifted⟩ := Int.le.dest (quantumExponent_le_of_mantissa nonzero small lowest)
    have onGrid : (mantissa * 2 ^ exponent : ℚ) / quantum (mantissa * 2 ^ exponent) = ((mantissa * 2 ^ shift : ℤ) : ℚ) := by
      rw [div_eq_iff (quantum_pos _).ne', quantum]
      push_cast
      rw [mul_assoc, ← zpow_natCast, ← zpow_add₀ two_ne_zero, add_comm (shift : ℤ), shifted]
    rw [toBinary64, onGrid, roundHalfEven_intCast, ← onGrid, div_mul_cancel₀ _ (quantum_pos _).ne']

theorem isBinary64_toBinary64 (nonneg : 0 ≤ number) : IsBinary64 (toBinary64 number) := by
  rcases nonneg.eq_or_lt with zero | positive
  · exact ⟨0, 0, by norm_num, by norm_num, by rw [← zero, toBinary64_zero, Int.cast_zero, zero_mul]⟩
  · have lowest : -1074 ≤ quantumExponent number := le_max_right _ _
    have lower : 0 ≤ roundHalfEven (number / quantum number) := by
      have rounded := roundHalfEven_mono (div_nonneg nonneg (quantum_pos number).le)
      rwa [← Int.cast_zero, roundHalfEven_intCast] at rounded
    have upper : roundHalfEven (number / quantum number) ≤ 2 ^ 53 := by
      have divided : number / quantum number ≤ ((2 ^ 53 : ℤ) : ℚ) :=
        (div_le_iff₀ (quantum_pos number)).mpr (by exact_mod_cast (lt_quantum positive).le)
      have rounded := roundHalfEven_mono divided
      rwa [roundHalfEven_intCast] at rounded
    rcases upper.lt_or_eq with less | full
    · exact ⟨_, _, by rwa [abs_of_nonneg lower], lowest, rfl⟩
    · -- Rounding up to the next power of two moves to the next grid.
      refine ⟨2 ^ 52, quantumExponent number + 1, by norm_num, by omega, ?_⟩
      rw [toBinary64, full, quantum, zpow_add₀ two_ne_zero]
      push_cast
      ring

end Grid

namespace Binary64

theorem representable_one : IsBinary64 1 :=
  ⟨1, 0, by norm_num, by norm_num, by norm_num⟩

/-- Nothing lies between the largest number below one and one. -/
theorem value_le_of_lt_one (number : Binary64) (below : number.value < 1) : number.value ≤ 1 - 1 / 2 ^ 53 := by
  obtain ⟨value, mantissa, exponent, small, lowest, rfl⟩ := number
  have cleared : mantissa * (2 : ℚ) ^ exponent * 2 ^ 53 = mantissa * 2 ^ (exponent + 53) := by
    rw [zpow_add₀ two_ne_zero, mul_assoc]
    norm_num
  have scaled : mantissa * (2 : ℚ) ^ exponent * 2 ^ 53 ≤ 2 ^ 53 - 1 := by
    rw [cleared]
    rcases le_or_gt 0 (exponent + 53) with fine | coarse
    · -- Both sides are integers.
      obtain ⟨shift, shifted⟩ := Int.eq_ofNat_of_zero_le fine
      have less : mantissa * (2 : ℚ) ^ (exponent + 53) < 2 ^ 53 := by
        rw [← cleared]
        linarith
      rw [shifted, zpow_natCast] at less ⊢
      have integers : mantissa * 2 ^ shift ≤ 2 ^ 53 - 1 := Int.le_sub_one_of_lt (by exact_mod_cast less)
      exact_mod_cast integers
    · have power : (2 : ℚ) ^ (exponent + 53) ≤ 1 := zpow_le_one_of_nonpos₀ one_le_two coarse.le
      have bounded : |(mantissa : ℚ)| ≤ 2 ^ 53 - 1 := by exact_mod_cast Int.le_sub_one_of_lt small
      calc mantissa * (2 : ℚ) ^ (exponent + 53) ≤ |(mantissa : ℚ)| * 2 ^ (exponent + 53) :=
            mul_le_mul_of_nonneg_right (le_abs_self _) (zpow_nonneg two_pos.le _)
        _ ≤ |(mantissa : ℚ)| * 1 := mul_le_mul_of_nonneg_left power (abs_nonneg _)
        _ ≤ 2 ^ 53 - 1 := by rwa [mul_one]
  linarith

end Binary64

/-- The distance between neighbours is small against a number from one on above them. -/
theorem quantum_lt_of_lt {number bound : ℚ} (positive : 0 < number) (one_le : 1 ≤ bound) (less : number < bound) :
    quantum number < bound / 2 ^ 52 := by
  rw [lt_div_iff₀ (by norm_num)]
  rcases le_or_gt (quantumExponent number) (-1074) with lowest | normal
  · calc quantum number * 2 ^ 52 ≤ 2 ^ (-1074 : ℤ) * 2 ^ (52 : ℤ) :=
          mul_le_mul_of_nonneg_right (zpow_le_zpow_right₀ one_le_two lowest) (by norm_num)
      _ = 2 ^ (-1022 : ℤ) := (zpow_add₀ two_ne_zero _ _).symm
      _ < 1 := zpow_lt_one_of_neg₀ one_lt_two (by norm_num)
      _ ≤ bound := one_le
  · have leading := quantum_le_of_normal positive normal
    calc quantum number * 2 ^ 52 = 2 ^ (52 : ℤ) * quantum number := mul_comm _ _
      _ ≤ number := leading
      _ < bound := less

theorem toBinary64_mul_lt {bound : ℚ} (one_le : 1 ≤ bound) {factor : Binary64} (positive : 0 < factor.value)
    (below : factor.value < 1) : toBinary64 (bound * factor.value) < bound := by
  have boundPositive : 0 < bound := one_pos.trans_le one_le
  have product : bound * factor.value ≤ bound - bound / 2 ^ 53 := by
    calc bound * factor.value ≤ bound * (1 - 1 / 2 ^ 53) :=
          mul_le_mul_of_nonneg_left (factor.value_le_of_lt_one below) boundPositive.le
      _ = bound - bound / 2 ^ 53 := by ring
  have less : bound * factor.value < bound := by
    have gap : 0 < bound / 2 ^ 53 := by positivity
    linarith
  have close := quantum_lt_of_lt (mul_pos boundPositive positive) one_le less
  have rounded := toBinary64_le_add (bound * factor.value)
  linarith

theorem toBinary64_toBinary64_mul_lt {bound : ℚ} (one_le : 1 ≤ bound) {factor : Binary64} (positive : 0 < factor.value)
    (below : factor.value < 1) : toBinary64 (toBinary64 bound * factor.value) < bound := by
  have rounded : 1 ≤ toBinary64 bound := by
    have ordered := toBinary64_mono one_pos.le one_le
    rwa [toBinary64_of_isBinary64 Binary64.representable_one] at ordered
  have nonneg : 0 ≤ toBinary64 bound * factor.value := mul_nonneg (one_pos.le.trans rounded) positive.le
  by_contra reached
  have monotone := toBinary64_mono (one_pos.le.trans one_le) (not_lt.mp reached)
  rw [toBinary64_of_isBinary64 (isBinary64_toBinary64 nonneg)] at monotone
  exact absurd (toBinary64_mul_lt rounded positive below) (not_lt.mpr monotone)

end PhysicalAiStudio.Numeric
