import Mathlib.Algebra.BigOperators.Group.List.Basic
import Mathlib.Algebra.BigOperators.Ring.List
import Mathlib.Algebra.Order.BigOperators.Group.List
import Mathlib.Algebra.Order.Field.Basic
import Mathlib.Data.List.Perm.Basic
import Mathlib.Tactic.Ring

/-! The mean and the variance of a measure over all items of a list.

Neither depends on the order of the items. A mean that stays the same whichever items are left out
is the mean of a constant.
-/

set_option autoImplicit false

namespace PhysicalAiStudio.Numeric

variable {K α : Type} [Field K]

def mean (measure : α → K) (items : List α) : K :=
  (items.map measure).sum / items.length

def variance (measure : α → K) (items : List α) : K :=
  mean (fun item => (measure item - mean measure items) ^ 2) items

theorem mean_perm {first second : List α} (same : first.Perm second) (measure : α → K) :
    mean measure first = mean measure second := by
  unfold mean
  rw [(same.map measure).sum_eq, same.length_eq]

theorem variance_perm {first second : List α} (same : first.Perm second) (measure : α → K) :
    variance measure first = variance measure second := by
  unfold variance
  rw [mean_perm same measure, mean_perm same]

theorem sum_of_constant {measure : α → K} {items : List α} {value : K}
    (constant : ∀ item ∈ items, measure item = value) : (items.map measure).sum = items.length * value := by
  induction items with
  | nil => simp
  | cons first rest ih =>
      rw [List.map_cons, List.sum_cons, constant first (by simp),
        ih (fun item member => constant item (by simp [member])), List.length_cons]
      push_cast
      ring

theorem exists_first {items : List α} {item : α} (member : item ∈ items) :
    ∃ others, (item :: others).Perm items := by
  obtain ⟨before, after, split⟩ := List.append_of_mem member
  exact ⟨before ++ after, by rw [split]; exact List.perm_middle.symm⟩

theorem exists_two_first {items : List α} {first second : α} (different : first ≠ second)
    (firstIn : first ∈ items) (secondIn : second ∈ items) :
    ∃ others, (first :: second :: others).Perm items := by
  obtain ⟨rest, split⟩ := exists_first firstIn
  have inRest : second ∈ rest := by
    rcases List.mem_cons.mp (split.mem_iff.mpr secondIn) with same | member
    · exact absurd same.symm different
    · exact member
  obtain ⟨others, splitRest⟩ := exists_first inRest
  exact ⟨others, (splitRest.cons first).trans split⟩

section Ordered
variable [LinearOrder K] [IsStrictOrderedRing K]

theorem length_cast_ne_zero {items : List α} (nonempty : items ≠ []) : (items.length : K) ≠ 0 :=
  Nat.cast_ne_zero.mpr (List.length_pos_iff.mpr nonempty).ne'

theorem mean_of_constant {measure : α → K} {items : List α} {value : K} (nonempty : items ≠ [])
    (constant : ∀ item ∈ items, measure item = value) : mean measure items = value := by
  unfold mean
  rw [sum_of_constant constant, mul_div_cancel_left₀ value (length_cast_ne_zero nonempty)]

theorem variance_of_constant {measure : α → K} {items : List α} {value : K} (nonempty : items ≠ [])
    (constant : ∀ item ∈ items, measure item = value) : variance measure items = 0 := by
  unfold variance
  rw [mean_of_constant nonempty constant]
  apply mean_of_constant nonempty
  intro item member
  rw [constant item member, sub_self, zero_pow two_ne_zero]

theorem variance_nonneg (measure : α → K) (items : List α) : 0 ≤ variance measure items := by
  unfold variance mean
  apply div_nonneg
  · apply List.sum_nonneg
    intro square member
    obtain ⟨item, -, same⟩ := List.mem_map.mp member
    rw [← same]
    exact sq_nonneg _
  · exact Nat.cast_nonneg _

omit [LinearOrder K] [IsStrictOrderedRing K] in
theorem sum_squared_deviation (measure : α → K) (centre : K) (items : List α) :
    (items.map fun item => (measure item - centre) ^ 2).sum =
      (items.map fun item => measure item * measure item).sum - 2 * centre * (items.map measure).sum +
        items.length * centre ^ 2 := by
  induction items with
  | nil => simp
  | cons first rest ih =>
      simp only [List.map_cons, List.sum_cons, List.length_cons, ih]
      push_cast
      ring

/-- The form of one pass: the mean of the squares less the square of the mean. -/
theorem variance_eq {items : List α} (nonempty : items ≠ []) (measure : α → K) :
    variance measure items =
      mean (fun item => measure item * measure item) items - mean measure items * mean measure items := by
  have count := length_cast_ne_zero (K := K) nonempty
  have total : (items.map measure).sum = items.length * mean measure items := by
    unfold mean
    rw [mul_div_cancel₀ _ count]
  have squares : (items.map fun item => (measure item - mean measure items) ^ 2).sum =
      (items.map fun item => measure item * measure item).sum -
        items.length * (mean measure items * mean measure items) := by
    rw [sum_squared_deviation, total]
    ring
  unfold variance
  rw [mean, squares, sub_div, mul_div_cancel_left₀ _ count]
  rfl

/-- If the mean of so many items is always that of all of them, whichever are taken, then the measure is
constant: exchanging one item that is taken with one that is not leaves the mean alone. -/
theorem constant_of_means {measure : α → K} {items : List α} {count : Nat} (taken : 0 < count)
    (left : count < items.length)
    (means : ∀ order : List α, order.Perm items → mean measure (order.take count) = mean measure items)
    {first second : α} (firstIn : first ∈ items) (secondIn : second ∈ items) :
    measure first = measure second := by
  by_cases same : first = second
  · rw [same]
  classical
  obtain ⟨others, split⟩ := exists_two_first same firstIn secondIn
  obtain ⟨before, enough⟩ : ∃ before, before + 1 = count := ⟨count - 1, by omega⟩
  have size : before ≤ others.length := by
    have lengths := split.length_eq
    simp only [List.length_cons] at lengths
    omega
  -- Two orders that differ in the first item alone have the same mean of what is taken.
  have sums : ∀ head other, (head :: other :: others).Perm items →
      (measure head + ((others.take before).map measure).sum) / count = mean measure items := by
    intro head other arranged
    have moved : (head :: (others.take before ++ other :: others.drop before)).Perm items := by
      refine List.Perm.trans ?_ arranged
      apply List.Perm.cons
      refine List.perm_middle.trans ?_
      rw [List.take_append_drop]
    have meanOfTaken := means _ moved
    rw [← enough, List.take_succ_cons, List.take_left' (List.length_take_of_le size)] at meanOfTaken
    unfold mean at meanOfTaken ⊢
    rw [List.map_cons, List.sum_cons, List.length_cons, List.length_take_of_le size, enough] at meanOfTaken
    exact meanOfTaken
  have firsts := sums first second split
  have seconds := sums second first ((List.Perm.swap first second others).trans split)
  have nonzero : (count : K) ≠ 0 := Nat.cast_ne_zero.mpr taken.ne'
  exact add_right_cancel ((div_left_inj' nonzero).mp (firsts.trans seconds.symm))

end Ordered

end PhysicalAiStudio.Numeric
