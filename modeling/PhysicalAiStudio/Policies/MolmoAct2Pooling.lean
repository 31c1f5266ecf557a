import PhysicalAiStudio.Policies.MolmoAct2Inputs
import Mathlib.Tactic.Ring

/-! The pooling of an image covers each of its patches once, and no pooled token is empty. -/

set_option autoImplicit false

namespace PhysicalAiStudio.Policies.MolmoAct2

/-! ### One axis -/

structure PaddedAxis (pool patch pooled : Nat) : Prop where
  reaches : patch ≤ pooled * pool
  tight : pooled * pool < patch + pool

theorem paddedAxis {pool : Nat} (positive : 0 < pool) (patch : Nat) :
    PaddedAxis pool patch ((patch + pool - 1) / pool) := by
  have split := Nat.div_add_mod (patch + pool - 1) pool
  have rest := Nat.mod_lt (patch + pool - 1) positive
  rw [Nat.mul_comm] at split
  constructor <;> omega

theorem PaddedAxis.inhabited {pool patch pooled : Nat} (axis : PaddedAxis pool patch pooled) {position : Nat}
    (inside : position < pooled) :
    ∃ i < pool, (pooled * pool - patch) / 2 ≤ position * pool + i ∧
      position * pool + i - (pooled * pool - patch) / 2 < patch := by
  have reaches := axis.reaches
  have tight := axis.tight
  have last : position * pool + pool ≤ pooled * pool := by
    calc position * pool + pool = (position + 1) * pool := by ring
      _ ≤ pooled * pool := Nat.mul_le_mul_right pool inside
  by_cases before : position * pool < (pooled * pool - patch) / 2
  · -- The padding in front is shorter than a pool.
    refine ⟨(pooled * pool - patch) / 2 - position * pool, by omega, by omega, by omega⟩
  · exact ⟨0, by omega, by omega, by omega⟩

/-- A place on a padded axis is in one pooled token, at one place of it. -/
theorem position_iff {pool position i place : Nat} (inside : i < pool) :
    position * pool + i = place ↔ position = place / pool ∧ i = place % pool := by
  constructor
  · intro same
    rw [← same, Nat.mul_comm]
    constructor
    · rw [Nat.mul_add_div (by omega), Nat.div_eq_of_lt inside, Nat.add_zero]
    · rw [Nat.mul_add_mod, Nat.mod_eq_of_lt inside]
  · rintro ⟨rfl, rfl⟩
    rw [Nat.mul_comm]
    exact Nat.div_add_mod place pool

/-! ### The grid -/

theorem paddedIndex_eq_iff {patchH patchW top left row column index : Nat} (inside : index < patchH * patchW) :
    paddedIndex patchH patchW top left row column = (index : Int) ↔
      row = top + index / patchW ∧ column = left + index % patchW := by
  have positive : 0 < patchW := Nat.pos_of_ne_zero fun zero => by simp [zero] at inside
  have rows : index / patchW < patchH := Nat.div_lt_of_lt_mul (by rw [Nat.mul_comm]; exact inside)
  have columns := Nat.mod_lt index positive
  have split := Nat.div_add_mod index patchW
  unfold paddedIndex
  constructor
  · intro same
    split at same
    · next within =>
      have place : (row - top) * patchW + (column - left) = index := by exact_mod_cast same
      obtain ⟨rowSame, columnSame⟩ := (position_iff within.2.2.2).mp place
      rw [← rowSame, ← columnSame]
      omega
    · omega
  · rintro ⟨rfl, rfl⟩
    have within : top ≤ top + index / patchW ∧ top + index / patchW - top < patchH ∧
        left ≤ left + index % patchW ∧ left + index % patchW - left < patchW := by
      rw [Nat.add_sub_cancel_left, Nat.add_sub_cancel_left]
      exact ⟨Nat.le_add_right _ _, rows, Nat.le_add_right _ _, columns⟩
    rw [if_pos within, Nat.add_sub_cancel_left, Nat.add_sub_cancel_left, Nat.mul_comm, split]

theorem paddedIndex_bounds (patchH patchW top left row column : Nat) :
    paddedIndex patchH patchW top left row column = -1 ∨
      (0 ≤ paddedIndex patchH patchW top left row column ∧
        paddedIndex patchH patchW top left row column < (patchH * patchW : Nat)) := by
  unfold paddedIndex
  split
  · next within =>
    refine Or.inr ⟨Int.natCast_nonneg _, ?_⟩
    have rows : (row - top + 1) * patchW ≤ patchH * patchW := Nat.mul_le_mul_right patchW within.2.1
    have small : (row - top) * patchW + (column - left) < patchH * patchW := by
      calc (row - top) * patchW + (column - left) < (row - top) * patchW + patchW :=
            Nat.add_lt_add_left within.2.2.2 _
        _ = (row - top + 1) * patchW := by ring
        _ ≤ patchH * patchW := rows
    exact_mod_cast small
  · exact Or.inl rfl

theorem count_flatMap_single {n place : Nat} (inside : place < n) (part : Nat → List Int) {value : Int}
    (others : ∀ position < n, position ≠ place → value ∉ part position) :
    ((List.range n).flatMap part).count value = (part place).count value := by
  induction n with
  | zero => omega
  | succ n ih =>
    rw [List.range_succ, List.flatMap_append, List.count_append, List.flatMap_singleton]
    by_cases last : place = n
    · subst last
      have absent : value ∉ (List.range place).flatMap part := by
        intro member
        obtain ⟨position, inRange, inPart⟩ := List.mem_flatMap.mp member
        have before := List.mem_range.mp inRange
        exact others position (by omega) (by omega) inPart
      rw [List.count_eq_zero_of_not_mem absent, Nat.zero_add]
    · have absent := others n (by omega) (by omega)
      rw [List.count_eq_zero_of_not_mem absent, Nat.add_zero]
      exact ih (by omega) fun position before differs => others position (by omega) differs

theorem count_map_single {n place : Nat} (inside : place < n) (entry : Nat → Int) {value : Int}
    (here : entry place = value) (others : ∀ position < n, position ≠ place → entry position ≠ value) :
    ((List.range n).map entry).count value = 1 := by
  rw [List.map_eq_flatMap, count_flatMap_single inside]
  · rw [here, List.count_singleton_self]
  · intro position before differs member
    exact others position before differs (List.mem_singleton.mp member).symm

/-- What the image processor promises of its pooling. -/
structure Pooled (pooling : List (List Int)) (rows patches : Nat) : Prop where
  length : pooling.length = rows
  bounds : ∀ row ∈ pooling, ∀ index ∈ row, index = -1 ∨ (0 ≤ index ∧ index < (patches : Nat))
  inhabited : ∀ row ∈ pooling, ∃ index ∈ row, 0 ≤ index
  once : ∀ index < patches, pooling.flatten.count (index : Int) = 1

theorem poolingIndices_pooled {poolH poolW : Nat} (tall : 0 < poolH) (wide : 0 < poolW) (patchH patchW : Nat) :
    Pooled (poolingIndices poolH poolW patchH patchW).1
      ((poolingIndices poolH poolW patchH patchW).2.1 * (poolingIndices poolH poolW patchH patchW).2.2)
      (patchH * patchW) := by
  have rows := paddedAxis tall patchH
  have columns := paddedAxis wide patchW
  unfold poolingIndices
  simp only
  generalize (patchH + poolH - 1) / poolH = pooledH at rows
  generalize (patchW + poolW - 1) / poolW = pooledW at columns
  constructor
  · simp [List.length_flatMap]
  · intro row member index inRow
    simp only [List.mem_flatMap, List.mem_map, List.mem_range] at member
    obtain ⟨r, _, c, _, rfl⟩ := member
    simp only [List.mem_flatMap, List.mem_map, List.mem_range] at inRow
    obtain ⟨i, _, j, _, rfl⟩ := inRow
    exact paddedIndex_bounds _ _ _ _ _ _
  · intro row member
    simp only [List.mem_flatMap, List.mem_map, List.mem_range] at member
    obtain ⟨r, inRows, c, inColumns, rfl⟩ := member
    obtain ⟨i, inPoolH, fromTop, beforeBottom⟩ := rows.inhabited inRows
    obtain ⟨j, inPoolW, fromLeft, beforeRight⟩ := columns.inhabited inColumns
    refine ⟨paddedIndex patchH patchW ((pooledH * poolH - patchH) / 2) ((pooledW * poolW - patchW) / 2)
      (r * poolH + i) (c * poolW + j), ?_, ?_⟩
    · simp only [List.mem_flatMap, List.mem_map, List.mem_range]
      exact ⟨i, inPoolH, j, inPoolW, rfl⟩
    · unfold paddedIndex
      rw [if_pos ⟨fromTop, beforeBottom, fromLeft, beforeRight⟩]
      exact Int.natCast_nonneg _
  · intro index inside
    have positive : 0 < patchW := Nat.pos_of_ne_zero fun zero => by simp [zero] at inside
    have inColumns := Nat.mod_lt index positive
    have inRows : index / patchW < patchH := Nat.div_lt_of_lt_mul (by rw [Nat.mul_comm]; exact inside)
    -- The patch is at one place of the padded grid, and that place is at one place of one pooled token.
    generalize placeRow : (pooledH * poolH - patchH) / 2 + index / patchW = row
    generalize placeColumn : (pooledW * poolW - patchW) / 2 + index % patchW = column
    have found : ∀ r < pooledH, ∀ c < pooledW, ∀ i < poolH, ∀ j < poolW,
        paddedIndex patchH patchW ((pooledH * poolH - patchH) / 2) ((pooledW * poolW - patchW) / 2)
          (r * poolH + i) (c * poolW + j) = (index : Int) ↔
            (r = row / poolH ∧ i = row % poolH) ∧ (c = column / poolW ∧ j = column % poolW) := by
      intro r _ c _ i inI j inJ
      rw [paddedIndex_eq_iff inside, placeRow, placeColumn, position_iff inI, position_iff inJ]
    have rowBound := rows.reaches
    have columnBound := columns.reaches
    have tokenRow : row / poolH < pooledH := Nat.div_lt_of_lt_mul (by rw [Nat.mul_comm]; omega)
    have tokenColumn : column / poolW < pooledW := Nat.div_lt_of_lt_mul (by rw [Nat.mul_comm]; omega)
    have inH := Nat.mod_lt row tall
    have inW := Nat.mod_lt column wide
    rw [List.flatten_eq_flatMap, List.flatMap_assoc]
    simp only [List.flatMap_map, id]
    rw [count_flatMap_single tokenRow, count_flatMap_single tokenColumn, count_flatMap_single inH]
    · apply count_map_single inW
      · exact (found _ tokenRow _ tokenColumn _ inH _ inW).mpr ⟨⟨rfl, rfl⟩, rfl, rfl⟩
      · intro j inJ differs same
        exact differs ((found _ tokenRow _ tokenColumn _ inH j inJ).mp same).2.2
    · intro i inI differs member
      obtain ⟨j, inJ, same⟩ := List.mem_map.mp member
      exact differs ((found _ tokenRow _ tokenColumn i inI j (List.mem_range.mp inJ)).mp same).1.2
    · intro c inC differs member
      obtain ⟨i, inI, inner⟩ := List.mem_flatMap.mp member
      obtain ⟨j, inJ, same⟩ := List.mem_map.mp inner
      exact differs ((found _ tokenRow c inC i (List.mem_range.mp inI) j (List.mem_range.mp inJ)).mp same).2.1
    · intro r inR differs member
      obtain ⟨c, inC, block⟩ := List.mem_flatMap.mp member
      obtain ⟨i, inI, inner⟩ := List.mem_flatMap.mp block
      obtain ⟨j, inJ, same⟩ := List.mem_map.mp inner
      exact differs ((found r inR c (List.mem_range.mp inC) i (List.mem_range.mp inI) j (List.mem_range.mp inJ)).mp
        same).1.1

end PhysicalAiStudio.Policies.MolmoAct2
