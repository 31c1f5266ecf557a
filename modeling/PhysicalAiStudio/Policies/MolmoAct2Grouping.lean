import PhysicalAiStudio.Policies.MolmoAct2Pooling

/-! Every example gets the crops and the pooling rows of its own images. -/

set_option autoImplicit false

namespace PhysicalAiStudio.Policies.MolmoAct2

variable {Pixels Crop : Type} {layout : InputLayout} {padTokenId : Int}

/-! ### Tokens -/

def ImageGrid.single (rows columns : Nat) : ImageGrid := ⟨rows, columns, 0, 0⟩

def placeholders (layout : InputLayout) (prompt : Prompt) : Nat :=
  prompt.valid.count layout.imagePlaceholderTokenId

def literals (layout : InputLayout) (prompt : Prompt) : List Int :=
  prompt.valid.filter (· ≠ layout.imagePlaceholderTokenId)

def standsFor (layout : InputLayout) (grid : ImageGrid) (token : Int) : List Int :=
  if token = layout.imagePlaceholderTokenId then imageTokenIdsForGrid layout grid else [token]

theorem expandTokens_eq {grid : ImageGrid} {tokens expanded : List Int} {grids left : List ImageGrid}
    (each : ∀ other ∈ grids, other = grid) (done : expandTokens layout tokens grids = .ok (expanded, left)) :
    expanded = tokens.flatMap (standsFor layout grid) ∧ ∀ other ∈ left, other ∈ grids := by
  induction tokens generalizing grids left expanded with
  | nil =>
    cases done
    simp
  | cons first tokens ih =>
    rw [List.flatMap_cons]
    unfold expandTokens at done
    unfold standsFor
    split at done
    · next placeholder =>
      rw [if_pos placeholder]
      split at done
      · cases done
      · next here grids =>
        cases rest : expandTokens layout tokens grids with
        | error raised => simp only [rest, bind, Except.bind, reduceCtorEq] at done
        | ok result =>
          simp only [rest, bind, Except.bind, pure, Except.pure] at done
          cases done
          obtain ⟨same, among⟩ := ih (fun other member => each other (List.mem_cons_of_mem here member)) rest
          refine ⟨?_, fun other member => List.mem_cons_of_mem here (among other member)⟩
          rw [each here List.mem_cons_self, same]
          rfl
    · next plain =>
      rw [if_neg plain]
      cases rest : expandTokens layout tokens grids with
      | error raised => simp only [rest, bind, Except.bind, reduceCtorEq] at done
      | ok result =>
        simp only [rest, bind, Except.bind, pure, Except.pure] at done
        cases done
        obtain ⟨same, among⟩ := ih each rest
        refine ⟨?_, among⟩
        rw [same]
        rfl

theorem expandRows_eq {grid : ImageGrid} {prompts : List Prompt} {grids : List ImageGrid} {rows : List (List Int)}
    (each : ∀ other ∈ grids, other = grid) (done : expandRows layout prompts grids = .ok rows) :
    rows = prompts.map fun prompt => prompt.valid.flatMap (standsFor layout grid) := by
  induction prompts generalizing grids rows with
  | nil =>
    cases done
    rfl
  | cons prompt prompts ih =>
    unfold expandRows at done
    cases first : expandTokens layout prompt.valid grids with
    | error raised => simp only [first, bind, Except.bind, reduceCtorEq] at done
    | ok result =>
      obtain ⟨expanded, left⟩ := result
      cases rest : expandRows layout prompts left with
      | error raised => simp only [first, rest, bind, Except.bind, reduceCtorEq] at done
      | ok others =>
        simp only [first, rest, bind, Except.bind, pure, Except.pure] at done
        cases done
        obtain ⟨same, among⟩ := expandTokens_eq each first
        rw [List.map_cons, same, ih (fun other member => each other (among other member)) rest]

/-- A row holds the tokens of its prompt and those of one grid for each placeholder. -/
theorem countP_standsFor (grid : ImageGrid) (counted : Int → Bool) (tokens : List Int) :
    (tokens.flatMap (standsFor layout grid)).countP counted =
      (tokens.filter (· ≠ layout.imagePlaceholderTokenId)).countP counted +
        tokens.count layout.imagePlaceholderTokenId * (imageTokenIdsForGrid layout grid).countP counted := by
  induction tokens with
  | nil => simp
  | cons first tokens ih =>
    rw [List.flatMap_cons, List.countP_append, ih]
    unfold standsFor
    by_cases placeholder : first = layout.imagePlaceholderTokenId
    · rw [if_pos placeholder, List.filter_cons_of_neg (by simp [placeholder]), placeholder, List.count_cons_self]
      ring
    · rw [if_neg placeholder, List.filter_cons_of_pos (by simp [placeholder]), List.count_cons_of_ne placeholder]
      simp only [List.countP_cons, List.countP_nil]
      ring

def rowLength (layout : InputLayout) (grid : ImageGrid) (prompt : Prompt) : Nat :=
  (literals layout prompt).length + placeholders layout prompt * (imageTokenIdsForGrid layout grid).length

/-- How long all rows are, with the padding that the longest needs. -/
def rowWidth (layout : InputLayout) (grid : ImageGrid) (prompts : List Prompt) : Nat :=
  ((prompts.map fun prompt => rowLength layout grid prompt + (prompt.filter (!·.2)).length).max?).getD 1

def occurrences (layout : InputLayout) (padTokenId : Int) (grid : ImageGrid) (prompts : List Prompt) (token : Int)
    (prompt : Prompt) : Nat :=
  (literals layout prompt).count token +
    placeholders layout prompt * (imageTokenIdsForGrid layout grid).count token +
    if padTokenId = token then rowWidth layout grid prompts - rowLength layout grid prompt else 0

theorem length_standsFor (grid : ImageGrid) (prompt : Prompt) :
    (prompt.valid.flatMap (standsFor layout grid)).length = rowLength layout grid prompt := by
  have all : ∀ tokens : List Int, tokens.countP (fun _ => true) = tokens.length := by
    intro tokens
    exact List.countP_eq_length.mpr fun _ _ => rfl
  rw [← all, countP_standsFor, all, all]
  rfl

theorem outputWidth_eq (grid : ImageGrid) (prompts : List Prompt) :
    outputWidth prompts (prompts.map fun prompt => prompt.valid.flatMap (standsFor layout grid)) =
      rowWidth layout grid prompts := by
  unfold outputWidth rowWidth
  rw [List.zipWith_map_right, List.zipWith_self]
  simp only [length_standsFor]

theorem count_padRow (grid : ImageGrid) (prompts : List Prompt) (token : Int) (prompt : Prompt) :
    (padRow padTokenId (rowWidth layout grid prompts) (prompt.valid.flatMap (standsFor layout grid))).count token =
      occurrences layout padTokenId grid prompts token prompt := by
  unfold padRow occurrences
  rw [List.count_append, length_standsFor, List.count_replicate, List.count, countP_standsFor]
  simp only [beq_iff_eq]
  rfl

/-! Where the special tokens and the padding have ids of their own, a token is in a row as often as the prompt and
the images of its placeholders have it. -/

structure InputLayout.Distinct (layout : InputLayout) (padTokenId : Int) : Prop where
  startPatch : layout.imageStartTokenId ≠ layout.imagePatchId
  endPatch : layout.imageEndTokenId ≠ layout.imagePatchId
  colPatch : layout.imageColId ≠ some layout.imagePatchId
  startEnd : layout.imageStartTokenId ≠ layout.imageEndTokenId
  colEnd : layout.imageColId ≠ some layout.imageEndTokenId
  padPatch : padTokenId ≠ layout.imagePatchId
  padEnd : padTokenId ≠ layout.imageEndTokenId

theorem count_gridRows (rowCount columnCount : Nat) (useCol : Bool) {token : Int}
    (col : layout.imageColId ≠ some token) :
    (gridRows layout rowCount columnCount useCol).count token =
      if layout.imagePatchId = token then rowCount * columnCount else 0 := by
  have row : (List.replicate columnCount layout.imagePatchId ++
      (if useCol then layout.imageColId.toList else [])).count token =
        if layout.imagePatchId = token then columnCount else 0 := by
    have none : (if useCol then layout.imageColId.toList else []).count token = 0 := by
      apply List.count_eq_zero_of_not_mem
      cases useCol with
      | false => exact List.not_mem_nil
      | true =>
        intro member
        exact col (Option.mem_toList.mp member)
    rw [List.count_append, none, List.count_replicate, Nat.add_zero]
    simp
  unfold gridRows
  rw [List.count_flatten, List.map_replicate, row, List.sum_replicate_nat]
  split <;> simp

theorem occurrences_patch (distinct : layout.Distinct padTokenId) (rows columns : Nat) (prompts : List Prompt)
    (prompt : Prompt) :
    occurrences layout padTokenId (.single rows columns) prompts layout.imagePatchId prompt =
      (literals layout prompt).count layout.imagePatchId + placeholders layout prompt * (rows * columns) := by
  have grid : (imageTokenIdsForGrid layout (.single rows columns)).count layout.imagePatchId = rows * columns := by
    unfold imageTokenIdsForGrid ImageGrid.single
    rw [if_pos (Or.inl rfl), List.count_append, List.count_append, count_gridRows _ _ _ distinct.colPatch]
    simp [distinct.startPatch, distinct.endPatch]
  unfold occurrences
  rw [grid, if_neg distinct.padPatch, Nat.add_zero]

theorem occurrences_end (distinct : layout.Distinct padTokenId) (rows columns : Nat) (prompts : List Prompt)
    (prompt : Prompt) :
    occurrences layout padTokenId (.single rows columns) prompts layout.imageEndTokenId prompt =
      (literals layout prompt).count layout.imageEndTokenId + placeholders layout prompt := by
  have grid : (imageTokenIdsForGrid layout (.single rows columns)).count layout.imageEndTokenId = 1 := by
    unfold imageTokenIdsForGrid ImageGrid.single
    rw [if_pos (Or.inl rfl), List.count_append, List.count_append, count_gridRows _ _ _ distinct.colEnd,
      if_neg distinct.endPatch.symm]
    simp [distinct.startEnd]
  unfold occurrences
  rw [grid, if_neg distinct.padEnd, Nat.add_zero, Nat.mul_one]

/-! ### Shares -/

theorem length_repeat (start : Nat) (counts : List Nat) :
    ((counts.zipIdx start).flatMap fun entry => List.replicate entry.1 entry.2).length = counts.sum := by
  induction counts generalizing start with
  | nil => rfl
  | cons count counts ih => rw [List.zipIdx_cons, List.flatMap_cons, List.length_append, ih]; simp

theorem count_repeat_below {start position : Nat} (below : position < start) (counts : List Nat) :
    ((counts.zipIdx start).flatMap fun entry => List.replicate entry.1 entry.2).count position = 0 := by
  induction counts generalizing start with
  | nil => rfl
  | cons count counts ih =>
    rw [List.zipIdx_cons, List.flatMap_cons, List.count_append, ih (by omega), List.count_replicate,
      if_neg (by simp only [beq_iff_eq]; omega)]

theorem count_repeat (start position : Nat) (counts : List Nat) :
    ((counts.zipIdx start).flatMap fun entry => List.replicate entry.1 entry.2).count (start + position) =
      counts.getD position 0 := by
  induction counts generalizing start position with
  | nil => simp
  | cons count counts ih =>
    rw [List.zipIdx_cons, List.flatMap_cons, List.count_append, List.count_replicate]
    cases position with
    | zero => rw [count_repeat_below (by omega)]; simp
    | succ position =>
      rw [if_neg (by simp only [beq_iff_eq]; omega), show start + (position + 1) = start + 1 + position by omega, ih]
      simp

theorem sum_indexed (position value : Nat) (index : List Nat) :
    (((index.zip (List.replicate index.length value)).filter fun entry => entry.1 = position).map Prod.snd).sum =
      index.count position * value := by
  induction index with
  | nil => simp
  | cons first index ih =>
    rw [List.length_cons, List.replicate_succ, List.zip_cons_cons]
    by_cases same : first = position
    · rw [List.filter_cons_of_pos (by simp [same]), List.map_cons, List.sum_cons, ih, same, List.count_cons_self]
      ring
    · rw [List.filter_cons_of_neg (by simp [same]), ih, List.count_cons_of_ne same]

/-- Where every image has the same number, an example has that number for each of its images. -/
theorem indexAdd_replicate {counts sizes : List Nat} {images value : Nat}
    (done : indexAdd counts.length (repeatInterleave counts) (List.replicate images value) = .ok sizes) :
    counts.sum = images ∧ sizes = counts.map (· * value) := by
  unfold indexAdd at done
  split at done
  · cases done
  · next lengths =>
    have total : counts.sum = images := by
      have same := not_not.mp lengths
      unfold repeatInterleave at same
      rwa [length_repeat, List.length_replicate] at same
    refine ⟨total, ?_⟩
    cases done
    have length : images = (repeatInterleave counts).length := by
      unfold repeatInterleave
      rw [length_repeat, total]
    apply List.ext_getElem
    · simp
    · intro position _ inside
      rw [List.length_map] at inside
      rw [List.getElem_map, List.getElem_range, List.getElem_map, length, sum_indexed]
      unfold repeatInterleave
      have counted := count_repeat 0 position counts
      rw [Nat.zero_add] at counted
      rw [counted, List.getD_eq_getElem?_getD, List.getElem?_eq_getElem inside, Option.getD_some]

/-- A list cut into pieces of given lengths. -/
def cut {α : Type} : List Nat → List α → List (List α)
  | [], _ => []
  | count :: counts, values => values.take count :: cut counts (values.drop count)

def imageRows (pooling : List (List Int)) (patches count : Nat) : List (List Int) :=
  (List.range count).flatMap fun image => pooling.map (List.map (rebase (image * patches)))

theorem rebasePoolingBlock_eq {pooling : List (List Int)} {rows patches : Nat} (length : pooling.length = rows)
    (offset count : Nat) :
    rebasePoolingBlock offset (List.replicate count (rows, patches)) (List.replicate count pooling).flatten =
      (List.range count).flatMap fun image => pooling.map (List.map (rebase (offset + image * patches))) := by
  induction count generalizing offset with
  | zero => rfl
  | succ count ih =>
    rw [List.replicate_succ, List.replicate_succ, List.flatten_cons]
    unfold rebasePoolingBlock
    rw [List.take_left' length, List.drop_left' length, ih, List.range_succ_eq_map, List.flatMap_cons, List.flatMap_map]
    congr 1
    · simp
    · congr 1
      funext image
      rw [show offset + patches + image * patches = offset + Nat.succ image * patches by rw [Nat.succ_mul]; omega]

theorem take_flatten_replicate {pooling : List (List Int)} {rows : Nat} (length : pooling.length = rows)
    {count total : Nat} (inside : count ≤ total) :
    (List.replicate total pooling).flatten.take (count * rows) = (List.replicate count pooling).flatten ∧
      (List.replicate total pooling).flatten.drop (count * rows) = (List.replicate (total - count) pooling).flatten := by
  have parts : (List.replicate total pooling).flatten =
      (List.replicate count pooling).flatten ++ (List.replicate (total - count) pooling).flatten := by
    rw [← List.flatten_append, List.replicate_append_replicate, Nat.add_sub_cancel' inside]
  have front : (List.replicate count pooling).flatten.length = count * rows := by
    rw [List.length_flatten, List.map_replicate, List.sum_replicate_nat, length]
  rw [parts]
  exact ⟨List.take_left' front, List.drop_left' front⟩

theorem groupExamples_eq {pooling : List (List Int)} {rows : Nat} (length : pooling.length = rows)
    (cropWidth pooledWidth poolLength patches : Nat) (counts : List Nat) (crops : List Crop)
    (enough : counts.sum ≤ crops.length) :
    groupExamples cropWidth pooledWidth poolLength (counts.map fun count => ⟨count, count, count * rows⟩)
        { pixelValues := crops, pooling := (List.replicate crops.length pooling).flatten,
          pooledPerImage := List.replicate crops.length rows, patchesPerImage := List.replicate crops.length patches } =
      .ok ((cut counts crops).map fun own =>
        (own.map some ++ List.replicate (cropWidth - own.length) none,
          imageRows pooling patches own.length ++
            List.replicate (pooledWidth - own.length * rows) (List.replicate poolLength (-1)))) := by
  induction counts generalizing crops with
  | nil => rfl
  | cons count counts ih =>
    rw [List.sum_cons] at enough
    have inside : count ≤ crops.length := by omega
    obtain ⟨front, back⟩ := take_flatten_replicate length inside
    have taken : (crops.take count).length = count := by rw [List.length_take, Nat.min_eq_left inside]
    have rest : (crops.drop count).length = crops.length - count := List.length_drop
    -- The rest of the batch is a batch of its own with what this example leaves.
    have others := ih (crops.drop count) (by rw [rest]; omega)
    rw [rest] at others
    rw [List.map_cons]
    unfold groupExamples
    simp only [Remaining.after, front, back, taken, List.drop_replicate]
    rw [others]
    have filled : (List.replicate count pooling).flatten.length = count * rows := by
      rw [List.length_flatten, List.map_replicate, List.sum_replicate_nat, length]
    have zipped : ((List.replicate crops.length rows).take count).zip ((List.replicate crops.length patches).take count) =
        List.replicate count (rows, patches) := by
      rw [List.take_replicate, List.take_replicate, Nat.min_eq_left inside, List.zip_replicate']
    rw [zipped, rebasePoolingBlock_eq length]
    simp [cut, imageRows, filled, taken, bind, Except.bind, pure, Except.pure]

/-! ### Rebased rows -/

theorem rebase_injective (offset : Nat) : Function.Injective (rebase offset) := by
  intro first second same
  unfold rebase at same
  split_ifs at same <;> omega

theorem rebase_bounds {index : Int} {patches : Nat} (image : Nat) (bounds : index = -1 ∨ (0 ≤ index ∧ index < (patches : Nat))) :
    rebase (image * patches) index = -1 ∨
      ((image * patches : Nat) ≤ rebase (image * patches) index ∧
        rebase (image * patches) index < ((image + 1) * patches : Nat)) := by
  have next : (image + 1) * patches = image * patches + patches := by ring
  unfold rebase
  rw [next]
  generalize image * patches = offset
  split_ifs <;> omega

/-- A pooling row that fills up a shorter example, and one of an image. -/
def holdsPatch (row : List Int) : Bool := row.any fun index => decide (0 ≤ index)

theorem holdsPatch_rebased {row : List Int} (inhabited : ∃ index ∈ row, 0 ≤ index) (offset : Nat) :
    holdsPatch (row.map (rebase offset)) = true := by
  obtain ⟨index, member, nonneg⟩ := inhabited
  refine List.any_eq_true.mpr ⟨rebase offset index, List.mem_map_of_mem member, ?_⟩
  unfold rebase
  rw [if_pos nonneg]
  exact decide_eq_true (by omega)

theorem countP_imageRows {pooling : List (List Int)} {rows patches : Nat} (pooled : Pooled pooling rows patches)
    (step count filled width : Nat) :
    (imageRows pooling step count ++ List.replicate filled (List.replicate width (-1))).countP holdsPatch =
      count * rows := by
  have every : ∀ row ∈ imageRows pooling step count, holdsPatch row = true := by
    intro row member
    obtain ⟨image, _, inBlock⟩ := List.mem_flatMap.mp member
    obtain ⟨source, inPooling, rfl⟩ := List.mem_map.mp inBlock
    exact holdsPatch_rebased (pooled.inhabited source inPooling) _
  have none : ∀ row ∈ List.replicate filled (List.replicate width (-1 : Int)), ¬holdsPatch row = true := by
    intro row member holds
    obtain ⟨index, inRow, nonneg⟩ := List.any_eq_true.mp holds
    rw [List.eq_of_mem_replicate member] at inRow
    rw [List.eq_of_mem_replicate inRow] at nonneg
    exact absurd nonneg (by decide)
  rw [List.countP_append, List.countP_eq_length.mpr every, List.countP_eq_zero.mpr none, Nat.add_zero]
  unfold imageRows
  simp [List.length_flatMap, pooled.length]

theorem mem_imageRows {pooling : List (List Int)} {step count : Nat} {index : Int}
    (member : index ∈ (imageRows pooling step count).flatten) :
    ∃ image < count, ∃ row ∈ pooling, ∃ source ∈ row, index = rebase (image * step) source := by
  obtain ⟨row, inRows, inRow⟩ := List.mem_flatten.mp member
  obtain ⟨image, inRange, inBlock⟩ := List.mem_flatMap.mp inRows
  obtain ⟨source, inPooling, rfl⟩ := List.mem_map.mp inBlock
  obtain ⟨entry, inSource, rfl⟩ := List.mem_map.mp inRow
  exact ⟨image, List.mem_range.mp inRange, source, inPooling, entry, inSource, rfl⟩

theorem padding_absent (filled width index : Nat) :
    (index : Int) ∉ (List.replicate filled (List.replicate width (-1 : Int))).flatten := by
  intro member
  obtain ⟨row, inRows, inRow⟩ := List.mem_flatten.mp member
  rw [List.eq_of_mem_replicate inRows] at inRow
  have same := List.eq_of_mem_replicate inRow
  omega

/-- Where an image has as many patches as are pooled, every patch of an example is covered once. -/
theorem imageRows_covered {pooling : List (List Int)} {rows patches : Nat} (pooled : Pooled pooling rows patches)
    (count filled width : Nat) {index : Nat} (inside : index < count * patches) :
    (imageRows pooling patches count ++ List.replicate filled (List.replicate width (-1))).flatten.count (index : Int) =
      1 := by
  have positive : 0 < patches := Nat.pos_of_ne_zero fun zero => by simp [zero] at inside
  have image : index / patches < count := Nat.div_lt_of_lt_mul (by rw [Nat.mul_comm]; exact inside)
  have place := Nat.mod_lt index positive
  have split : index / patches * patches + index % patches = index := by
    rw [Nat.mul_comm]
    exact Nat.div_add_mod index patches
  rw [List.flatten_append, List.count_append, List.count_eq_zero_of_not_mem (padding_absent filled width index),
    Nat.add_zero]
  unfold imageRows
  rw [List.flatten_eq_flatMap, List.flatMap_assoc]
  simp only [List.flatMap_id]
  rw [count_flatMap_single image]
  · -- In its own image the patch is the one it was before rebasing.
    have before := pooled.once (index % patches) place
    have rebased : (index : Int) = rebase (index / patches * patches) ((index % patches : Nat) : Int) := by
      unfold rebase
      rw [if_pos (Int.natCast_nonneg _)]
      omega
    rw [← List.map_flatten, rebased, List.count_map_of_injective _ _ (rebase_injective _), before]
  · intro other _ differs member
    obtain ⟨row, inRows, inRow⟩ := List.mem_flatten.mp member
    obtain ⟨source, inPooling, rfl⟩ := List.mem_map.mp inRows
    obtain ⟨entry, inSource, same⟩ := List.mem_map.mp inRow
    have bounds := rebase_bounds other (pooled.bounds source inPooling entry inSource)
    rw [same] at bounds
    have upper : index < (other + 1) * patches ∧ other * patches ≤ index := by omega
    apply differs
    symm
    exact (Nat.div_eq_of_lt_le upper.2 upper.1)

end PhysicalAiStudio.Policies.MolmoAct2
