import PhysicalAiStudio.Policies.MolmoAct2Grouping
import Mathlib.Algebra.Order.BigOperators.Group.List
import Mathlib.Tactic.Push

/-! When every example of a batch gets the crops and the pooling rows of its own images.

Only totals are checked: as many image-end tokens as images in the whole batch, or twice as many. The prompts
decide which images an example gets, and no check compares its image-patch tokens with its pooling rows.
-/

set_option autoImplicit false

namespace PhysicalAiStudio.Policies.MolmoAct2

variable {Pixels Crop : Type} {layout : InputLayout} {padTokenId : Int}

/-! ### What is handed out -/

theorem length_filterMap_slots {slots : List (List Pixels)} {samples sample : Nat} (inside : sample < samples)
    (each : ∀ slot ∈ slots, slot.length = samples) :
    (slots.filterMap (·[sample]?)).length = slots.length := by
  induction slots with
  | nil => rfl
  | cons slot slots ih =>
    have here : sample < slot.length := by rw [each slot List.mem_cons_self]; exact inside
    have there := ih fun other member => each other (List.mem_cons_of_mem slot member)
    have found : slot[sample]? = some slot[sample] := List.getElem?_eq_getElem here
    rw [List.filterMap_cons, found]
    simp only [List.length_cons, there]

theorem Batch.length_own (batch : Batch Pixels) {sample : Nat} (inside : sample < batch.prompts.length) :
    (batch.own sample).length = batch.slots.length :=
  length_filterMap_slots inside batch.each

theorem Batch.length_flatImages (batch : Batch Pixels) :
    batch.flatImages.values.length = batch.prompts.length * batch.slots.length := by
  have every : ∀ count ≤ batch.prompts.length,
      ((List.range count).flatMap batch.own).length = count * batch.slots.length := by
    intro count
    induction count with
    | zero => intro _; simp
    | succ count ih =>
      intro within
      rw [List.range_succ, List.flatMap_append, List.length_append, ih (by omega), List.flatMap_singleton,
        batch.length_own (by omega)]
      ring
  exact every _ (le_refl _)

/-- Cutting the images after as many as an example has gives each its own. -/
theorem cut_own (batch : Batch Pixels) (patchify : Pixels → Crop) :
    cut (List.replicate batch.prompts.length batch.slots.length) (batch.flatImages.values.map patchify) =
      (List.range batch.prompts.length).map fun sample => (batch.own sample).map patchify := by
  have every : ∀ count start, start + count = batch.prompts.length →
      cut (List.replicate count batch.slots.length) (((List.range' start count).flatMap batch.own).map patchify) =
        (List.range' start count).map fun sample => (batch.own sample).map patchify := by
    intro count
    induction count with
    | zero => intro _ _; rfl
    | succ count ih =>
      intro start whole
      have length : ((batch.own start).map patchify).length = batch.slots.length := by
        rw [List.length_map, batch.length_own (by omega)]
      rw [List.range'_succ, List.flatMap_cons, List.map_append, List.replicate_succ, List.map_cons]
      unfold cut
      rw [List.take_left' length, List.drop_left' length, ih (start + 1) (by omega)]
  have all := every batch.prompts.length 0 (Nat.zero_add _)
  rwa [← List.range_eq_range'] at all

theorem length_cut {α : Type} {counts : List Nat} {values : List α} (enough : counts.sum ≤ values.length) :
    (cut counts values).map List.length = counts := by
  induction counts generalizing values with
  | nil => rfl
  | cons count counts ih =>
    rw [List.sum_cons] at enough
    unfold cut
    rw [List.map_cons, List.length_take, Nat.min_eq_left (by omega), ih (by rw [List.length_drop]; omega)]

def ends (layout : InputLayout) (processor : ImageProcessor Pixels Crop) (padTokenId : Int) (prompts : List Prompt) :
    Prompt → Nat :=
  occurrences layout padTokenId (.single processor.pooledH processor.pooledW) prompts layout.imageEndTokenId

def patchTokens (layout : InputLayout) (processor : ImageProcessor Pixels Crop) (padTokenId : Int)
    (prompts : List Prompt) : Prompt → Nat :=
  occurrences layout padTokenId (.single processor.pooledH processor.pooledW) prompts layout.imagePatchId

def Counted (raw : List Nat) (images : Nat) (counts : List Nat) : Prop :=
  if images = 0 then counts = raw.map fun _ => 0
  else counts = raw ∨ (raw.sum = 2 * images ∧ counts = raw.map (· / 2))

structure HandedOut (layout : InputLayout) (processor : ImageProcessor Pixels Crop) (padTokenId : Int)
    (batch : Batch Pixels) (patches : Nat) (counts : List Nat) (inputs : ModelInputs Crop) : Prop where
  some_ : counts ≠ []
  total : counts.sum = batch.prompts.length * batch.slots.length
  counted : Counted (batch.prompts.map (ends layout processor padTokenId batch.prompts))
    (batch.prompts.length * batch.slots.length) counts
  tokens : inputs.inputIds.map (List.count layout.imagePatchId) =
    batch.prompts.map (patchTokens layout processor padTokenId batch.prompts)
  images : ∃ width : Nat, inputs.images = (cut counts (batch.flatImages.values.map processor.patchify)).map fun own =>
    own.map some ++ List.replicate (width - own.length) none
  pooling : ∃ width : Nat, inputs.tokenPooling =
    (cut counts (batch.flatImages.values.map processor.patchify)).map fun own =>
      imageRows processor.pooling patches own.length ++
        List.replicate (width - own.length * (processor.pooledH * processor.pooledW))
          (List.replicate processor.poolLength (-1))

def Batch.patches (batch : Batch Pixels) (processor : ImageProcessor Pixels Crop) : Nat :=
  batch.height / processor.patchSize * (batch.width / processor.patchSize)

theorem imageCounts_counted {counts raw : List Nat} {images : Nat} (done : imageCounts raw images = .ok counts) :
    Counted raw images counts := by
  unfold imageCounts at done
  unfold Counted
  split at done
  · next empty =>
    cases done
    rw [if_pos empty]
  · next some_ =>
    rw [if_neg some_]
    split at done
    · cases done
      exact Or.inl rfl
    · split at done
      · next double =>
        cases done
        exact Or.inr ⟨double, rfl⟩
      · cases done

def ImageProcessor.output (processor : ImageProcessor Pixels Crop) (images : Images Pixels) : ImageOutput Crop where
  pixelValues := images.values.map processor.patchify
  patches := images.height / processor.patchSize * (images.width / processor.patchSize)
  imageTokenPooling := images.values.flatMap fun _ => processor.pooling
  poolLength := processor.poolLength
  imageGrids := images.values.map fun _ => .single processor.pooledH processor.pooledW
  imageNumCrops := images.values.map fun _ => 1

theorem process_output {processor : ImageProcessor Pixels Crop} {images : Images Pixels} {output : ImageOutput Crop}
    (done : processor.process images = .ok output) : output = processor.output images := by
  unfold ImageProcessor.process at done
  simp only at done
  split_ifs at done
  cases done
  rfl

theorem buildBatchedImages_cut {processor : ImageProcessor Pixels Crop} {images : Images Pixels}
    {inputIds : List (List Int)} {grouped : List (List (Option Crop) × List (List Int))}
    (rows : processor.pooling.length = processor.pooledH * processor.pooledW)
    (done : buildBatchedImages layout inputIds (processor.output images) = .ok grouped) :
    ∃ counts cropWidth pooledWidth,
      imageCounts (inputIds.map (List.count layout.imageEndTokenId)) images.values.length = .ok counts ∧
      counts.sum = images.values.length ∧ counts ≠ [] ∧
      grouped = (cut counts (images.values.map processor.patchify)).map fun own =>
        (own.map some ++ List.replicate (cropWidth - own.length) none,
          imageRows processor.pooling (processor.output images).patches own.length ++
            List.replicate (pooledWidth - own.length * (processor.pooledH * processor.pooledW))
              (List.replicate processor.poolLength (-1))) := by
  -- The single-grid processor hands out one crop and one grid per image, so every sum is a count of images.
  have crops : (processor.output images).imageNumCrops = List.replicate images.values.length 1 := List.map_const' ..
  have grids : (processor.output images).imageGrids =
      List.replicate images.values.length (.single processor.pooledH processor.pooledW) := List.map_const' ..
  have pooledEach : pooledRows (.single processor.pooledH processor.pooledW) = processor.pooledH * processor.pooledW := by
    simp [pooledRows, ImageGrid.single]
  have pooling : (processor.output images).imageTokenPooling =
      (List.replicate (images.values.map processor.patchify).length processor.pooling).flatten := by
    rw [List.length_map, ← List.map_const', ← List.flatMap_def]
    rfl
  unfold buildBatchedImages at done
  rw [crops, grids, pooling] at done
  simp only [List.length_replicate, List.map_replicate, pooledEach, Nat.one_mul] at done
  -- Each call may raise; what remains is the run in which none did.
  cases counted : imageCounts (inputIds.map (List.count layout.imageEndTokenId)) images.values.length with
  | error raised => simp only [counted, bind, Except.bind, reduceCtorEq] at done
  | ok counts =>
    cases cropsAdded : indexAdd counts.length (repeatInterleave counts) (List.replicate images.values.length 1) with
    | error raised => simp only [counted, cropsAdded, bind, Except.bind, reduceCtorEq] at done
    | ok cropsPerExample =>
      cases pooledAdded : indexAdd counts.length (repeatInterleave counts)
          (List.replicate images.values.length (processor.pooledH * processor.pooledW)) with
      | error raised => simp only [counted, cropsAdded, pooledAdded, bind, Except.bind, reduceCtorEq] at done
      | ok pooledPerExample =>
        obtain ⟨total, rfl⟩ := indexAdd_replicate cropsAdded
        obtain ⟨_, rfl⟩ := indexAdd_replicate pooledAdded
        simp only [counted, cropsAdded, pooledAdded, bind, Except.bind] at done
        split at done
        · cases done
        · next cropWidth largest =>
          split at done
          · cases done
          · next pooledWidth _ =>
            have shared : shares counts (counts.map (· * 1)) (counts.map (· * (processor.pooledH * processor.pooledW))) =
                counts.map fun count => ⟨count, count, count * (processor.pooledH * processor.pooledW)⟩ := by
              unfold shares
              rw [List.zip_map', List.zipWith_map_right, List.zipWith_self]
              simp
            have grouping := groupExamples_eq rows cropWidth pooledWidth processor.poolLength
              (processor.output images).patches counts (images.values.map processor.patchify)
              (by rw [List.length_map, total])
            rw [List.length_map] at grouping done
            rw [shared] at done
            have some_ : counts ≠ [] := by
              rintro rfl
              cases largest
            refine ⟨counts, cropWidth, pooledWidth, rfl, total, some_, ?_⟩
            exact Except.ok.inj (done.symm.trans grouping)

theorem output_grids {processor : ImageProcessor Pixels Crop} {images : Images Pixels} {grid : ImageGrid}
    (member : grid ∈ (processor.output images).imageGrids) : grid = .single processor.pooledH processor.pooledW := by
  obtain ⟨_, _, same⟩ := List.mem_map.mp member
  exact same.symm

theorem buildModelInputs_handedOut {processor : ImageProcessor Pixels Crop} {batch : Batch Pixels}
    {inputs : ModelInputs Crop} (rows : processor.pooling.length = processor.pooledH * processor.pooledW)
    (done : buildModelInputs layout processor padTokenId batch = .ok inputs) :
    ∃ counts, HandedOut layout processor padTokenId batch (batch.patches processor) counts inputs := by
  unfold buildModelInputs at done
  cases processed : processor.process batch.flatImages with
  | error raised => simp only [processed, bind, Except.bind, reduceCtorEq] at done
  | ok output =>
    have made := process_output processed
    subst made
    cases expanded : expandRows layout batch.prompts (processor.output batch.flatImages).imageGrids with
    | error raised => simp only [processed, expanded, bind, Except.bind, reduceCtorEq] at done
    | ok prompts =>
      have same := expandRows_eq (fun grid member => output_grids member) expanded
      subst same
      have counted : ∀ token, (((batch.prompts.map fun prompt => prompt.valid.flatMap
          (standsFor layout (.single processor.pooledH processor.pooledW))).map
            (padRow padTokenId (rowWidth layout (.single processor.pooledH processor.pooledW) batch.prompts))).map
              (List.count token)) =
          batch.prompts.map (occurrences layout padTokenId (.single processor.pooledH processor.pooledW) batch.prompts
            token) := by
        intro token
        rw [List.map_map, List.map_map]
        apply List.map_congr_left
        intro prompt _
        exact count_padRow _ _ token prompt
      cases grouped : buildBatchedImages layout
          ((batch.prompts.map fun prompt => prompt.valid.flatMap
            (standsFor layout (.single processor.pooledH processor.pooledW))).map
              (padRow padTokenId (rowWidth layout (.single processor.pooledH processor.pooledW) batch.prompts)))
          (processor.output batch.flatImages) with
      | error raised =>
        simp only [processed, expanded, outputWidth_eq, grouped, bind, Except.bind, reduceCtorEq] at done
      | ok pairs =>
        simp only [processed, expanded, outputWidth_eq, grouped, bind, Except.bind, pure, Except.pure,
          Except.ok.injEq] at done
        subst done
        obtain ⟨counts, cropWidth, pooledWidth, found, total, some_, rfl⟩ := buildBatchedImages_cut rows grouped
        rw [counted, batch.length_flatImages] at found
        refine ⟨counts, some_, ?_, imageCounts_counted found, counted _, ⟨cropWidth, ?_⟩, ⟨pooledWidth, ?_⟩⟩
        · rw [total, batch.length_flatImages]
        · simp only [List.map_map]
          rfl
        · simp only [List.map_map]
          rfl

/-! ### Each example and its own images -/

structure ExampleGrouped (layout : InputLayout) (processor : ImageProcessor Pixels Crop) (patches : Nat)
    (own : List Pixels) (ids : List Int) (crops : List (Option Crop)) (pooling : List (List Int)) : Prop where
  tokens : ids.count layout.imagePatchId = pooling.countP holdsPatch
  crops : ∃ filled, crops = (own.map processor.patchify).map some ++ List.replicate filled none
  /-- One block of pooling rows for each image, and each within the patches of its image. -/
  blocks : ∃ (blocks : List (List (List Int))) (filled width : Nat), blocks.length = own.length ∧
    pooling = blocks.flatten ++ List.replicate filled (List.replicate width (-1)) ∧
    ∀ image block, blocks[image]? = some block →
      block = processor.pooling.map (List.map (rebase (image * patches))) ∧
      ∀ row ∈ block, ∀ index ∈ row, index = -1 ∨
        ((image * patches : Nat) ≤ index ∧ index < ((image + 1) * patches : Nat))
  covered : ∀ patch < own.length * patches, pooling.flatten.count (patch : Int) = 1

def Grouped (layout : InputLayout) (processor : ImageProcessor Pixels Crop) (batch : Batch Pixels)
    (inputs : ModelInputs Crop) : Prop :=
  ∀ sample < batch.prompts.length, ∃ ids crops pooling,
    inputs.inputIds[sample]? = some ids ∧ inputs.images[sample]? = some crops ∧
    inputs.tokenPooling[sample]? = some pooling ∧
    ExampleGrouped layout processor (batch.patches processor) (batch.own sample) ids crops pooling

/-- Every prompt stands for the images that its example has, and they have the size that is pooled. -/
structure Consistent (layout : InputLayout) (processor : ImageProcessor Pixels Crop) (padTokenId : Int)
    (pooledPatches : Nat) (batch : Batch Pixels) : Prop where
  ends : batch.slots = [] ∨
    (∀ prompt ∈ batch.prompts, ends layout processor padTokenId batch.prompts prompt = batch.slots.length) ∨
    (∀ prompt ∈ batch.prompts, ends layout processor padTokenId batch.prompts prompt = 2 * batch.slots.length)
  tokens : ∀ prompt ∈ batch.prompts, patchTokens layout processor padTokenId batch.prompts prompt =
    batch.slots.length * (processor.pooledH * processor.pooledW)
  size : batch.slots = [] ∨ batch.patches processor = pooledPatches

theorem getElem?_cut {α : Type} {counts : List Nat} {values : List α} {sample count : Nat}
    (enough : counts.sum ≤ values.length) (here : counts[sample]? = some count) :
    ∃ own, (cut counts values)[sample]? = some own ∧ own.length = count := by
  have lengths := congrArg (·[sample]?) (length_cut enough)
  simp only [List.getElem?_map, here] at lengths
  obtain ⟨own, found, length⟩ := Option.map_eq_some_iff.mp lengths
  exact ⟨own, found, length⟩

theorem HandedOut.length_counts {processor : ImageProcessor Pixels Crop} {batch : Batch Pixels} {patches : Nat}
    {counts : List Nat} {inputs : ModelInputs Crop}
    (handedOut : HandedOut layout processor padTokenId batch patches counts inputs) :
    counts.length = batch.prompts.length := by
  have found := handedOut.counted
  unfold Counted at found
  split at found
  · rw [found, List.length_map, List.length_map]
  · obtain found | ⟨_, found⟩ := found
    · rw [found, List.length_map]
    · rw [found, List.length_map, List.length_map]

/-- What an output holds for one example. -/
theorem HandedOut.sample {processor : ImageProcessor Pixels Crop} {batch : Batch Pixels} {patches : Nat}
    {counts : List Nat} {inputs : ModelInputs Crop}
    (handedOut : HandedOut layout processor padTokenId batch patches counts inputs) {sample : Nat} {prompt : Prompt}
    (here : batch.prompts[sample]? = some prompt) :
    ∃ ids own cropsFilled rowsFilled,
      inputs.inputIds[sample]? = some ids ∧
      ids.count layout.imagePatchId = patchTokens layout processor padTokenId batch.prompts prompt ∧
      (cut counts (batch.flatImages.values.map processor.patchify))[sample]? = some own ∧
      counts[sample]? = some own.length ∧
      inputs.images[sample]? = some (own.map some ++ List.replicate cropsFilled none) ∧
      inputs.tokenPooling[sample]? = some (imageRows processor.pooling patches own.length ++
        List.replicate rowsFilled (List.replicate processor.poolLength (-1))) := by
  have tokens := congrArg (·[sample]?) handedOut.tokens
  simp only [List.getElem?_map, here, Option.map_some] at tokens
  obtain ⟨ids, idsHere, counted⟩ := Option.map_eq_some_iff.mp tokens
  -- The counts add up to the images, so every sample has its share.
  have enough : counts.sum ≤ (batch.flatImages.values.map processor.patchify).length := by
    rw [List.length_map, batch.length_flatImages, handedOut.total]
  have inside : sample < counts.length := by
    rw [handedOut.length_counts]
    exact (List.getElem?_eq_some_iff.mp here).1
  obtain ⟨own, ownHere, ownLength⟩ := getElem?_cut enough (List.getElem?_eq_getElem inside)
  obtain ⟨cropWidth, images⟩ := handedOut.images
  obtain ⟨pooledWidth, pooling⟩ := handedOut.pooling
  refine ⟨ids, own, cropWidth - own.length, pooledWidth - own.length * (processor.pooledH * processor.pooledW),
    idsHere, counted, ownHere, ?_, ?_, ?_⟩
  · rw [ownLength]
    exact List.getElem?_eq_getElem inside
  · rw [images, List.getElem?_map, ownHere]
    rfl
  · rw [pooling, List.getElem?_map, ownHere]
    rfl

theorem length_of_filled {crops images : List Crop} {filled padding : Nat}
    (same : crops.map some ++ List.replicate filled none = images.map some ++ List.replicate padding none) :
    crops.length = images.length := by
  have every : ∀ values : List Crop, (values.map some).countP Option.isSome = values.length := by
    intro values
    rw [List.countP_map]
    exact List.countP_eq_length.mpr fun _ _ => rfl
  have counted := congrArg (List.countP Option.isSome) same
  simpa [every, List.countP_replicate] using counted

theorem imageRows_blocks {pooling : List (List Int)} {rows patches : Nat} (pooled : Pooled pooling rows patches)
    (count : Nat) :
    ∃ blocks : List (List (List Int)), blocks.length = count ∧ imageRows pooling patches count = blocks.flatten ∧
      ∀ image block, blocks[image]? = some block →
        block = pooling.map (List.map (rebase (image * patches))) ∧
        ∀ row ∈ block, ∀ index ∈ row, index = -1 ∨
          ((image * patches : Nat) ≤ index ∧ index < ((image + 1) * patches : Nat)) := by
  refine ⟨(List.range count).map fun image => pooling.map (List.map (rebase (image * patches))), ?_, ?_, ?_⟩
  · rw [List.length_map, List.length_range]
  · exact List.flatMap_def
  · intro image block here
    rw [List.getElem?_map] at here
    obtain ⟨position, inRange, rfl⟩ := Option.map_eq_some_iff.mp here
    obtain ⟨bound, rfl⟩ := List.getElem?_eq_some_iff.mp inRange
    rw [List.getElem_range]
    refine ⟨rfl, ?_⟩
    intro row inBlock index inRow
    obtain ⟨source, inPooling, rfl⟩ := List.mem_map.mp inBlock
    obtain ⟨entry, inSource, rfl⟩ := List.mem_map.mp inRow
    exact rebase_bounds image (pooled.bounds source inPooling entry inSource)

theorem ExampleGrouped.size {processor : ImageProcessor Pixels Crop} {patches pooledPatches rows count filled : Nat}
    {own : List Pixels} {ids : List Int} {crops : List (Option Crop)}
    (pooled : Pooled processor.pooling rows pooledPatches) (some_ : 0 < own.length)
    (grouped : ExampleGrouped layout processor patches own ids crops (imageRows processor.pooling patches count ++
      List.replicate filled (List.replicate processor.poolLength (-1)))) : patches = pooledPatches := by
  apply Nat.le_antisymm
  · apply Nat.le_of_not_lt
    intro larger
    -- The first patch that is not pooled is in no row.
    have once := grouped.covered pooledPatches (lt_of_lt_of_le larger (Nat.le_mul_of_pos_left patches some_))
    have member : (pooledPatches : Int) ∈ (imageRows processor.pooling patches count ++
        List.replicate filled (List.replicate processor.poolLength (-1))).flatten :=
      List.count_pos_iff.mp (by omega)
    rw [List.flatten_append, List.mem_append] at member
    obtain member | member := member
    · obtain ⟨image, _, row, inPooling, source, inRow, same⟩ := mem_imageRows member
      have bounds := pooled.bounds row inPooling source inRow
      unfold rebase at same
      split at same
      · cases image with
        | zero => omega
        | succ image =>
          have next : (image + 1) * patches = image * patches + patches := by ring
          rw [next] at same
          omega
      · omega
    · exact padding_absent filled _ pooledPatches member
  · apply Nat.le_of_not_lt
    intro smaller
    -- The first patch past those of the image is pooled all the same.
    have once := pooled.once patches smaller
    have member : (patches : Int) ∈ processor.pooling.flatten := List.count_pos_iff.mp (by omega)
    obtain ⟨source, inPooling, inSource⟩ := List.mem_flatten.mp member
    obtain ⟨blocks, _, _, length, _, each⟩ := grouped.blocks
    have inside : 0 < blocks.length := by omega
    obtain ⟨same, bounds⟩ := each 0 blocks[0] (List.getElem?_eq_getElem inside)
    have here : rebase (0 * patches) patches ∈ source.map (rebase (0 * patches)) := List.mem_map_of_mem inSource
    have within := bounds (source.map (rebase (0 * patches)))
      (by rw [same]; exact List.mem_map_of_mem inPooling) _ here
    unfold rebase at within
    rw [if_pos (Int.natCast_nonneg _)] at within
    omega

theorem eq_of_sum_le {values : List Nat} {bound : Nat} (above : ∀ value ∈ values, bound ≤ value)
    (total : values.sum ≤ values.length * bound) : ∀ value ∈ values, value = bound := by
  induction values with
  | nil =>
    intro value member
    exact absurd member List.not_mem_nil
  | cons first values ih =>
    have rest : values.length * bound ≤ values.sum := by
      have whole := List.card_nsmul_le_sum values bound fun value member => above value (List.mem_cons_of_mem first member)
      simpa using whole
    have here := above first List.mem_cons_self
    rw [List.sum_cons, List.length_cons, Nat.succ_mul] at total
    intro value member
    obtain rfl | member := List.mem_cons.mp member
    · omega
    · exact ih (fun other inside => above other (List.mem_cons_of_mem first inside)) (by omega) value member

theorem map_eq_replicate {prompts : List Prompt} {number : Prompt → Nat} {slots : Nat}
    (each : ∀ prompt ∈ prompts, number prompt = slots) : prompts.map number = List.replicate prompts.length slots := by
  rw [← List.map_const']
  exact List.map_congr_left each

/-- Prompts that all stand for the images of their examples are counted so. -/
theorem Counted.eq_replicate {prompts : List Prompt} {ends : Prompt → Nat} {slots : Nat} {counts : List Nat}
    (counted : Counted (prompts.map ends) (prompts.length * slots) counts) (total : counts.sum = prompts.length * slots)
    (each : slots = 0 ∨ (∀ prompt ∈ prompts, ends prompt = slots) ∨ (∀ prompt ∈ prompts, ends prompt = 2 * slots)) :
    counts = List.replicate prompts.length slots := by
  unfold Counted at counted
  split at counted
  · next none =>
    rw [counted, List.map_map]
    obtain empty | zero := Nat.mul_eq_zero.mp none
    · rw [List.length_eq_zero_iff.mp empty]
      rfl
    · rw [zero]
      exact List.map_const' ..
  · next some_ =>
    have slotsSome : slots ≠ 0 := fun zero => some_ (by rw [zero, Nat.mul_zero])
    obtain zero | one | two := each
    · exact absurd zero slotsSome
    · have raw := map_eq_replicate one
      rw [raw] at counted
      obtain same | ⟨double, _⟩ := counted
      · exact same
      · rw [List.sum_replicate_nat] at double
        omega
    · have raw := map_eq_replicate two
      rw [raw] at counted
      obtain same | ⟨_, halves⟩ := counted
      · rw [same, List.sum_replicate_nat, Nat.mul_left_comm] at total
        omega
      · rw [halves, List.map_replicate, Nat.mul_div_cancel_left _ (by decide)]

theorem Counted.ends {prompts : List Prompt} {ends : Prompt → Nat} {slots : Nat}
    (counted : Counted (prompts.map ends) (prompts.length * slots) (List.replicate prompts.length slots)) :
    slots = 0 ∨ (∀ prompt ∈ prompts, ends prompt = slots) ∨ (∀ prompt ∈ prompts, ends prompt = 2 * slots) := by
  unfold Counted at counted
  split at counted
  · next none =>
    obtain empty | zero := Nat.mul_eq_zero.mp none
    · refine Or.inr (Or.inl ?_)
      rw [List.length_eq_zero_iff.mp empty]
      intro prompt member
      exact absurd member List.not_mem_nil
    · exact Or.inl zero
  · obtain same | ⟨double, halves⟩ := counted
    · refine Or.inr (Or.inl ?_)
      intro prompt member
      have inside : ends prompt ∈ List.replicate prompts.length slots := by
        rw [same]
        exact List.mem_map_of_mem member
      exact List.eq_of_mem_replicate inside
    · -- Every half is the number of slots, so no prompt has an end token to spare.
      refine Or.inr (Or.inr ?_)
      have above : ∀ value ∈ prompts.map ends, 2 * slots ≤ value := by
        intro value member
        have inside : value / 2 ∈ List.replicate prompts.length slots := by
          rw [halves]
          exact List.mem_map_of_mem member
        have half := List.eq_of_mem_replicate inside
        omega
      have all := eq_of_sum_le above (by rw [double, List.length_map, Nat.mul_left_comm])
      intro prompt member
      exact all _ (List.mem_map_of_mem member)

/-- Where each prompt stands for as many images as an example has, each example has its own. -/
theorem HandedOut.grouped {processor : ImageProcessor Pixels Crop} {batch : Batch Pixels} {pooledPatches : Nat}
    {counts : List Nat} {inputs : ModelInputs Crop}
    (pooled : Pooled processor.pooling (processor.pooledH * processor.pooledW) pooledPatches)
    (handedOut : HandedOut layout processor padTokenId batch (batch.patches processor) counts inputs)
    (consistent : Consistent layout processor padTokenId pooledPatches batch) :
    Grouped layout processor batch inputs := by
  have ends := consistent.ends
  rw [← List.length_eq_zero_iff] at ends
  -- All prompts have as many image-end tokens, so the counts are equal.
  have replicated := handedOut.counted.eq_replicate handedOut.total ends
  subst replicated
  intro sample inside
  have here := List.getElem?_eq_getElem inside
  obtain ⟨ids, own, cropsFilled, rowsFilled, idsHere, tokens, ownHere, _, cropsHere, poolingHere⟩ :=
    handedOut.sample here
  rw [cut_own, List.getElem?_map, List.getElem?_range inside, Option.map_some] at ownHere
  cases ownHere
  have length := batch.length_own inside
  rw [List.length_map] at poolingHere
  refine ⟨ids, _, _, idsHere, cropsHere, poolingHere, ?_, ⟨cropsFilled, rfl⟩, ?_, ?_⟩
  · rw [tokens, countP_imageRows pooled, length]
    exact consistent.tokens _ (List.getElem_mem inside)
  · obtain none | size := consistent.size
    · rw [length, none]
      refine ⟨[], rowsFilled, processor.poolLength, rfl, rfl, ?_⟩
      intro image block absent
      cases absent
    · rw [size]
      obtain ⟨blocks, number, same, each⟩ := imageRows_blocks pooled (batch.own sample).length
      exact ⟨blocks, rowsFilled, processor.poolLength, number, by rw [same], each⟩
  · intro patch within
    obtain none | size := consistent.size
    · rw [length, none, List.length_nil, Nat.zero_mul] at within
      exact absurd within (Nat.not_lt_zero patch)
    · rw [size] at within ⊢
      exact imageRows_covered pooled _ _ _ within

theorem HandedOut.consistent {processor : ImageProcessor Pixels Crop} {batch : Batch Pixels} {pooledPatches : Nat}
    {counts : List Nat} {inputs : ModelInputs Crop}
    (pooled : Pooled processor.pooling (processor.pooledH * processor.pooledW) pooledPatches)
    (handedOut : HandedOut layout processor padTokenId batch (batch.patches processor) counts inputs)
    (grouped : Grouped layout processor batch inputs) :
    Consistent layout processor padTokenId pooledPatches batch := by
  -- What holds of one sample: its own images, its patch tokens and the number of patches of each.
  have each : ∀ (sample : Nat) (prompt : Prompt), batch.prompts[sample]? = some prompt →
      counts[sample]? = some batch.slots.length ∧
      patchTokens layout processor padTokenId batch.prompts prompt =
        batch.slots.length * (processor.pooledH * processor.pooledW) ∧
      (batch.slots = [] ∨ batch.patches processor = pooledPatches) := by
    intro sample prompt here
    have inside := (List.getElem?_eq_some_iff.mp here).1
    obtain ⟨ids, own, cropsFilled, rowsFilled, idsHere, tokens, _, countHere, cropsHere, poolingHere⟩ :=
      handedOut.sample here
    obtain ⟨ids', crops, pooling, idsSame, cropsSame, poolingSame, example_⟩ := grouped sample inside
    cases idsHere.symm.trans idsSame
    cases cropsHere.symm.trans cropsSame
    cases poolingHere.symm.trans poolingSame
    obtain ⟨filled, same⟩ := example_.crops
    have length : own.length = batch.slots.length := by
      rw [length_of_filled same, List.length_map, batch.length_own inside]
    refine ⟨by rw [countHere, length], ?_, ?_⟩
    · rw [← tokens, example_.tokens, countP_imageRows pooled, length]
    · by_cases none : batch.slots = []
      · exact Or.inl none
      · have positive : 0 < (batch.own sample).length := by
          rw [batch.length_own inside]
          exact List.length_pos_iff.mpr none
        exact Or.inr (example_.size pooled positive)
  have counts_ : counts = List.replicate batch.prompts.length batch.slots.length := by
    apply List.eq_replicate_iff.mpr
    refine ⟨handedOut.length_counts, ?_⟩
    intro count member
    obtain ⟨sample, here⟩ := List.getElem?_of_mem member
    have inside : sample < batch.prompts.length := by
      rw [← handedOut.length_counts]
      exact (List.getElem?_eq_some_iff.mp here).1
    have counted := (each sample _ (List.getElem?_eq_getElem inside)).1
    exact Option.some.inj (here.symm.trans counted)
  have some_ : 0 < batch.prompts.length := by
    rw [← handedOut.length_counts]
    exact List.length_pos_iff.mpr handedOut.some_
  have first := each 0 _ (List.getElem?_eq_getElem some_)
  constructor
  · have counted := handedOut.counted
    rw [counts_] at counted
    rw [← List.length_eq_zero_iff]
    exact counted.ends
  · intro prompt member
    obtain ⟨sample, inside, here⟩ := List.getElem_of_mem member
    have found : batch.prompts[sample]? = some prompt := by rw [List.getElem?_eq_getElem inside, here]
    exact (each sample prompt found).2.1
  · exact first.2.2

theorem init_pooled {cropMode : Strings.Text} {height width patchSize poolH poolW : Nat} {patchify : Pixels → Crop}
    {processor : ImageProcessor Pixels Crop}
    (made : ImageProcessor.init cropMode height width patchSize poolH poolW patchify = .ok processor) :
    Pooled processor.pooling (processor.pooledH * processor.pooledW)
      (height / patchSize * (width / patchSize)) := by
  unfold ImageProcessor.init at made
  split at made
  · cases made
  · next sizes =>
    push Not at sizes
    cases made
    exact poolingIndices_pooled (Nat.pos_of_ne_zero sizes.2.1) (Nat.pos_of_ne_zero sizes.2.2) _ _

theorem buildModelInputs_grouped_iff {cropMode : Strings.Text} {height width patchSize poolH poolW : Nat}
    {patchify : Pixels → Crop} {processor : ImageProcessor Pixels Crop} {batch : Batch Pixels}
    {inputs : ModelInputs Crop}
    (made : ImageProcessor.init cropMode height width patchSize poolH poolW patchify = .ok processor)
    (done : buildModelInputs layout processor padTokenId batch = .ok inputs) :
    Grouped layout processor batch inputs ↔
      Consistent layout processor padTokenId (height / patchSize * (width / patchSize)) batch := by
  have pooled := init_pooled made
  obtain ⟨counts, handedOut⟩ := buildModelInputs_handedOut pooled.length done
  constructor
  · intro grouped
    exact handedOut.consistent pooled grouped
  · intro consistent
    exact handedOut.grouped pooled consistent

theorem consistent_iff {processor : ImageProcessor Pixels Crop} {pooledPatches : Nat} {batch : Batch Pixels}
    (distinct : layout.Distinct padTokenId) :
    Consistent layout processor padTokenId pooledPatches batch ↔
      (batch.slots = [] ∨
        (∀ prompt ∈ batch.prompts, (literals layout prompt).count layout.imageEndTokenId +
          placeholders layout prompt = batch.slots.length) ∨
        (∀ prompt ∈ batch.prompts, (literals layout prompt).count layout.imageEndTokenId +
          placeholders layout prompt = 2 * batch.slots.length)) ∧
      (∀ prompt ∈ batch.prompts, (literals layout prompt).count layout.imagePatchId +
        placeholders layout prompt * (processor.pooledH * processor.pooledW) =
          batch.slots.length * (processor.pooledH * processor.pooledW)) ∧
      (batch.slots = [] ∨ batch.patches processor = pooledPatches) := by
  have ends_ : ends layout processor padTokenId batch.prompts = fun prompt =>
      (literals layout prompt).count layout.imageEndTokenId + placeholders layout prompt := by
    funext prompt
    exact occurrences_end distinct _ _ _ prompt
  have tokens_ : patchTokens layout processor padTokenId batch.prompts = fun prompt =>
      (literals layout prompt).count layout.imagePatchId +
        placeholders layout prompt * (processor.pooledH * processor.pooledW) := by
    funext prompt
    exact occurrences_patch distinct _ _ _ prompt
  constructor
  · intro consistent
    have ends := consistent.ends
    have tokens := consistent.tokens
    rw [ends_] at ends
    rw [tokens_] at tokens
    exact ⟨ends, tokens, consistent.size⟩
  · rintro ⟨ends, tokens, size⟩
    constructor
    · rw [ends_]
      exact ends
    · rw [tokens_]
      exact tokens
    · exact size

/-! ### Batches of small images -/

def defaultLayout : InputLayout where
  envActionDim := 7
  maxActionDim := 32
  imagePlaceholderTokenId := 154629
  imagePatchId := 154626
  imageStartTokenId := 154624
  imageEndTokenId := 154625
  imageColId := some 154627
  lowResImageStartTokenId := some 154628
  frameStartTokenId := some 154631
  frameEndTokenId := some 154632
  imageLowResId := some 154630
  imageUseColTokens := true
  useSingleCropColTokens := none
  useSingleCropStartToken := true

def smallProcessor : ImageProcessor Nat Nat where
  cropMode := "resize".toList
  patchSize := 14
  pooling := [[0, 1, 2, 3]]
  poolLength := 4
  pooledH := 1
  pooledW := 1
  patchify := id

/-- Small images; a token of a prompt is masked where it is none. -/
def smallBatch (prompts : List (List Int)) (slots : List (List Nat))
    (each : ∀ slot ∈ slots, slot.length = prompts.length) : Batch Nat where
  prompts := prompts.map (List.map (·, true))
  slots := slots
  each := by
    intro slot member
    rw [List.length_map]
    exact each slot member
  channels := 3
  height := 28
  width := 28
  floating := true

def evenBatch : Batch Nat :=
  smallBatch [[151643, 154629, 154629, 40], [151643, 154629, 154629, 40]] [[10, 11], [20, 21]] (by decide)

/-- The task of the second example names an image of its own, and the first example has lost one. -/
def unevenBatch : Batch Nat :=
  smallBatch [[151643, 154629], [151643, 154629, 154629, 154629]] [[10, 11], [20, 21]] (by decide)

/-- The task holds an image-patch token. -/
def spelledBatch : Batch Nat := smallBatch [[151643, 154629, 154626]] [[10]] (by decide)

theorem smallProcessor_made : ImageProcessor.init "resize".toList 28 28 14 2 2 id = .ok smallProcessor := by rfl

def Holds (result : Except Error (ModelInputs Crop)) (ids : List (List Int)) (crops : List (List (Option Crop)))
    (pooling : List (List (List Int))) : Prop :=
  result.map (fun inputs => (inputs.inputIds, inputs.images, inputs.tokenPooling)) = .ok (ids, crops, pooling)

theorem Holds.made {result : Except Error (ModelInputs Crop)} {ids : List (List Int)}
    {crops : List (List (Option Crop))} {pooling : List (List (List Int))} (holds : Holds result ids crops pooling) :
    ∃ inputs, result = .ok inputs ∧ inputs.inputIds = ids ∧ inputs.images = crops ∧ inputs.tokenPooling = pooling := by
  unfold Holds at holds
  cases result with
  | error raised => cases holds
  | ok inputs =>
    cases holds
    exact ⟨inputs, rfl, rfl, rfl, rfl⟩

theorem evenBatch_holds :
    Holds (buildModelInputs defaultLayout smallProcessor 151645 evenBatch)
      [[151643, 154624, 154626, 154627, 154625, 154624, 154626, 154627, 154625, 40],
        [151643, 154624, 154626, 154627, 154625, 154624, 154626, 154627, 154625, 40]]
      [[some 10, some 20], [some 11, some 21]]
      [[[0, 1, 2, 3], [4, 5, 6, 7]], [[0, 1, 2, 3], [4, 5, 6, 7]]] := by rfl

theorem unevenBatch_holds :
    Holds (buildModelInputs defaultLayout smallProcessor 151645 unevenBatch)
      [[151643, 154624, 154626, 154627, 154625, 151645, 151645, 151645, 151645, 151645, 151645, 151645, 151645],
        [151643, 154624, 154626, 154627, 154625, 154624, 154626, 154627, 154625, 154624, 154626, 154627, 154625]]
      [[some 10, none, none], [some 20, some 11, some 21]]
      [[[0, 1, 2, 3], [-1, -1, -1, -1], [-1, -1, -1, -1]], [[0, 1, 2, 3], [4, 5, 6, 7], [8, 9, 10, 11]]] := by rfl

theorem spelledBatch_holds :
    Holds (buildModelInputs defaultLayout smallProcessor 151645 spelledBatch)
      [[151643, 154624, 154626, 154627, 154625, 154626]] [[some 10]] [[[0, 1, 2, 3]]] := by rfl

theorem evenBatch_grouped :
    ∃ inputs, ImageProcessor.init "resize".toList 28 28 14 2 2 id = .ok smallProcessor ∧
      buildModelInputs defaultLayout smallProcessor 151645 evenBatch = .ok inputs ∧
      Grouped defaultLayout smallProcessor evenBatch inputs := by
  obtain ⟨inputs, done, _⟩ := evenBatch_holds.made
  refine ⟨inputs, smallProcessor_made, done, ?_⟩
  apply (buildModelInputs_grouped_iff smallProcessor_made done).mpr
  constructor
  · exact Or.inr (Or.inl (by decide))
  · decide
  · exact Or.inr (by decide)

/-- A task text that holds special tokens is not refused: an image-patch token of its own is one more than there are
pooling rows, and an image placeholder of its own takes the image of the example before it. -/
theorem special_tokens_accepted :
    (∃ inputs, buildModelInputs defaultLayout smallProcessor 151645 spelledBatch = .ok inputs ∧
      ¬Grouped defaultLayout smallProcessor spelledBatch inputs) ∧
    (∃ inputs, buildModelInputs defaultLayout smallProcessor 151645 unevenBatch = .ok inputs ∧
      ¬Grouped defaultLayout smallProcessor unevenBatch inputs) := by
  constructor
  · obtain ⟨inputs, done, ids, _, pooling⟩ := spelledBatch_holds.made
    refine ⟨inputs, done, ?_⟩
    intro grouped
    obtain ⟨ids', crops', pooling', idsHere, _, poolingHere, example_⟩ := grouped 0 (by decide)
    rw [ids] at idsHere
    rw [pooling] at poolingHere
    cases idsHere
    cases poolingHere
    exact absurd example_.tokens (by decide)
  · obtain ⟨inputs, done, _, crops, _⟩ := unevenBatch_holds.made
    refine ⟨inputs, done, ?_⟩
    intro grouped
    obtain ⟨ids', crops', pooling', _, cropsHere, _, example_⟩ := grouped 0 (by decide)
    rw [crops] at cropsHere
    cases cropsHere
    obtain ⟨filled, same⟩ := example_.crops
    -- The first example has two images, and only the first of them is in its row.
    have second : some none = some (some 20) := congrArg (·[1]?) same
    cases second

end PhysicalAiStudio.Policies.MolmoAct2
