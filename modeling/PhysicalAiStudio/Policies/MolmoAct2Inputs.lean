import PhysicalAiStudio.Strings.Text

/-! How MolmoAct2 assembles the prompts and the images of a batch: `policies/molmoact2/processors/inputs.py`
and `image.py`.

The pixels of an image are a value of their own, and so is the crop they are normalized and cut into: only
how many patches a crop has is read here. A crop or a pooling row that fills up a shorter example is `none`
or all -1.
-/

set_option autoImplicit false

namespace PhysicalAiStudio.Policies.MolmoAct2
open Strings

inductive Error where
  | valueError (message : Text)
  | notImplementedError
  | zeroDivisionError
  | runtimeError
  deriving DecidableEq, Repr

structure InputLayout where
  envActionDim : Nat
  maxActionDim : Nat
  imagePlaceholderTokenId : Int
  imagePatchId : Int
  imageStartTokenId : Int
  imageEndTokenId : Int
  imageColId : Option Int
  lowResImageStartTokenId : Option Int
  frameStartTokenId : Option Int
  frameEndTokenId : Option Int
  imageLowResId : Option Int
  imageUseColTokens : Bool
  useSingleCropColTokens : Option Bool
  useSingleCropStartToken : Bool

def InputLayout.imageTokenIds (layout : InputLayout) : List Int :=
  [some layout.imagePatchId, layout.imageColId, some layout.imageStartTokenId, layout.lowResImageStartTokenId,
    layout.frameStartTokenId, some layout.imageEndTokenId, layout.frameEndTokenId, layout.imageLowResId].filterMap id

/-! ### The image processor -/

/-- The pooled grids of an image: of its resized whole, and of its crops. -/
structure ImageGrid where
  resizedH : Nat
  resizedW : Nat
  height : Nat
  width : Nat
  deriving DecidableEq

structure ImageProcessor (Pixels Crop : Type) where
  cropMode : Text
  patchSize : Nat
  pooling : List (List Int)
  poolLength : Nat
  pooledH : Nat
  pooledW : Nat
  patchify : Pixels → Crop

/-- Patch indices in a grid that is padded on every side. -/
def paddedIndex (patchH patchW top left row column : Nat) : Int :=
  if top ≤ row ∧ row - top < patchH ∧ left ≤ column ∧ column - left < patchW then
    ((row - top) * patchW + (column - left) : Nat)
  else -1

/-- Patch indices grouped by pooled token, with the height and the width of the pooled grid. -/
def poolingIndices (poolH poolW patchH patchW : Nat) : List (List Int) × Nat × Nat :=
  let pooledH := (patchH + poolH - 1) / poolH
  let pooledW := (patchW + poolW - 1) / poolW
  let padH := pooledH * poolH - patchH
  let padW := pooledW * poolW - patchW
  let indices := (List.range pooledH).flatMap fun row => (List.range pooledW).map fun column =>
    (List.range poolH).flatMap fun i => (List.range poolW).map fun j =>
      paddedIndex patchH patchW (padH / 2) (padW / 2) (row * poolH + i) (column * poolW + j)
  (indices, pooledH, pooledW)

variable {Pixels Crop : Type}

def ImageProcessor.init (cropMode : Text) (height width patchSize poolH poolW : Nat) (patchify : Pixels → Crop) :
    Except Error (ImageProcessor Pixels Crop) :=
  if patchSize = 0 ∨ poolH = 0 ∨ poolW = 0 then .error .zeroDivisionError
  else
    let (pooling, pooledH, pooledW) := poolingIndices poolH poolW (height / patchSize) (width / patchSize)
    .ok { cropMode := cropMode, patchSize := patchSize, pooling := pooling, poolLength := poolH * poolW,
          pooledH := pooledH, pooledW := pooledW, patchify := patchify }

structure Images (Pixels : Type) where
  values : List Pixels
  channels : Nat
  height : Nat
  width : Nat
  floating : Bool

structure ImageOutput (Crop : Type) where
  pixelValues : List Crop
  /-- The second axis of the pixel values. -/
  patches : Nat
  imageTokenPooling : List (List Int)
  poolLength : Nat
  imageGrids : List ImageGrid
  imageNumCrops : List Nat

def ImageProcessor.process (processor : ImageProcessor Pixels Crop) (images : Images Pixels) :
    Except Error (ImageOutput Crop) :=
  let rows := images.height / processor.patchSize
  let columns := images.width / processor.patchSize
  if images.channels ≠ 3 then .error (.valueError "Expected images of shape (M, 3, H, W)".toList)
  else if processor.cropMode ≠ "resize".toList then .error .notImplementedError
  else if !images.floating then .error (.valueError "Expected images of dtype float16 or float32".toList)
  -- The pixels are cut into patches by a reshape, which needs as many elements as it is given.
  else if images.values ≠ [] ∧ rows * processor.patchSize * (columns * processor.patchSize) ≠ images.height * images.width
    then .error .runtimeError
  else
    .ok { pixelValues := images.values.map processor.patchify
          patches := rows * columns
          imageTokenPooling := images.values.flatMap fun _ => processor.pooling
          poolLength := processor.poolLength
          imageGrids := images.values.map fun _ => ⟨processor.pooledH, processor.pooledW, 0, 0⟩
          imageNumCrops := images.values.map fun _ => 1 }

/-! ### The prompts -/

def gridRows (layout : InputLayout) (rowCount columnCount : Nat) (useCol : Bool) : List Int :=
  let row := List.replicate columnCount layout.imagePatchId ++
    (if useCol then layout.imageColId.toList else [])
  (List.replicate rowCount row).flatten

def InputLayout.singleCol (layout : InputLayout) : Bool :=
  layout.useSingleCropColTokens.getD layout.imageUseColTokens

def imageTokenIdsForGrid (layout : InputLayout) (grid : ImageGrid) : List Int :=
  if grid.height = 0 ∨ grid.width = 0 then
    [layout.imageStartTokenId] ++ gridRows layout grid.resizedH grid.resizedW layout.singleCol ++ [layout.imageEndTokenId]
  else
    let lowStart :=
      if layout.useSingleCropStartToken then layout.lowResImageStartTokenId.getD layout.imageStartTokenId
      else layout.imageStartTokenId
    [lowStart] ++ gridRows layout grid.resizedH grid.resizedW layout.singleCol ++
      [layout.imageEndTokenId, layout.imageStartTokenId] ++
      gridRows layout grid.height grid.width layout.imageUseColTokens ++ [layout.imageEndTokenId]

/-- One prompt: every placeholder takes the next grid. -/
def expandTokens (layout : InputLayout) : List Int → List ImageGrid → Except Error (List Int × List ImageGrid)
  | [], grids => .ok ([], grids)
  | token :: tokens, grids =>
    if token = layout.imagePlaceholderTokenId then
      match grids with
      -- One grid per placeholder, in order over the whole batch.
      | [] => .error (.valueError "Not enough image grids to expand all image placeholders.".toList)
      | grid :: grids => do
        let (expanded, left) ← expandTokens layout tokens grids
        pure (imageTokenIdsForGrid layout grid ++ expanded, left)
    else do
      let (expanded, left) ← expandTokens layout tokens grids
      pure (token :: expanded, left)

abbrev Prompt := List (Int × Bool)

def Prompt.valid (prompt : Prompt) : List Int := (prompt.filter Prod.snd).map Prod.fst

def expandRows (layout : InputLayout) : List Prompt → List ImageGrid → Except Error (List (List Int))
  | [], _ => .ok []
  | prompt :: prompts, grids => do
    let (expanded, left) ← expandTokens layout prompt.valid grids
    let rest ← expandRows layout prompts left
    pure (expanded :: rest)

def outputWidth (prompts : List Prompt) (rows : List (List Int)) : Nat :=
  ((List.zipWith (fun prompt row => row.length + (prompt.filter (!·.2)).length) prompts rows).max?).getD 1

def padRow (padTokenId : Int) (width : Nat) (row : List Int) : List Int :=
  row ++ List.replicate (width - row.length) padTokenId

/-! ### The images of each example -/

def rebase (offset : Nat) (index : Int) : Int := if 0 ≤ index then index + offset else index

/-- The rows of the images of one example, by their numbers of rows and of patches. -/
def rebasePoolingBlock (patchOffset : Nat) : List (Nat × Nat) → List (List Int) → List (List Int)
  | [], block => block
  | (itemCount, patchCount) :: items, block =>
    (block.take itemCount).map (List.map (rebase patchOffset)) ++
      rebasePoolingBlock (patchOffset + patchCount) items (block.drop itemCount)

def imageCounts (rawCounts : List Nat) (totalImages : Nat) : Except Error (List Nat) :=
  if totalImages = 0 then .ok (rawCounts.map fun _ => 0)
  else if rawCounts.sum = totalImages then .ok rawCounts
  else if rawCounts.sum = 2 * totalImages then .ok (rawCounts.map (· / 2))
  else
    .error (.valueError ("Could not infer image counts from image-end tokens: end_tokens=".toList ++
      decimal rawCounts.sum ++ ", image_grids=".toList ++ decimal totalImages ++ ".".toList))

/-- `arange(len(counts)).repeat_interleave(counts)`. -/
def repeatInterleave (counts : List Nat) : List Nat :=
  counts.zipIdx.flatMap fun entry => List.replicate entry.1 entry.2

/-- `zeros(size).index_add_(0, index, source)`. -/
def indexAdd (size : Nat) (index source : List Nat) : Except Error (List Nat) :=
  if index.length ≠ source.length then .error .runtimeError
  else
    .ok ((List.range size).map fun position =>
      (((index.zip source).filter fun entry => entry.1 = position).map Prod.snd).sum)

structure Share where
  images : Nat
  crops : Nat
  pooled : Nat

/-- What is not handed out yet. -/
structure Remaining (Crop : Type) where
  pixelValues : List Crop
  pooling : List (List Int)
  pooledPerImage : List Nat
  patchesPerImage : List Nat

def Remaining.after (left : Remaining Crop) (share : Share) : Remaining Crop where
  pixelValues := left.pixelValues.drop share.crops
  pooling := left.pooling.drop share.pooled
  pooledPerImage := left.pooledPerImage.drop share.images
  patchesPerImage := left.patchesPerImage.drop share.images

def groupExamples (cropWidth pooledWidth poolLength : Nat) :
    List Share → Remaining Crop → Except Error (List (List (Option Crop) × List (List Int)))
  | [], _ => .ok []
  | share :: shares, left => do
    let crops := left.pixelValues.take share.crops
    let block := left.pooling.take share.pooled
    if crops.length ≠ share.crops ∨ block.length ≠ share.pooled then throw .runtimeError
    -- The pooling rows index the patches of the whole batch and are rebased to those of the example.
    let rebased := rebasePoolingBlock 0
      ((left.pooledPerImage.take share.images).zip (left.patchesPerImage.take share.images)) block
    let rest ← groupExamples cropWidth pooledWidth poolLength shares (left.after share)
    pure ((crops.map some ++ List.replicate (cropWidth - share.crops) none,
      rebased ++ List.replicate (pooledWidth - share.pooled) (List.replicate poolLength (-1))) :: rest)

def pooledRows (grid : ImageGrid) : Nat := grid.resizedH * grid.resizedW + grid.height * grid.width

def maximum (counts : List Nat) : Except Error Nat := counts.max?.elim (.error .runtimeError) .ok

def shares (counts cropsPerExample pooledPerExample : List Nat) : List Share :=
  List.zipWith (fun images sizes => ⟨images, sizes.1, sizes.2⟩) counts (cropsPerExample.zip pooledPerExample)

def buildBatchedImages (layout : InputLayout) (inputIds : List (List Int)) (output : ImageOutput Crop) :
    Except Error (List (List (Option Crop) × List (List Int))) := do
  let counts ← imageCounts (inputIds.map (List.count layout.imageEndTokenId)) output.imageGrids.length
  let pooledPerImage := output.imageGrids.map pooledRows
  let cropsPerExample ← indexAdd counts.length (repeatInterleave counts) output.imageNumCrops
  let pooledPerExample ← indexAdd counts.length (repeatInterleave counts) pooledPerImage
  let cropWidth ← maximum cropsPerExample
  let pooledWidth ← maximum pooledPerExample
  groupExamples cropWidth pooledWidth output.poolLength (shares counts cropsPerExample pooledPerExample)
    { pixelValues := output.pixelValues, pooling := output.imageTokenPooling, pooledPerImage := pooledPerImage,
      patchesPerImage := output.imageNumCrops.map (· * output.patches) }

/-! ### The batch -/

/-- One prompt for each example, and for each camera slot one image of each example. -/
structure Batch (Pixels : Type) where
  prompts : List Prompt
  slots : List (List Pixels)
  each : ∀ slot ∈ slots, slot.length = prompts.length
  channels : Nat
  height : Nat
  width : Nat
  floating : Bool

def Batch.own (batch : Batch Pixels) (sample : Nat) : List Pixels := batch.slots.filterMap (·[sample]?)

/-- `images.permute(1, 0, 2, 3, 4).reshape(batch_size * num_images, ...)`. -/
def Batch.flatImages (batch : Batch Pixels) : Images Pixels where
  values := (List.range batch.prompts.length).flatMap batch.own
  channels := batch.channels
  height := batch.height
  width := batch.width
  floating := batch.floating

structure ModelInputs (Crop : Type) where
  inputIds : List (List Int)
  attentionMask : List (List Bool)
  tokenTypeIds : List (List Bool)
  images : List (List (Option Crop))
  tokenPooling : List (List (List Int))
  actionDimIsPad : List (List Bool)

def buildModelInputs (layout : InputLayout) (processor : ImageProcessor Pixels Crop) (padTokenId : Int)
    (batch : Batch Pixels) : Except Error (ModelInputs Crop) := do
  let output ← processor.process batch.flatImages
  let rows ← expandRows layout batch.prompts output.imageGrids
  let width := outputWidth batch.prompts rows
  let inputIds := rows.map (padRow padTokenId width)
  let grouped ← buildBatchedImages layout inputIds output
  pure { inputIds := inputIds
         attentionMask := rows.map fun row => (List.range width).map (decide <| · < row.length)
         tokenTypeIds := rows.map fun row => ((padRow padTokenId width row).zipIdx).map fun entry =>
           decide (entry.1 ∈ layout.imageTokenIds) && decide (entry.2 < row.length)
         images := grouped.map Prod.fst
         tokenPooling := grouped.map Prod.snd
         actionDimIsPad := batch.prompts.map fun _ => (List.range layout.maxActionDim).map (decide <| layout.envActionDim ≤ ·) }

end PhysicalAiStudio.Policies.MolmoAct2
