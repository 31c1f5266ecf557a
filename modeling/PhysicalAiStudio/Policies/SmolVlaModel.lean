import PhysicalAiStudio.Collections.Dict
import PhysicalAiStudio.Numeric.BlockMask
import PhysicalAiStudio.Strings.Text
import Mathlib.Algebra.Order.Field.Rat
import Mathlib.Data.List.Infix

/-! The velocity model of SmolVLA: the prefix and suffix it embeds, the layers of the vision-language
model and of its action expert, and the two ways to run them.

Training runs the prefix and the suffix together. Inference runs the prefix once, keeps the keys and
values of every layer, and runs only the suffix against them at each denoising step. Everything is for
one sample of the batch; the projections, norms, rotations and sums of tensors are parameters.
-/

set_option autoImplicit false

namespace PhysicalAiStudio.Policies.SmolVla

open PhysicalAiStudio.Collections PhysicalAiStudio.Numeric PhysicalAiStudio.Strings

variable {Scalar Score Image : Type}

/-- The vector of one token, of whatever width. -/
abbrev Vec (Scalar : Type) := List Scalar

abbrev States (Scalar : Type) := List (List (Vec Scalar))

inductive Fault where
  | valueError (message : String)
  | runtimeError (message : String)
  | keyError (layerIdx : Nat)
  | zeroDivisionError
  /-- Torch refuses the shapes it is given. -/
  | shapes

/-! ### The layers -/

structure Layer (Scalar : Type) where
  inputLayernorm : Vec Scalar → Vec Scalar
  qProj : Vec Scalar → Vec Scalar
  kProj : Vec Scalar → Vec Scalar
  vProj : Vec Scalar → Vec Scalar
  oProj : Vec Scalar → Vec Scalar
  postAttentionLayernorm : Vec Scalar → Vec Scalar
  mlp : Vec Scalar → Vec Scalar

/-- `_SmolVLMWithExpertModel`. -/
structure VlmWithExpert (Scalar Score : Type) where
  vlmLayers : List (Layer Scalar)
  expertLayers : List (Layer Scalar)
  vlmNorm : Vec Scalar → Vec Scalar
  expertNorm : Vec Scalar → Vec Scalar
  headDim : Nat
  numAttentionHeads : Nat
  numKeyValueHeads : Nat
  attentionMode : Text
  selfAttnEveryNLayers : Int
  add : Vec Scalar → Vec Scalar → Vec Scalar
  /-- `_apply_rope` of one head at one position. -/
  rope : Vec Scalar → Int → Vec Scalar
  /-- The product of a query and a key, times `head_dim**-0.5`. -/
  score : Vec Scalar → Vec Scalar → Score
  bigNeg : Score
  /-- The sum of the values, weighted by the softmax of their scores. -/
  mix : List (Score × Vec Scalar) → Vec Scalar
  -- the constructor raises where the expert's layers do not divide those of the vision-language model
  divides : expertLayers.length ∣ vlmLayers.length

/-- What the cache keeps of a layer. -/
structure Entry (Scalar : Type) where
  keyStates : States Scalar
  valueStates : States Scalar

abbrev Cache (Scalar : Type) := Dict Nat (Entry Scalar)

/-- The tokens of the vision-language model and of the expert; `none` for the part that is not run. -/
abbrev InputsEmbeds (Scalar : Type) := List (Option (List (Vec Scalar)))

def makeAtt2dMasks (padMasks : List Bool) (attMasks : List Nat) : Except Fault (List (List Bool)) :=
  if padMasks.length = attMasks.length then .ok (blockMask (padMasks.zip (cumsum attMasks))) else .error .shapes

def positionsOf (padMasks : List Bool) : List Int := (cumsum (padMasks.map Bool.toNat)).map fun sum : Nat => (sum : Int) - 1

namespace VlmWithExpert

variable (model : VlmWithExpert Scalar Score)

def numVlmLayers : Nat := model.vlmLayers.length

def multipleOf : Nat := model.vlmLayers.length / model.expertLayers.length

/-- The expert's layer beside a layer of the vision-language model, where there is one. -/
def expertLayer (layerIdx : Nat) : Option (Layer Scalar) :=
  if 0 < model.multipleOf ∧ 0 < layerIdx ∧ layerIdx % model.multipleOf ≠ 0 then none
  else model.expertLayers[if 0 < model.multipleOf then layerIdx / model.multipleOf else layerIdx]?

/-- `get_model_layers`, the two layers of each index together. -/
def getModelLayers : List (List (Option (Layer Scalar))) :=
  model.vlmLayers.zipIdx.map fun layer => [some layer.1, model.expertLayer layer.2]

def heads (vector : Vec Scalar) : List (Vec Scalar) := vector.toChunks model.headDim

def rotate (states : States Scalar) (positions : List Int) : States Scalar :=
  states.zipWith (fun token position => token.map (model.rope · position)) positions

def applyRope (states : States Scalar) (positions : List Int) : Except Fault (States Scalar) :=
  if states.length = positions.length then .ok (model.rotate states positions) else .error .shapes

/-- A token's keys or values, each head as often as query heads share it. -/
def expandHeads (token : List (Vec Scalar)) : List (Vec Scalar) :=
  token.flatMap (List.replicate (model.numAttentionHeads / model.numKeyValueHeads))

def attend (query : List (Vec Scalar)) (row : List Bool) (keyStates valueStates : States Scalar) : Vec Scalar :=
  (List.range (model.numKeyValueHeads * (model.numAttentionHeads / model.numKeyValueHeads))).flatMap fun head =>
    model.mix (maskScores model.bigNeg (fun key => model.score (query.getD head []) ((model.expandHeads key).getD head []))
      (row.zip (keyStates.zip (valueStates.map fun value => (model.expandHeads value).getD head []))))

def attendRows (attentionMask : List (List Bool)) (queryStates keyStates valueStates : States Scalar) :
    List (Vec Scalar) :=
  queryStates.zipWith (fun query row => model.attend query row keyStates valueStates) attentionMask

def eagerAttentionForward (attentionMask : List (List Bool)) (queryStates keyStates valueStates : States Scalar) :
    Except Fault (List (Vec Scalar)) :=
  if attentionMask.length = queryStates.length ∧ ∀ row ∈ attentionMask, row.length = keyStates.length then
    .ok (model.attendRows attentionMask queryStates keyStates valueStates)
  else .error .shapes

/-! ### Self attention -/

structure Projected (Scalar : Type) where
  queryStates : States Scalar
  keyStates : States Scalar
  valueStates : States Scalar

def project (layer : Layer Scalar) (hiddenStates : List (Vec Scalar)) : Projected Scalar where
  queryStates := hiddenStates.map fun token => model.heads (layer.qProj (layer.inputLayernorm token))
  keyStates := hiddenStates.map fun token => model.heads (layer.kProj (layer.inputLayernorm token))
  valueStates := hiddenStates.map fun token => model.heads (layer.vProj (layer.inputLayernorm token))

/-- The parts put in one row; torch refuses to put none together. -/
def catProjected (parts : List (Projected Scalar)) : Except Fault (Projected Scalar) :=
  if parts.isEmpty then .error .shapes
  else .ok ⟨parts.flatMap (·.queryStates), parts.flatMap (·.keyStates), parts.flatMap (·.valueStates)⟩

def projectAll (layers : List (Option (Layer Scalar))) (inputsEmbeds : InputsEmbeds Scalar) :
    Except Fault (Projected Scalar) :=
  catProjected ((inputsEmbeds.zip layers).filterMap fun pair => do
    let hiddenStates ← pair.1
    let layer ← pair.2
    pure (model.project layer hiddenStates))

def selfCache (layerIdx : Nat) (useCache fillKvCache : Bool) (past : Option (Cache Scalar)) (entry : Entry Scalar) :
    Except Fault (Entry Scalar × Option (Cache Scalar)) :=
  if useCache then
    if fillKvCache then .ok (entry, some ((past.getD ∅).set layerIdx entry))
    else
      match (past.getD ∅).get? layerIdx with
      | none => .error (.keyError layerIdx)
      | some kept =>
        .ok (⟨kept.keyStates ++ entry.keyStates, kept.valueStates ++ entry.valueStates⟩, some (past.getD ∅))
  else .ok (entry, past)

def forwardAttnLayer (layers : List (Option (Layer Scalar))) (inputsEmbeds : InputsEmbeds Scalar) (layerIdx : Nat)
    (positionIds : List Int) (attentionMask : List (List Bool)) (useCache fillKvCache : Bool)
    (past : Option (Cache Scalar)) : Except Fault (List (Option (List (Vec Scalar))) × Option (Cache Scalar)) := do
  let projected ← model.projectAll layers inputsEmbeds
  -- Positions and mask may cover more tokens than are projected here, and are then cut to these.
  let seqLen := projected.queryStates.length
  let short := decide (seqLen < positionIds.length)
  let positions := if short then positionIds.take seqLen else positionIds
  let mask := if short then (attentionMask.take seqLen).map (·.take seqLen) else attentionMask
  let queryStates ← model.applyRope projected.queryStates positions
  let keyStates ← model.applyRope projected.keyStates positions
  let (entry, past) ← selfCache layerIdx useCache fillKvCache past ⟨keyStates, projected.valueStates⟩
  let attOutput ← model.eagerAttentionForward mask queryStates entry.keyStates entry.valueStates
  pure ([some attOutput], past)

/-! ### Cross attention -/

/-- What the prefix leaves to the expert: its attention output, its keys and values, the positions of
the expert, and the prefix's own where the expert's are a view into one row with them. -/
structure CrossPrefix (Scalar : Type) where
  attOutputs : List (Option (List (Vec Scalar)))
  entry : Option (Entry Scalar)
  expertPositionId : List Int
  ahead : List Int

def crossPrefix (layers : List (Option (Layer Scalar))) (inputsEmbeds : InputsEmbeds Scalar) (positionIds : List Int)
    (attentionMask : List (List Bool)) (past : Option (Cache Scalar)) : Except Fault (CrossPrefix Scalar) :=
  -- an empty cache counts as none
  if inputsEmbeds.length = 2 ∧ (past.getD ∅).entries = [] then
    match inputsEmbeds.head?.join, layers.head?.join with
    | some prefixInputs, some layer => do
      let seqLen := prefixInputs.length
      let projected := model.project layer prefixInputs
      let queryStates ← model.applyRope projected.queryStates (positionIds.take seqLen)
      let keyStates ← model.applyRope projected.keyStates (positionIds.take seqLen)
      let attOutput ← model.eagerAttentionForward ((attentionMask.take seqLen).map (·.take seqLen)) queryStates keyStates
        projected.valueStates
      pure ⟨[some attOutput], some ⟨keyStates, projected.valueStates⟩, positionIds.drop seqLen, positionIds.take seqLen⟩
    | _, _ => .error (.runtimeError "Missing prefix inputs for cross attention.")
  else .ok ⟨[], none, positionIds, []⟩

def crossCache (layerIdx : Nat) (useCache fillKvCache : Bool) (past : Option (Cache Scalar)) (entry : Option (Entry Scalar)) :
    Except Fault (Option (Entry Scalar) × Option (Cache Scalar)) :=
  if useCache then
    if fillKvCache then
      -- The filling pass stores the keys and values of the prefix, the later ones read them.
      match entry with
      | none => .error (.runtimeError "Missing key/value states while filling cache.")
      | some entry => .ok (some entry, some ((past.getD ∅).set layerIdx entry))
    else
      match (past.getD ∅).get? layerIdx with
      | none => .error (.keyError layerIdx)
      | some kept => .ok (some kept, some (past.getD ∅))
  else .ok (entry, past)

def fromZero (positions : List Int) : Except Fault (List Int) :=
  match positions.min? with
  | none => .error .shapes
  | some least => .ok (positions.map (· - least))

/-- The expert's attention over the prefix, and the positions it leaves behind. -/
def crossExpert (layers : List (Option (Layer Scalar))) (inputsEmbeds : InputsEmbeds Scalar)
    (attentionMask : List (List Bool)) (expertPositionId : List Int) (entry : Entry Scalar) :
    Except Fault (Option (List (Vec Scalar)) × List Int) :=
  match layers[1]?.join with
  | none => .ok (none, expertPositionId)
  | some layer =>
    match inputsEmbeds[1]?.join with
    | none => .error (.runtimeError "Missing expert inputs for cross attention.")
    | some expertInputs => do
      let queries := (model.project layer expertInputs).queryStates
      let keyStates := entry.keyStates.map fun token => model.heads (layer.kProj token.flatten)
      let valueStates := entry.valueStates.map fun token => model.heads (layer.vProj token.flatten)
      -- The positions are counted from zero in place, so the later layers see them too.
      let positions ← fromZero expertPositionId
      let mask := (attentionMask.drop (attentionMask.length - expertInputs.length)).map (·.take keyStates.length)
      let queryStates ← model.applyRope queries positions
      let attOutput ← model.eagerAttentionForward mask queryStates keyStates valueStates
      pure (some attOutput, positions)

/-- `forward_cross_attn_layer`. Without a cache the expert's positions are a view into `position_ids`, so
that counting them from zero in place changes the positions of the layers after it too. -/
def forwardCrossAttnLayer (layers : List (Option (Layer Scalar))) (inputsEmbeds : InputsEmbeds Scalar) (layerIdx : Nat)
    (positionIds : List Int) (attentionMask : List (List Bool)) (useCache fillKvCache : Bool)
    (past : Option (Cache Scalar)) :
    Except Fault (List (Option (List (Vec Scalar))) × List Int × Option (Cache Scalar)) :=
  if inputsEmbeds.length = 2 ∨ (useCache = true ∧ past.isSome = true ∧ fillKvCache = false) then do
    let before ← model.crossPrefix layers inputsEmbeds positionIds attentionMask past
    let (entry, past) ← crossCache layerIdx useCache fillKvCache past before.entry
    match entry with
    | none => .error (.runtimeError "Missing key/value states for cross attention.")
    | some entry => do
      let (attOutput, positions) ← model.crossExpert layers inputsEmbeds attentionMask before.expertPositionId entry
      -- the positions of the cached path are a copy
      let positionIds := if before.attOutputs.isEmpty then positionIds else before.ahead ++ positions
      pure (before.attOutputs ++ [attOutput], positionIds, past)
  else .error (.valueError "inputs_embeds")

/-! ### The forward pass -/

/-- The output projection, the residuals and the feed-forward block of a layer, for one token. -/
def feedToken (layer : Layer Scalar) (att hidden : Vec Scalar) : Vec Scalar :=
  let outEmb := model.add (layer.oProj att) hidden
  model.add (layer.mlp (layer.postAttentionLayernorm outEmb)) outEmb

def feedForward (layer : Layer Scalar) (attOut hiddenStates : List (Vec Scalar)) : Except Fault (List (Vec Scalar)) :=
  if attOut.length = hiddenStates.length then .ok (attOut.zipWith (model.feedToken layer) hiddenStates)
  else .error .shapes

/-- The outputs of a layer, part by part; `start` is where the next part's rows begin. -/
def feedAll (attOutputs : List (Option (List (Vec Scalar)))) :
    Nat → Nat → List (Option (List (Vec Scalar)) × Option (Layer Scalar)) → Except Fault (InputsEmbeds Scalar)
  | _, _, [] => .ok []
  | i, start, (none, _) :: rest => do
    let later ← feedAll attOutputs (i + 1) start rest
    pure (none :: later)
  | i, start, (some hiddenStates, none) :: rest => do
    let later ← feedAll attOutputs (i + 1) start rest
    pure (some hiddenStates :: later)
  | i, start, (some hiddenStates, some layer) :: rest =>
    match if i < attOutputs.length then attOutputs[i]?.join else attOutputs[0]?.join with
    | none => .error .shapes
    | some attOutput => do
      -- One output for all streams is cut at their lengths; an output of its own starts at 0.
      let stop := start + hiddenStates.length
      let outEmb ← model.feedForward layer ((attOutput.take stop).drop start) hiddenStates
      let later ← feedAll attOutputs (i + 1) (if attOutputs.length = 1 then stop else 0) rest
      pure (some outEmb :: later)

/-- Whether a layer mixes all tokens with each other. -/
def selfAttends (layerIdx : Nat) : Bool :=
  !decide ("cross".toList <:+: model.attentionMode) ||
    (decide (0 < model.selfAttnEveryNLayers) && decide ((layerIdx : Int) % model.selfAttnEveryNLayers = 0))

structure Hidden (Scalar : Type) where
  inputsEmbeds : InputsEmbeds Scalar
  positionIds : List Int
  pastKeyValues : Option (Cache Scalar)

def forwardLayer (attentionMask : List (List Bool)) (useCache fillKvCache : Bool) (layers : List (Option (Layer Scalar)))
    (layerIdx : Nat) (hidden : Hidden Scalar) : Except Fault (Hidden Scalar) :=
  -- The filling pass has no suffix and attends to itself at every layer.
  if fillKvCache || model.selfAttends layerIdx then do
    let (attOutputs, past) ← model.forwardAttnLayer layers hidden.inputsEmbeds layerIdx hidden.positionIds attentionMask
      useCache fillKvCache hidden.pastKeyValues
    let outputs ← model.feedAll attOutputs 0 0 (hidden.inputsEmbeds.zip layers)
    pure ⟨outputs, hidden.positionIds, past⟩
  else do
    let (attOutputs, positionIds, past) ← model.forwardCrossAttnLayer layers hidden.inputsEmbeds layerIdx
      hidden.positionIds attentionMask useCache fillKvCache hidden.pastKeyValues
    let outputs ← model.feedAll attOutputs 0 0 (hidden.inputsEmbeds.zip layers)
    pure ⟨outputs, positionIds, past⟩

def forwardLayers (attentionMask : List (List Bool)) (useCache fillKvCache : Bool) :
    List (List (Option (Layer Scalar))) → Nat → Hidden Scalar → Except Fault (Hidden Scalar)
  | [], _, hidden => .ok hidden
  | layers :: rest, layerIdx, hidden => do
    let next ← model.forwardLayer attentionMask useCache fillKvCache layers layerIdx hidden
    forwardLayers attentionMask useCache fillKvCache rest (layerIdx + 1) next

/-- `_SmolVLMWithExpertModel.forward`. -/
def forward (attentionMask : List (List Bool)) (positionIds : List Int) (past : Option (Cache Scalar))
    (inputsEmbeds : InputsEmbeds Scalar) (useCache fillKvCache : Bool) :
    Except Fault (InputsEmbeds Scalar × Option (Cache Scalar)) := do
  let final ← model.forwardLayers attentionMask useCache fillKvCache model.getModelLayers 0
    ⟨inputsEmbeds, positionIds, past⟩
  pure ((final.inputsEmbeds.zip [model.vlmNorm, model.expertNorm]).map fun part => part.1.map (·.map part.2),
    final.pastKeyValues)

end VlmWithExpert

/-! ### The prefix and the suffix -/

inductive RobotState (Scalar : Type) where
  | single (state : Vec Scalar)
  | steps (states : List (Vec Scalar))

structure Observation (Scalar Image : Type) where
  images : List Image
  imgMasks : List Bool
  langTokens : List Int
  langMasks : List Bool
  state : Option (RobotState Scalar)

structure FlowMatching (Scalar Score Image : Type) where
  vlmWithExpert : VlmWithExpert Scalar Score
  embedImage : Image → List (Vec Scalar)
  embedLanguageToken : Int → Vec Scalar
  /-- The embedding times the root of its width. -/
  scaled : Vec Scalar → Vec Scalar
  stateProj : Vec Scalar → Vec Scalar
  /-- The padding of the prefix. -/
  zeroEmbedding : Vec Scalar
  /-- A noisy action, fused with its time and, when it is distilled, its target time. -/
  embedAction : Vec Scalar → ℚ → Option ℚ → Vec Scalar
  actionOutProj : Vec Scalar → Vec Scalar
  addImageSpecialTokens : Bool
  globalImageStartToken : List Int
  imageEndToken : List Int
  prefixLength : Int
  chunkSize : Nat
  numSteps : Nat
  useCache : Bool
  snapflowEnabled : Bool
  snapflowNumInferenceSteps : Nat
  /-- One action moved along its velocity for a step of time. -/
  advance : ℚ → Vec Scalar → Vec Scalar → Vec Scalar

structure Prefix (Scalar : Type) where
  embs : List (Vec Scalar)
  padMasks : List Bool
  attMasks : List Nat

namespace FlowMatching

variable (model : FlowMatching Scalar Score Image)

def specialTokens (tokens : List Int) : Prefix Scalar :=
  if model.addImageSpecialTokens then
    ⟨tokens.map model.embedLanguageToken, tokens.map fun _ => true, tokens.map fun _ => 0⟩
  else ⟨[], [], []⟩

def imageTokens (image : Image) (imgMask : Bool) : Prefix Scalar where
  embs := (model.embedImage image).map model.scaled
  padMasks := (model.embedImage image).map fun _ => imgMask
  attMasks := (model.embedImage image).map fun _ => 0

def prefixParts (observation : Observation Scalar Image) (states : List (Vec Scalar)) : List (Prefix Scalar) :=
  (observation.images.zip observation.imgMasks).flatMap (fun view =>
    [model.specialTokens model.globalImageStartToken, model.imageTokens view.1 view.2,
      model.specialTokens model.imageEndToken]) ++
  [⟨observation.langTokens.map fun token => model.scaled (model.embedLanguageToken token), observation.langMasks,
      observation.langTokens.map fun _ => 0⟩,
    -- the image and the language do not attend to the state, nor to the actions
    ⟨states.map model.stateProj, states.map fun _ => true, states.map fun _ => 1⟩]

def padTensor {Item : Type} (length : Int) (pad : Item) (row : List Item) : List Item :=
  row ++ List.replicate (length.toNat - row.length) pad

def states : RobotState Scalar → List (Vec Scalar)
  | .single state => [state]
  | .steps states => states

def embedPrefix (observation : Observation Scalar Image) : Except Fault (Prefix Scalar) :=
  match observation.state with
  | none => .error (.valueError "state must be provided to embed_prefix.")
  | some state =>
    let parts := model.prefixParts observation (states state)
    .ok ⟨padTensor model.prefixLength model.zeroEmbedding (parts.flatMap (·.embs)),
      padTensor model.prefixLength false (parts.flatMap (·.padMasks)),
      padTensor model.prefixLength 0 (parts.flatMap (·.attMasks))⟩

def embedSuffix (noisyActions : List (Vec Scalar)) (timestep : ℚ) (targetTime : Option ℚ) : Prefix Scalar where
  embs := noisyActions.map fun action =>
    model.embedAction action timestep (if model.snapflowEnabled then targetTime else none)
  padMasks := noisyActions.map fun _ => true
  attMasks := List.replicate model.chunkSize 1

/-- The velocity of the last tokens of the expert. -/
def velocity (outputs : InputsEmbeds Scalar) : Except Fault (List (Vec Scalar)) :=
  match outputs[1]?.join with
  | none => .error .shapes
  | some suffixOut =>
    .ok ((if model.chunkSize = 0 then suffixOut else suffixOut.drop (suffixOut.length - model.chunkSize)).map
      model.actionOutProj)

def predictVelocity (ahead : Prefix Scalar) (xT : List (Vec Scalar)) (timestep : ℚ) (targetTime : Option ℚ) :
    Except Fault (List (Vec Scalar)) := do
  let suffix := model.embedSuffix xT timestep targetTime
  let padMasks := ahead.padMasks ++ suffix.padMasks
  let att2dMasks ← makeAtt2dMasks padMasks (ahead.attMasks ++ suffix.attMasks)
  let (outputs, _) ← model.vlmWithExpert.forward att2dMasks (positionsOf padMasks) none
    [some ahead.embs, some suffix.embs] false false
  model.velocity outputs

def fillCache (ahead : Prefix Scalar) : Except Fault (Option (Cache Scalar)) := do
  let att2dMasks ← makeAtt2dMasks ahead.padMasks ahead.attMasks
  let (_, past) ← model.vlmWithExpert.forward att2dMasks (positionsOf ahead.padMasks) none [some ahead.embs, none]
    model.useCache true
  pure past

def denoiseStep (prefixPadMasks : List Bool) (past : Option (Cache Scalar)) (xT : List (Vec Scalar)) (timestep : ℚ)
    (targetTime : Option ℚ) : Except Fault (List (Vec Scalar)) := do
  let suffix := model.embedSuffix xT timestep targetTime
  let suffixAtt2dMasks ← makeAtt2dMasks suffix.padMasks suffix.attMasks
  let fullAtt2dMasks := suffixAtt2dMasks.map (prefixPadMasks ++ ·)
  let prefixOffset : Int := (prefixPadMasks.map Bool.toNat).sum
  let positionIds := (positionsOf suffix.padMasks).map (prefixOffset + ·)
  let (outputs, _) ← model.vlmWithExpert.forward fullAtt2dMasks positionIds past [none, some suffix.embs] model.useCache
    false
  model.velocity outputs

def snapflowNumSteps : Nat := if model.snapflowEnabled then model.snapflowNumInferenceSteps else model.numSteps

def snapflowTargetTime (time : ℚ) : Option ℚ := some (if model.snapflowEnabled then 0 else time)

def moved (step : ℚ) (xT vT : List (Vec Scalar)) : Except Fault (List (Vec Scalar)) :=
  if xT.length = vT.length then .ok (xT.zipWith (model.advance step) vT) else .error .shapes

/-- The guidance of real-time chunking, where a previous chunk and its weights are given. -/
abbrev RtcCorrect (Scalar : Type) := List (Vec Scalar) → List (Vec Scalar) → ℚ → List (Vec Scalar)

def corrected (rtcCorrect : Option (RtcCorrect Scalar)) (xT vT : List (Vec Scalar)) (time : ℚ) : List (Vec Scalar) :=
  match rtcCorrect with
  | none => vT
  | some correct => correct xT vT time

def denoisingLoop (velocityAt : List (Vec Scalar) → ℚ → Option ℚ → Except Fault (List (Vec Scalar)))
    (rtcCorrect : Option (RtcCorrect Scalar)) (step : ℚ) : List Nat → List (Vec Scalar) → Except Fault (List (Vec Scalar))
  | [], xT => .ok xT
  | index :: rest, xT => do
    let time := 1 + index * step
    let vT ← velocityAt xT time (model.snapflowTargetTime time)
    let next ← model.moved step xT (corrected rtcCorrect xT vT time)
    denoisingLoop velocityAt rtcCorrect step rest next

def integrate (velocityAt : List (Vec Scalar) → ℚ → Option ℚ → Except Fault (List (Vec Scalar)))
    (rtcCorrect : Option (RtcCorrect Scalar)) (noise : List (Vec Scalar)) : Except Fault (List (Vec Scalar)) :=
  if model.snapflowNumSteps = 0 then .error .zeroDivisionError
  else model.denoisingLoop velocityAt rtcCorrect (-1 / model.snapflowNumSteps) (List.range model.snapflowNumSteps) noise

def sampleActions (observation : Observation Scalar Image) (noise : List (Vec Scalar))
    (rtcCorrect : Option (RtcCorrect Scalar)) : Except Fault (List (Vec Scalar)) := do
  let ahead ← model.embedPrefix observation
  let past ← model.fillCache ahead
  model.integrate (model.denoiseStep ahead.padMasks past) rtcCorrect noise

end FlowMatching

end PhysicalAiStudio.Policies.SmolVla
