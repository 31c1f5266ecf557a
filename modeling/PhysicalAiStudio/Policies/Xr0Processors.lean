import PhysicalAiStudio.Numeric.Tensor
import PhysicalAiStudio.Policies.Normalization

/-! The state and action transforms around the XR0 network: `policies/xr0/preprocessor.py`.

Tensors hold exact rationals. The images, the prompt and the tokens of a batch are left out: they
are read by no transform of the state or of the action.
-/

set_option autoImplicit false

namespace PhysicalAiStudio.Policies.Xr0
open Numeric Strings Normalization

inductive Error where
  | valueError (message : Text)
  | indexError
  | runtimeError
  deriving DecidableEq, Repr

/-- What a tensor operation returns, or the exception it raises instead. -/
def orRaise {α : Type} (error : Error) : Option α → Except Error α
  | none => .error error
  | some value => .ok value

inductive ActionMode where
  | absolute | delta
  deriving DecidableEq, Repr

/-- Statistics as `torch.as_tensor` reads them. -/
inductive Stats where
  | vector (width : Nat) (entry : Fin width → ℚ)
  | table (values : Tensor2 ℚ)
  | other (shape : List Nat) (ndim : shape.length ≠ 1 ∧ shape.length ≠ 2)

def Stats.shape : Stats → List Nat
  | .vector width _ => [width]
  | .table values => [values.rows, values.width]
  | .other shape _ => shape

structure NormalizationParameters where
  mean : Option Stats
  std : Option Stats

structure Feature where
  normalizationData : Option NormalizationParameters
  ftype : Option FeatureType
  shape : Option (List Nat)

/-- The state of a batch: its current frame, or its last frames. -/
inductive RawState where
  | frame (values : Tensor2 ℚ)
  | history (values : Tensor3 ℚ)

/-- The current frame of every sample, with an axis for the steps. -/
def RawState.current : RawState → Option (Tensor3 ℚ)
  | .frame values => some values.unsqueeze
  | .history values => values.last

/-! ### Normalization -/

def actionEps : ℚ := 1 / 1000000

def scale (std : Tensor2 ℚ) : Tensor2 ℚ :=
  .generate std.rows std.width fun step channel => std.get step channel + actionEps

def normalizeAction (action : Tensor3 ℚ) (mean std : Tensor2 ℚ) : Option (Tensor3 ℚ) := do
  let centred ← action.broadcast (· - ·) mean.lift
  centred.broadcast (· / ·) (scale std).lift

def denormalizeAction (action : Tensor3 ℚ) (mean std : Tensor2 ℚ) : Option (Tensor3 ℚ) := do
  let scaled ← action.broadcast (· * ·) (scale std).lift
  scaled.broadcast (· + ·) mean.lift

def Stats.perTimestep (chunkSize : Nat) : Stats → Option (Tensor2 ℚ)
  | .vector width entry => if chunkSize = 1 then some ⟨1, width, fun _ => entry⟩ else none
  | .table values => if values.rows = chunkSize then some values else none
  | .other _ _ => none

def toChunkStats (mean std : Stats) (chunkSize dim : Nat) (name : Text) :
    Except Error (Tensor2 ℚ × Tensor2 ℚ) :=
  if mean.shape ≠ std.shape then
    .error (.valueError (name ++ " mean/std must have the same shape, got ".toList ++ reprShape mean.shape ++
      " and ".toList ++ reprShape std.shape))
  else
    match mean.perTimestep chunkSize, std.perTimestep chunkSize with
    | some tMean, some tStd =>
      -- Padded channels get a mean of 0 and a deviation of 1, which normalization leaves as they are.
      let width := min dim tMean.width
      .ok (.generate chunkSize dim (fun step channel => if channel < width then tMean.get step channel else 0),
        .generate chunkSize dim (fun step channel => if channel < width then tStd.get step channel else 1))
    | _, _ =>
      .error (.valueError (name ++ " stats must be per-timestep with shape (".toList ++ decimal chunkSize ++
        ", D), got ".toList ++ reprShape mean.shape ++ ". ".toList ++
        "Per-dimension stats are not broadcast over time; compute per-timestep stats with ".toList ++
        "physicalai.policies.xr0.compute_action_chunk_stats.".toList))

def featureStats (ftype : FeatureType) (features : List Feature) : Option (Feature × Stats × Stats) :=
  features.findSome? fun feature =>
    if feature.ftype = some ftype then
      match feature.normalizationData with
      | some ⟨some mean, some std⟩ => some (feature, mean, std)
      | _ => none
    else none

def identityStats (chunkSize dim : Nat) : Stats × Stats :=
  (.table (.generate chunkSize dim fun _ _ => 0), .table (.generate chunkSize dim fun _ _ => 1))

/-! ### The preprocessor -/

structure Preprocessor where
  maxStateDim : Nat
  maxActionDim : Nat
  chunkSize : Nat
  stateLen : Nat
  normalizeState : Bool
  actionMode : ActionMode
  actionMean : Tensor2 ℚ
  actionStd : Tensor2 ℚ
  stateMean : Tensor2 ℚ
  stateStd : Tensor2 ℚ

/-- What the constructors of both processors are called with. -/
structure Settings where
  maxStateDim : Nat
  maxActionDim : Nat
  features : List Feature
  chunkSize : Nat
  stateLen : Nat
  normalizeState : Bool
  stateMean : Option Stats
  stateStd : Option Stats
  actionMode : ActionMode
  actionMean : Option Stats
  actionStd : Option Stats

def Settings.actionStats (settings : Settings) : Stats × Stats :=
  match featureStats .action settings.features with
  | some (_, mean, std) => (mean, std)
  | none => identityStats settings.chunkSize settings.maxActionDim

def Settings.stateStats (settings : Settings) : Stats × Stats :=
  if settings.normalizeState then
    match featureStats .state settings.features with
    | some (_, mean, std) => (mean, std)
    | none => identityStats settings.stateLen settings.maxStateDim
  else identityStats settings.stateLen settings.maxStateDim

/-- Explicit statistics, where both are given, take precedence over those of the features. -/
def explicitOr (mean std : Option Stats) (derived : Stats × Stats) : Stats × Stats :=
  match mean, std with
  | some mean, some std => (mean, std)
  | _, _ => derived

def Preprocessor.init (settings : Settings) : Except Error Preprocessor := do
  let raw := explicitOr settings.actionMean settings.actionStd settings.actionStats
  let (mean, std) ← toChunkStats raw.1 raw.2 settings.chunkSize settings.maxActionDim "action".toList
  let raw := explicitOr settings.stateMean settings.stateStd settings.stateStats
  let (sMean, sStd) ← toChunkStats raw.1 raw.2 settings.stateLen settings.maxStateDim "state".toList
  pure { maxStateDim := settings.maxStateDim, maxActionDim := settings.maxActionDim, chunkSize := settings.chunkSize,
         stateLen := settings.stateLen, normalizeState := settings.normalizeState, actionMode := settings.actionMode,
         actionMean := mean, actionStd := std, stateMean := sMean, stateStd := sStd }

def Preprocessor.prepareState (pre : Preprocessor) (state : RawState) : Except Error (Tensor3 ℚ) := do
  let current ← orRaise .indexError state.current
  let padded := current.fit pre.maxStateDim
  if pre.normalizeState then orRaise .runtimeError (normalizeAction padded pre.stateMean pre.stateStd)
  else pure padded

/-- Combine an action with the current frame on the leading channels that both have. -/
def onOverlap (op : ℚ → ℚ → ℚ) (action current : Tensor3 ℚ) : Option (Tensor3 ℚ) :=
  let overlap := min action.width current.width
  if overlap < action.width then do
    let head ← (action.narrow overlap).broadcast op (current.narrow overlap)
    head.cat (action.rest overlap)
  else action.into op (current.narrow overlap)

def chunkLengthError (expected got : Nat) : Error :=
  .valueError ("expected an action chunk of ".toList ++ decimal expected ++
    " timesteps to match the per-timestep normalization stats, got ".toList ++ decimal got)

def Preprocessor.deltaAction (pre : Preprocessor) (action : Tensor3 ℚ) (state : Option RawState) :
    Except Error (Tensor3 ℚ) :=
  match pre.actionMode, state with
  | .absolute, _ => .ok action
  | .delta, none =>
    .error (.valueError "action_mode='delta' requires the current state to form the delta target.".toList)
  | .delta, some state => do
    let current ← orRaise .indexError state.current
    orRaise .runtimeError (onOverlap (· - ·) action current)

def Preprocessor.prepareAction (pre : Preprocessor) (action : Tensor3 ℚ) (state : Option RawState) :
    Except Error (Tensor3 ℚ × Tensor3 Int) :=
  if action.steps ≠ pre.chunkSize then .error (chunkLengthError pre.chunkSize action.steps)
  else do
    let action ← pre.deltaAction action state
    let realDim := min action.width pre.maxActionDim
    let normalized ← orRaise .runtimeError (normalizeAction (action.fit pre.maxActionDim) pre.actionMean pre.actionStd)
    pure (normalized, .generate normalized.batch normalized.steps normalized.width
      fun _ _ channel => if channel < realDim then 1 else 0)

/-! ### The postprocessor -/

structure Postprocessor where
  maxActionDim : Nat
  chunkSize : Nat
  actionDim : Option Nat
  actionMode : ActionMode
  actionMean : Tensor2 ℚ
  actionStd : Tensor2 ℚ

/-- The width a feature declares; one without a shape has that of its statistics. -/
def Feature.width (feature : Feature) (mean : Stats) : Except Error Nat :=
  match feature.shape.bind List.getLast? with
  | some width => .ok width
  | none => orRaise .indexError mean.shape.getLast?

def Settings.actionDim (settings : Settings) : Except Error (Option Nat) :=
  match featureStats .action settings.features with
  | some (feature, mean, _) => do
    let featDim ← feature.width mean
    pure (some (min settings.maxActionDim featDim))
  | none => pure none

def Postprocessor.init (settings : Settings) : Except Error Postprocessor := do
  let actionDim ← settings.actionDim
  let raw := explicitOr settings.actionMean settings.actionStd settings.actionStats
  let (mean, std) ← toChunkStats raw.1 raw.2 settings.chunkSize settings.maxActionDim "action".toList
  pure { maxActionDim := settings.maxActionDim, chunkSize := settings.chunkSize, actionDim := actionDim,
         actionMode := settings.actionMode, actionMean := mean, actionStd := std }

def Postprocessor.absoluteAction (post : Postprocessor) (action : Tensor3 ℚ) (state : Option RawState) :
    Except Error (Tensor3 ℚ) :=
  match post.actionMode, state with
  | .absolute, _ => .ok action
  | .delta, none =>
    .error (.valueError "action_mode='delta' requires the current state to invert the delta prediction.".toList)
  | .delta, some state => do
    let current ← orRaise .indexError state.current
    orRaise .runtimeError (onOverlap (· + ·) action current)

def Postprocessor.forward (post : Postprocessor) (action : Tensor3 ℚ) (state : Option RawState) :
    Except Error (Tensor3 ℚ) :=
  if action.steps ≠ post.chunkSize then .error (chunkLengthError post.chunkSize action.steps)
  else do
    let denormalized ← orRaise .runtimeError (denormalizeAction action post.actionMean post.actionStd)
    let action ← post.absoluteAction denormalized state
    match post.actionDim with
    | some actionDim => pure (action.narrow actionDim)
    | none => pure action

end PhysicalAiStudio.Policies.Xr0
