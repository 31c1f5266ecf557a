import PhysicalAiStudio.Collections.Dict
import PhysicalAiStudio.Strings.Text
import Mathlib.Data.Rat.Defs

/-! The feature normalization that policies share: `policies/utils/normalization.py`.

A batch is a dictionary from names to tensors. The transform goes over its features and, for each
of them, over the names of the batch, and transforms the entries whose names match.
-/

set_option autoImplicit false

namespace PhysicalAiStudio.Policies.Normalization
open Collections Strings

/-- The operations on tensors that the transform is written with; they broadcast. -/
class TensorOps (T : Type) extends Add T, Sub T, Mul T, Div T where
  scalar : ℚ → T
  anyInf : T → Bool
  isZero : T → T
  select : T → T → T → T
  view : List Nat → T → Option T

inductive FeatureType where
  | visual | action | state | env
  deriving DecidableEq, Repr

def FeatureType.str : FeatureType → Text
  | .visual => "VISUAL".toList
  | .action => "ACTION".toList
  | .state => "STATE".toList
  | .env => "ENV".toList

inductive NormalizationType where
  | minMax | meanStd | quantiles | identity
  deriving DecidableEq, Repr

/-- A statistic as the caller gives it: something `torch` makes a tensor of, or a value of another type. -/
inductive NormalizationValue (T : Type) where
  | array (values : T)
  | other (type : Text)

structure NormalizationParameters (T : Type) where
  mean : NormalizationValue T
  std : NormalizationValue T
  min : NormalizationValue T
  max : NormalizationValue T
  q01 : NormalizationValue T
  q99 : NormalizationValue T
  mask : Option T

structure Feature (T : Type) where
  normalizationData : Option (NormalizationParameters T)
  ftype : Option FeatureType
  shape : Option (List Nat)

inductive Error where
  | keyError (key : Text)
  | valueError (message : Text)
  | typeError (message : Text)
  | attributeError
  | runtimeError
  deriving DecidableEq, Repr

/-- The statistics of one feature, by the names they are stored under. -/
structure Buffer (T : Type) where
  mean : Option T := none
  std : Option T := none
  min : Option T := none
  max : Option T := none
  q01 : Option T := none
  q99 : Option T := none
  mask : Option T := none

variable {T : Type} [TensorOps T]

def Buffer.statistics (buffer : Buffer T) : List T :=
  [buffer.mean, buffer.std, buffer.min, buffer.max, buffer.q01, buffer.q99].filterMap id

/-! ### The constructor -/

def reprShape : List Nat → Text
  | [] => "()".toList
  | [n] => "(".toList ++ decimal n ++ ",)".toList
  | n :: rest => "(".toList ++ decimal n ++ rest.flatMap (fun m => ", ".toList ++ decimal m) ++ ")".toList

def getTorchTensor (arr : NormalizationValue T) (shape : List Nat) : Except Error T :=
  match arr with
  | .array values => (TensorOps.view shape values).elim (.error .runtimeError) .ok
  | .other type =>
    .error (.typeError ("list, int, np.ndarray, or torch.Tensor expected, but type is '".toList ++ type ++
      "' instead.".toList))

/-- The shape of the statistics of a feature; that of an image does not depend on its height and width. -/
def statShape (key : Text) (ft : Feature T) : Except Error (List Nat) :=
  let shape := ft.shape.getD []
  if ft.ftype = some .visual then
    match shape with
    | [c, h, w] =>
      if c < h ∧ c < w then .ok [c, 1, 1]
      else .error (.valueError (key ++ " is not channel first (shape=".toList ++ reprShape shape ++ ")".toList))
    | _ =>
      .error (.valueError ("number of dimensions of ".toList ++ key ++ " != 3 (shape=".toList ++ reprShape shape ++
        ")".toList))
  else .ok shape

/-- How the constructor normalizes a feature: one whose type has no entry is left alone. -/
def normMode (normMap : Dict FeatureType NormalizationType) (ft : Feature T) : NormalizationType :=
  (ft.ftype.bind normMap.get?).getD .identity

def modeBuffer (mode : NormalizationType) (shape : List Nat) (data : NormalizationParameters T) :
    Except Error (Buffer T) :=
  match mode with
  | .meanStd => do
    let mean ← getTorchTensor data.mean shape
    let std ← getTorchTensor data.std shape
    pure { mean := some mean, std := some std }
  | .minMax => do
    let min ← getTorchTensor data.min shape
    let max ← getTorchTensor data.max shape
    pure { min := some min, max := some max }
  | .quantiles => do
    let q01 ← getTorchTensor data.q01 shape
    let q99 ← getTorchTensor data.q99 shape
    pure { q01 := some q01, q99 := some q99 }
  | .identity => pure {}

def statsBuffer (mode : NormalizationType) (shape : List Nat) (data : NormalizationParameters T) :
    Except Error (Buffer T) := do
  let buffer ← modeBuffer mode shape data
  match data.mask with
  | none => pure buffer
  | some mask => do
    let viewed ← getTorchTensor (.array mask) shape
    pure { buffer with mask := some viewed }

def createStatsBuffer (normMap : Dict FeatureType NormalizationType) (key : Text) (ft : Feature T)
    (buffers : Dict Text (Buffer T)) : Except Error (Dict Text (Buffer T)) :=
  if normMode normMap ft = .identity then .ok buffers
  else do
    let shape ← statShape key ft
    match ft.normalizationData with
    | none => .error .attributeError
    | some data => do
      let buffer ← statsBuffer (normMode normMap ft) shape data
      pure (buffers.set key buffer)

def createStatsBuffers (features : Dict Text (Feature T)) (normMap : Dict FeatureType NormalizationType) :
    Except Error (Dict Text (Buffer T)) :=
  features.items.foldlM (fun buffers feature => createStatsBuffer normMap feature.1 feature.2 buffers) ∅

structure FeatureNormalizeTransform (T : Type) where
  features : Dict Text (Feature T)
  normMap : Dict Text NormalizationType
  inverse : Bool
  buffersLookup : Dict Text (Buffer T)

def create (features : Dict Text (Feature T)) (normMap : Dict FeatureType NormalizationType) (inverse : Bool) :
    Except Error (FeatureNormalizeTransform T) := do
  let buffers ← createStatsBuffers features normMap
  pure {
    features := features
    normMap := normMap.mapKeys FeatureType.str
    inverse := inverse
    buffersLookup := buffers }

def Buffer.Serves (buffer : Buffer T) : NormalizationType → Prop
  | .meanStd => buffer.mean.isSome ∧ buffer.std.isSome
  | .minMax => buffer.min.isSome ∧ buffer.max.isSome
  | .quantiles => buffer.q01.isSome ∧ buffer.q99.isSome
  | .identity => True

theorem bind_ok {ε α β : Type} {x : Except ε α} {f : α → Except ε β} {b : β} (ran : x >>= f = .ok b) :
    ∃ a, x = .ok a ∧ f a = .ok b := by
  cases x with
  | error _ => cases ran
  | ok a => exact ⟨a, rfl, ran⟩

theorem statsBuffer_serves {mode : NormalizationType} {shape : List Nat} {data : NormalizationParameters T}
    {buffer : Buffer T} (made : statsBuffer mode shape data = .ok buffer) : buffer.Serves mode := by
  unfold statsBuffer at made
  obtain ⟨bare, filled, rest⟩ := bind_ok made
  have served : bare.Serves mode := by
    cases mode with
    | identity => trivial
    | meanStd | minMax | quantiles =>
      obtain ⟨first, _, filled⟩ := bind_ok filled
      obtain ⟨second, _, filled⟩ := bind_ok filled
      cases filled
      exact ⟨rfl, rfl⟩
  -- The mask is added beside the statistics.
  cases mask : data.mask with
  | none =>
    rw [mask] at rest
    cases rest
    exact served
  | some given =>
    rw [mask] at rest
    obtain ⟨viewed, _, added⟩ := bind_ok rest
    cases added
    cases mode <;> exact served

theorem createStatsBuffer_other {normMap : Dict FeatureType NormalizationType} {key other : Text} {ft : Feature T}
    {buffers after : Dict Text (Buffer T)} (made : createStatsBuffer normMap key ft buffers = .ok after)
    (apart : other ≠ key) : after.get? other = buffers.get? other := by
  unfold createStatsBuffer at made
  split at made
  · cases made
    rfl
  · obtain ⟨shape, _, made⟩ := bind_ok made
    cases given : ft.normalizationData with
    | none =>
      rw [given] at made
      cases made
    | some data =>
      rw [given] at made
      obtain ⟨buffer, _, made⟩ := bind_ok made
      cases made
      exact Dict.get?_set_ne buffers buffer apart

theorem createStatsBuffer_serves {normMap : Dict FeatureType NormalizationType} {key : Text} {ft : Feature T}
    {buffers after : Dict Text (Buffer T)} (made : createStatsBuffer normMap key ft buffers = .ok after)
    (normalized : normMode normMap ft ≠ .identity) :
    ∃ buffer, after.get? key = some buffer ∧ buffer.Serves (normMode normMap ft) := by
  unfold createStatsBuffer at made
  rw [if_neg normalized] at made
  obtain ⟨shape, _, made⟩ := bind_ok made
  cases given : ft.normalizationData with
  | none =>
    rw [given] at made
    cases made
  | some data =>
    rw [given] at made
    obtain ⟨buffer, filled, made⟩ := bind_ok made
    cases made
    exact ⟨buffer, Dict.get?_set_self buffers key buffer, statsBuffer_serves filled⟩

theorem createStatsBuffers_serves {normMap : Dict FeatureType NormalizationType} {items : List (Text × Feature T)}
    {buffers after : Dict Text (Buffer T)}
    (made : items.foldlM (fun buffers feature => createStatsBuffer normMap feature.1 feature.2 buffers) buffers =
      .ok after) (nodup : (items.map Prod.fst).Nodup) :
    (∀ other ∉ items.map Prod.fst, after.get? other = buffers.get? other) ∧
      ∀ feature ∈ items, normMode normMap feature.2 ≠ .identity →
        ∃ buffer, after.get? feature.1 = some buffer ∧ buffer.Serves (normMode normMap feature.2) := by
  induction items generalizing buffers with
  | nil =>
    cases made
    exact ⟨fun _ _ => rfl, fun _ listed => absurd listed List.not_mem_nil⟩
  | cons feature rest ih =>
    rw [List.foldlM_cons] at made
    obtain ⟨next, first, later⟩ := bind_ok made
    simp only [List.map_cons, List.nodup_cons] at nodup
    obtain ⟨kept, served⟩ := ih later nodup.2
    constructor
    · intro other absent
      simp only [List.map_cons, List.mem_cons, not_or] at absent
      exact (kept other absent.2).trans (createStatsBuffer_other first absent.1)
    · intro listed member normalized
      rcases List.mem_cons.mp member with here | there
      · subst here
        obtain ⟨buffer, stored, serves⟩ := createStatsBuffer_serves first normalized
        exact ⟨buffer, (kept _ nodup.1).trans stored, serves⟩
      · exact served listed there normalized

theorem create_serves {features : Dict Text (Feature T)} {normMap : Dict FeatureType NormalizationType} {inverse : Bool}
    {t : FeatureNormalizeTransform T} (made : create features normMap inverse = .ok t) {name : Text} {ft : Feature T}
    (listed : (name, ft) ∈ features.items) (normalized : normMode normMap ft ≠ .identity) :
    ∃ buffer, t.buffersLookup.get? name = some buffer ∧ buffer.Serves (normMode normMap ft) := by
  obtain ⟨buffers, created, made⟩ := bind_ok made
  cases made
  exact (createStatsBuffers_serves created features.items_keys_nodup).2 (name, ft) listed normalized

/-! ### The pass over a batch -/

def images : Text := "images".toList

/-- When the entry of the batch under `batchKey` is taken for the feature `rawName`. -/
def Matches (rawName batchKey : Text) : Prop :=
  batchKey = rawName ∨ ('.' :: rawName) <:+ batchKey ∨ ('.' :: batchKey) <:+ rawName ∨
    (rawName = images ∧ (batchKey = images ∨ (images ++ ['.']) <+: batchKey ∨ ('.' :: images ++ ['.']) <:+: batchKey))

instance (rawName batchKey : Text) : Decidable (Matches rawName batchKey) :=
  inferInstanceAs (Decidable (_ ∨ _ ∨ _ ∨ (_ ∧ (_ ∨ _ ∨ _))))

def strFtype (ft : Feature T) : Text := ft.ftype.elim "None".toList FeatureType.str

def getItem (stat : Option T) (name : Text) : Except Error T := stat.elim (.error (.keyError name)) .ok

/-- `check_inf`, which does nothing while the module is traced or compiled. -/
def checkInf (eager : Bool) (t : T) (name : Text) : Except Error Unit :=
  if eager && TensorOps.anyInf t then
    .error (.valueError ("Normalization buffer '".toList ++ name ++
      ("' is infinity. You should either initialize model with correct features stats, " ++
        "or use a pretrained model.").toList))
  else .ok ()

def transformed (eager : Bool) (mode : NormalizationType) (buffer : Buffer T) (inverse : Bool) (value : T) :
    Except Error (Option T) :=
  let scalar : ℚ → T := TensorOps.scalar
  match mode with
  | .meanStd => do
    let mean ← getItem buffer.mean "mean".toList
    let std ← getItem buffer.std "std".toList
    checkInf eager mean "mean".toList
    checkInf eager std "std".toList
    pure (some (if inverse then value * std + mean else (value - mean) / (std + scalar (1 / 100000000))))
  | .minMax => do
    let min ← getItem buffer.min "min".toList
    let max ← getItem buffer.max "max".toList
    checkInf eager min "min".toList
    checkInf eager max "max".toList
    pure (some (if inverse then (value + scalar 1) / scalar 2 * (max - min) + min
      else (value - min) / (max - min + scalar (1 / 100000000)) * scalar 2 - scalar 1))
  | .quantiles => do
    let q01 ← getItem buffer.q01 "q01".toList
    let q99 ← getItem buffer.q99 "q99".toList
    checkInf eager q01 "q01".toList
    checkInf eager q99 "q99".toList
    -- A width of zero is replaced by the small number; the other modes add it to every width.
    let width := q99 - q01
    let denom := TensorOps.select (TensorOps.isZero width) (scalar (1 / 100000000)) width
    pure (some (if inverse then (value + scalar 1) * denom / scalar 2 + q01
      else scalar 2 * (value - q01) / denom - scalar 1))
  | .identity => pure none

def masked (buffer : Buffer T) (value result : T) : T :=
  buffer.mask.elim result fun mask => TensorOps.select mask result value

/-- The batch while it is gone over, with the writes made so far: the name written and the feature it was taken for. -/
structure Pass (T : Type) where
  batch : Dict Text (Option T)
  writes : List (Text × Text) := []

/-- `_apply_normalization`; `rawName` is kept for the record of the write only. -/
def applyNormalization (eager : Bool) (pass : Pass T) (key rawName : Text) (mode : NormalizationType)
    (buffer : Buffer T) (inverse : Bool) : Except Error (Pass T) :=
  match pass.batch.get? key with
  | none => .error (.keyError key)
  | some none => .ok pass
  | some (some value) => do
    match ← transformed eager mode buffer inverse value with
    | none => pure pass
    | some result => pure {
        batch := pass.batch.set key (some (masked buffer value result))
        writes := pass.writes ++ [(key, rawName)] }

namespace FeatureNormalizeTransform

/-- One turn of the inner loop of `forward`. -/
def visit (t : FeatureNormalizeTransform T) (eager : Bool) (feature : Text × Feature T) (pass : Pass T)
    (batchKey : Text) : Except Error (Pass T) :=
  if Matches feature.1 batchKey then
    match t.normMap.get? (strFtype feature.2) with
    | none => .error (.keyError (strFtype feature.2))
    | some mode =>
      applyNormalization eager pass batchKey feature.1 mode ((t.buffersLookup.get? feature.1).getD {}) t.inverse
  else .ok pass

def forward (t : FeatureNormalizeTransform T) (eager : Bool) (batch : Dict Text (Option T)) : Except Error (Pass T) :=
  t.features.items.foldlM (fun pass feature => batch.keys.foldlM (t.visit eager feature) pass) { batch := batch }

end FeatureNormalizeTransform

/-! ### What a transform reads -/

theorem str_injective : Function.Injective FeatureType.str := by
  intro a b same
  cases a <;> cases b <;> first | rfl | exact absurd same (by decide)

omit [TensorOps T] in
/-- The lookup of the pass finds the mode of the constructor where the type has an entry, and raises elsewhere. -/
theorem lookup_strFtype (normMap : Dict FeatureType NormalizationType) (ft : Feature T) :
    (normMap.mapKeys FeatureType.str).get? (strFtype ft) = ft.ftype.bind normMap.get? := by
  unfold strFtype
  cases ft.ftype with
  | some type => exact Dict.get?_mapKeys normMap str_injective type
  | none =>
    refine Dict.get?_mapKeys_of_absent normMap ?_
    intro type
    cases type <;> decide

def FeatureNormalizeTransform.Finite (t : FeatureNormalizeTransform T) (eager : Bool) : Prop :=
  ∀ name buffer, t.buffersLookup.get? name = some buffer → ∀ stat ∈ buffer.statistics,
    (eager && TensorOps.anyInf stat) = false

theorem checkInf_ok {eager : Bool} {stat : T} {name : Text} (finite : (eager && TensorOps.anyInf stat) = false) :
    checkInf eager stat name = .ok () := by
  simp [checkInf, finite]

theorem transformed_ok {eager inverse : Bool} {mode : NormalizationType} {buffer : Buffer T}
    (normalized : mode ≠ .identity) (serves : buffer.Serves mode)
    (finite : ∀ stat ∈ buffer.statistics, (eager && TensorOps.anyInf stat) = false) (value : T) :
    ∃ result, transformed eager mode buffer inverse value = .ok (some result) := by
  cases mode with
  | identity => exact absurd rfl normalized
  | meanStd | minMax | quantiles =>
    obtain ⟨first, second⟩ := serves
    obtain ⟨a, first⟩ := Option.isSome_iff_exists.mp first
    obtain ⟨b, second⟩ := Option.isSome_iff_exists.mp second
    have checkedA := finite a (by simp [Buffer.statistics, first])
    have checkedB := finite b (by simp [Buffer.statistics, second])
    simp only [transformed, first, second, getItem, Option.elim, bind, Except.bind, checkInf_ok checkedA,
      checkInf_ok checkedB]
    exact ⟨_, rfl⟩

end PhysicalAiStudio.Policies.Normalization
