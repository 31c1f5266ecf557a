import PhysicalAiStudio.Policies.NormalizationRoundTrip

/-! Joint frames: `policies/utils/joint_transform.py`, and the transform that
`policies/molmoact2/so101.py` makes of a calibration.

Values, statistics and calibrations are exact rationals.
-/

set_option autoImplicit false

namespace PhysicalAiStudio.Policies.JointTransform
open Collections Numeric Strings
open Normalization (ExactTensor)

inductive Error where
  | valueError (message : Text)
  | invalidRange (joint : Text) (rangeMin rangeMax : ℚ)
  | indexError
  deriving DecidableEq

structure JointFrameTransform where
  signs : List ℚ
  offsets : List ℚ
  scales : List ℚ
  offsets_length : offsets.length = signs.length
  scales_length : scales.length = signs.length
  signs_unit : ∀ sign ∈ signs, sign = -1 ∨ sign = 1
  scales_pos : ∀ scale ∈ scales, 0 < scale

def create (signs offsets : List ℚ) (givenScales : Option (List ℚ)) : Except Error JointFrameTransform :=
  let scales := givenScales.getD (List.replicate signs.length 1)
  if lengths : offsets.length = signs.length ∧ scales.length = signs.length then
    if unit : ∀ sign ∈ signs, sign = -1 ∨ sign = 1 then
      if positive : ∀ scale ∈ scales, 0 < scale then
        .ok ⟨signs, offsets, scales, lengths.1, lengths.2, unit, positive⟩
      else .error (.valueError "Joint frame transform scales must be positive.".toList)
    else .error (.valueError "Joint frame transform signs must be either -1 or 1.".toList)
  else
    .error (.valueError ("signs (".toList ++ decimal signs.length ++ "), offsets (".toList ++
      decimal offsets.length ++ ") and scales (".toList ++ decimal scales.length ++ ") must match.".toList))

/-- What the constructor admits is stored as it was given. -/
theorem create_stores {signs offsets : List ℚ} {givenScales : Option (List ℚ)} {t : JointFrameTransform}
    (made : create signs offsets givenScales = .ok t) :
    t.signs = signs ∧ t.offsets = offsets ∧ t.scales = givenScales.getD (List.replicate signs.length 1) := by
  simp only [create] at made
  split at made
  · split at made
    · split at made
      · cases made
        exact ⟨rfl, rfl, rfl⟩
      · cases made
    · cases made
  · cases made

/-- A statistic of a feature: missing, a number for every dimension, a list of numbers, or a list of lists. -/
inductive Statistic where
  | absent
  | scalar (value : ℚ)
  | vector (values : List ℚ)
  | nested
  deriving DecidableEq

structure NormalizationParameters where
  mean : Statistic
  std : Statistic
  min : Statistic
  max : Statistic
  q01 : Statistic
  q99 : Statistic
  mask : Option (List Bool)
  deriving DecidableEq

namespace JointFrameTransform

def numJoints (t : JointFrameTransform) : Nat := t.signs.length

def sign (t : JointFrameTransform) (joint : Nat) : ℚ := t.signs.getD joint 1

def scale (t : JointFrameTransform) (joint : Nat) : ℚ := t.scales.getD joint 1

def offset (t : JointFrameTransform) (joint : Nat) : ℚ := t.offsets.getD joint 0

/-! ### Values -/

def applyJoint (t : JointFrameTransform) (inverse : Bool) (joint : Nat) (value : ℚ) : ℚ :=
  if inverse then t.sign joint * (value - t.offset joint) / t.scale joint
  else t.sign joint * t.scale joint * value + t.offset joint

def applyEntry (t : JointFrameTransform) (inverse : Bool) (width channel : Nat) (value : ℚ) : ℚ :=
  if channel < min t.numJoints width then t.applyJoint inverse channel value else value

/-- `_apply`: the joints are the leading entries along the last axis. -/
def apply (t : JointFrameTransform) (values : ExactTensor) (inverse : Bool) : Except Error ExactTensor :=
  match values.axes with
  | [] => .error .indexError
  | width :: _ =>
    .ok ⟨values.axes, fun index => (values.entry index).map (t.applyEntry inverse width (index.headD 0))⟩

def forward (t : JointFrameTransform) (values : ExactTensor) : Except Error ExactTensor := t.apply values false

def inverse (t : JointFrameTransform) (values : ExactTensor) : Except Error ExactTensor := t.apply values true

/-! ### Statistics -/

def statValues (statistic : Statistic) (dimension : Nat) : Except Error (Option (List ℚ)) :=
  match statistic with
  | .absent => .ok none
  | .scalar value => .ok (some (List.replicate dimension value))
  | .nested => .error (.valueError "Joint normalization statistics must be scalar or one-dimensional.".toList)
  | .vector values =>
    if values.length ≠ dimension then
      .error (.valueError ("Normalization statistic length ".toList ++ decimal values.length ++
        " does not match feature dimension ".toList ++ decimal dimension ++ ".".toList))
    else .ok (some values)

def statEntry (t : JointFrameTransform) (dimension : Nat) (includeOffset absoluteScale : Bool) (index : Nat)
    (value : ℚ) : ℚ :=
  if index < min t.numJoints dimension then
    let gain := t.sign index * t.scale index
    (if absoluteScale then |gain| else gain) * value + (if includeOffset then t.offset index else 0)
  else value

def transformStat (t : JointFrameTransform) (statistic : Statistic) (dimension : Nat)
    (includeOffset absoluteScale : Bool) : Except Error (Option (List ℚ)) := do
  let values ← statValues statistic dimension
  return values.map fun listed => listed.mapIdx (t.statEntry dimension includeOffset absoluteScale)

def transformBounds (t : JointFrameTransform) (lower upper : Statistic) (dimension : Nat) :
    Except Error (Option (List ℚ) × Option (List ℚ)) := do
  let transformedLower ← t.transformStat lower dimension true false
  let transformedUpper ← t.transformStat upper dimension true false
  -- With one bound alone there is nothing to swap.
  if lower = .absent ∨ upper = .absent then
    return (transformedLower, transformedUpper)
  else
    match transformedLower, transformedUpper with
    | some lows, some highs =>
      if lows.length = highs.length then
        -- A negative sign turns the lower bound into the upper one.
        return (some (List.zipWith min lows highs), some (List.zipWith max lows highs))
      else throw (.valueError "zip() arguments have different lengths".toList)
    | _, _ => throw (.valueError "Transformed bounds resulted in None values.".toList)

def validateMask (mask : Option (List Bool)) (dimension : Nat) : Except Error Unit :=
  match mask with
  | none => .ok ()
  | some listed =>
    if listed.length ≠ dimension then
      .error (.valueError ("Normalization mask length ".toList ++ decimal listed.length ++
        " does not match feature dimension ".toList ++ decimal dimension ++ ".".toList))
    else .ok ()

def listed : Option (List ℚ) → Statistic
  | none => .absent
  | some values => .vector values

def forwardNormalization (t : JointFrameTransform) (normalization : NormalizationParameters) (dimension : Nat) :
    Except Error NormalizationParameters := do
  validateMask normalization.mask dimension
  let mean ← t.transformStat normalization.mean dimension true false
  let std ← t.transformStat normalization.std dimension false true
  let bounds ← t.transformBounds normalization.min normalization.max dimension
  let quantiles ← t.transformBounds normalization.q01 normalization.q99 dimension
  return {
    mean := listed mean
    std := listed std
    min := listed bounds.1
    max := listed bounds.2
    q01 := listed quantiles.1
    q99 := listed quantiles.2
    mask := normalization.mask }

end JointFrameTransform

/-! ### The SO-101 arm -/

def so101JointSigns : List ℚ := [1, -1, 1, 1, 1, 1]

def so101JointOffsets : List ℚ := [0, 90, 90, 0, 0, 0]

def so101BodyJoints : List Text :=
  ["shoulder_pan".toList, "shoulder_lift".toList, "elbow_flex".toList, "wrist_flex".toList, "wrist_roll".toList]

def so101DegreesPerTick : ℚ := 360 / 4095

def so101RuntimeUnitsPerRange : ℚ := 200

abbrev Calibration : Type := Dict Text (Dict Text ℚ)

def rangeEnd (joint : Text) (entry : Dict Text ℚ) (key : Text) : Except Error ℚ :=
  match entry.get? key with
  | none =>
    .error (.valueError ("SO-101 calibration for '".toList ++ joint ++ "' is missing '".toList ++ key ++ "'.".toList))
  | some value => .ok value

def jointScale (calibration : Calibration) (joint : Text) : Except Error ℚ :=
  match calibration.get? joint with
  | none =>
    .error (.valueError ("SO-101 calibration is missing required joint '".toList ++ joint ++ "'.".toList))
  | some entry => do
    let rangeMin ← rangeEnd joint entry "range_min".toList
    let rangeMax ← rangeEnd joint entry "range_max".toList
    let rangeWidth := rangeMax - rangeMin
    if rangeWidth ≤ 0 then throw (.invalidRange joint rangeMin rangeMax)
    else return rangeWidth / so101RuntimeUnitsPerRange * so101DegreesPerTick

def so101DegreesPerRuntimeUnit (calibration : Calibration) : Except Error (List ℚ) := do
  let scales ← so101BodyJoints.mapM (jointScale calibration)
  return scales ++ [1]

def so101JointScales : Option Calibration → Except Error (List ℚ)
  | none => .ok (List.replicate so101JointSigns.length 1)
  | some calibration => so101DegreesPerRuntimeUnit calibration

def makeSo101JointTransform (calibration : Option Calibration) : Except Error JointFrameTransform := do
  let scales ← so101JointScales calibration
  create so101JointSigns so101JointOffsets (some scales)

theorem jointScale_pos {calibration : Calibration} {joint : Text} {scale : ℚ}
    (resolved : jointScale calibration joint = .ok scale) : 0 < scale := by
  unfold jointScale at resolved
  split at resolved
  · cases resolved
  · obtain ⟨rangeMin, _, resolved⟩ := Normalization.bind_ok resolved
    obtain ⟨rangeMax, _, resolved⟩ := Normalization.bind_ok resolved
    dsimp only at resolved
    split at resolved
    · cases resolved
    · next wide =>
        cases resolved
        have positive := not_le.mp wide
        norm_num [so101RuntimeUnitsPerRange, so101DegreesPerTick]
        linarith

theorem jointScales_pos {calibration : Calibration} {joints : List Text} {scales : List ℚ}
    (resolved : joints.mapM (jointScale calibration) = .ok scales) :
    scales.length = joints.length ∧ ∀ scale ∈ scales, 0 < scale := by
  induction joints generalizing scales with
  | nil =>
      cases resolved
      exact ⟨rfl, fun _ listed => absurd listed List.not_mem_nil⟩
  | cons joint rest ih =>
      rw [List.mapM_cons] at resolved
      obtain ⟨first, resolvedFirst, resolved⟩ := Normalization.bind_ok resolved
      obtain ⟨others, resolvedOthers, resolved⟩ := Normalization.bind_ok resolved
      cases resolved
      obtain ⟨lengths, positive⟩ := ih resolvedOthers
      refine ⟨by rw [List.length_cons, List.length_cons, lengths], ?_⟩
      intro scale listed
      rcases List.mem_cons.mp listed with same | member
      · rw [same]
        exact jointScale_pos resolvedFirst
      · exact positive scale member

theorem so101JointScales_admitted {calibration : Option Calibration} {scales : List ℚ}
    (resolved : so101JointScales calibration = .ok scales) :
    scales.length = so101JointSigns.length ∧ ∀ scale ∈ scales, 0 < scale := by
  cases calibration with
  | none =>
      cases resolved
      refine ⟨List.length_replicate, fun scale listed => ?_⟩
      rw [List.eq_of_mem_replicate listed]
      exact one_pos
  | some given =>
      obtain ⟨body, resolvedBody, resolved⟩ := Normalization.bind_ok resolved
      cases resolved
      obtain ⟨lengths, positive⟩ := jointScales_pos resolvedBody
      refine ⟨by rw [List.length_append, lengths]; rfl, fun scale listed => ?_⟩
      rcases List.mem_append.mp listed with member | gripper
      · exact positive scale member
      · rw [List.mem_singleton.mp gripper]
        exact one_pos

/-- The constructor admits the arm for every calibration whose scales are resolved. -/
theorem makeSo101JointTransform_of_scales {calibration : Option Calibration} {scales : List ℚ}
    (resolved : so101JointScales calibration = .ok scales) :
    ∃ t, makeSo101JointTransform calibration = .ok t ∧ t.signs = so101JointSigns ∧
      t.offsets = so101JointOffsets ∧ t.scales = scales := by
  obtain ⟨lengths, positive⟩ := so101JointScales_admitted resolved
  have unit : ∀ sign ∈ so101JointSigns, sign = -1 ∨ sign = 1 := by
    simp [so101JointSigns]
  refine ⟨⟨so101JointSigns, so101JointOffsets, scales, rfl, lengths, unit, positive⟩, ?_, rfl, rfl, rfl⟩
  unfold makeSo101JointTransform
  rw [resolved]
  show create so101JointSigns so101JointOffsets (some scales) = _
  simp only [create, Option.getD_some]
  rw [dif_pos ⟨rfl, lengths⟩, dif_pos unit, dif_pos positive]

/-! ### One entry -/

namespace JointFrameTransform

variable (t : JointFrameTransform)

theorem sign_unit (joint : Nat) : t.sign joint = -1 ∨ t.sign joint = 1 := by
  unfold sign
  rw [List.getD_eq_getElem?_getD]
  cases found : t.signs[joint]? with
  | none => exact Or.inr rfl
  | some sign => exact t.signs_unit sign (List.mem_of_getElem? found)

theorem scale_pos (joint : Nat) : 0 < t.scale joint := by
  unfold scale
  rw [List.getD_eq_getElem?_getD]
  cases found : t.scales[joint]? with
  | none => exact one_pos
  | some scale => exact t.scales_pos scale (List.mem_of_getElem? found)

theorem sign_mul_self (joint : Nat) : t.sign joint * t.sign joint = 1 := by
  rcases t.sign_unit joint with flipped | kept
  · rw [flipped]
    norm_num
  · rw [kept, mul_one]

theorem applyJoint_inverse_forward (joint : Nat) (value : ℚ) :
    t.applyJoint true joint (t.applyJoint false joint value) = value := by
  have nonzero := (t.scale_pos joint).ne'
  have scaled : t.sign joint * (t.sign joint * t.scale joint * value + t.offset joint - t.offset joint) =
      t.scale joint * value := by
    linear_combination t.scale joint * value * t.sign_mul_self joint
  show t.sign joint * (t.sign joint * t.scale joint * value + t.offset joint - t.offset joint) / t.scale joint = value
  rw [scaled, mul_div_cancel_left₀ value nonzero]

theorem applyJoint_forward_inverse (joint : Nat) (value : ℚ) :
    t.applyJoint false joint (t.applyJoint true joint value) = value := by
  have nonzero := (t.scale_pos joint).ne'
  show t.sign joint * t.scale joint * (t.sign joint * (value - t.offset joint) / t.scale joint) + t.offset joint = value
  rw [mul_assoc, mul_div_cancel₀ _ nonzero]
  linear_combination (value - t.offset joint) * t.sign_mul_self joint

theorem applyEntry_roundTrip (inverse : Bool) (width channel : Nat) (value : ℚ) :
    t.applyEntry (!inverse) width channel (t.applyEntry inverse width channel value) = value := by
  unfold applyEntry
  split
  · cases inverse with
    | false => exact t.applyJoint_inverse_forward channel value
    | true => exact t.applyJoint_forward_inverse channel value
  · rfl

/-- A statistic with the offset moves as a value does. -/
theorem statEntry_eq (dimension index : Nat) (value : ℚ) :
    t.statEntry dimension true false index value = t.applyEntry false dimension index value := by
  rfl

/-- The direction of a dimension by the table of the signs, which ends with the joints. -/
def direction (dimension index : Nat) : ℚ := if index < dimension then t.signs.getD index 1 else 1

theorem direction_eq (dimension index : Nat) :
    t.direction dimension index = if index < min t.numJoints dimension then t.sign index else 1 := by
  by_cases joint : index < t.signs.length
  · simp [direction, numJoints, sign, joint]
  · rw [direction, List.getD_eq_getElem?_getD, List.getElem?_eq_none (not_lt.mp joint), Option.getD_none, ite_self,
      if_neg (by simp [numJoints, joint])]

theorem applyEntry_between (dimension index : Nat) {low high : ℚ} (ordered : low ≤ high) (x : ℚ) :
    low ≤ x ∧ x ≤ high ↔
      min (t.applyEntry false dimension index low) (t.applyEntry false dimension index high) ≤
          t.applyEntry false dimension index x ∧
        t.applyEntry false dimension index x ≤
          max (t.applyEntry false dimension index low) (t.applyEntry false dimension index high) := by
  have positive := t.scale_pos index
  unfold applyEntry
  split
  · have stretch : ∀ a b : ℚ, t.scale index * a ≤ t.scale index * b ↔ a ≤ b := fun a b =>
      mul_le_mul_iff_right₀ positive
    have least := (stretch low high).mpr ordered
    have lower := stretch low x
    have upper := stretch x high
    -- A negative sign reverses the order of the bounds.
    rcases t.sign_unit index with flipped | kept
    · simp only [applyJoint, flipped, Bool.false_eq_true, if_false]
      rw [min_eq_right (by linarith), max_eq_left (by linarith), ← lower, ← upper]
      constructor
      · rintro ⟨above, below⟩
        constructor <;> linarith
      · rintro ⟨above, below⟩
        constructor <;> linarith
    · simp only [applyJoint, kept, Bool.false_eq_true, if_false]
      rw [min_eq_left (by linarith), max_eq_right (by linarith), ← lower, ← upper]
      constructor
      · rintro ⟨above, below⟩
        constructor <;> linarith
      · rintro ⟨above, below⟩
        constructor <;> linarith
  · rw [min_eq_left ordered, max_eq_right ordered]

/-- The quantile form of a value turns with its joint. -/
theorem applyEntry_quantiles (dimension index : Nat) {low high : ℚ} (ordered : low < high) (x : ℚ) :
    Normalization.normalizedEntry .quantiles
        (min (t.applyEntry false dimension index low) (t.applyEntry false dimension index high))
        (max (t.applyEntry false dimension index low) (t.applyEntry false dimension index high))
        (t.applyEntry false dimension index x) =
      t.direction dimension index * Normalization.normalizedEntry .quantiles low high x := by
  have positive := t.scale_pos index
  have width : high - low ≠ 0 := (sub_pos.mpr ordered).ne'
  have least := mul_lt_mul_of_pos_left ordered positive
  rw [direction_eq]
  unfold applyEntry
  split
  · -- A negative sign swaps the bounds and keeps the width, so only the direction changes.
    rcases t.sign_unit index with flipped | kept
    · simp only [applyJoint, flipped, Bool.false_eq_true, if_false]
      rw [min_eq_right (by linarith), max_eq_left (by linarith)]
      have difference : -1 * t.scale index * low + t.offset index - (-1 * t.scale index * high + t.offset index) =
          t.scale index * (high - low) := by ring
      simp only [Normalization.normalizedEntry, difference, if_neg width,
        if_neg (mul_ne_zero positive.ne' width)]
      field_simp
      ring
    · simp only [applyJoint, kept, Bool.false_eq_true, if_false]
      rw [min_eq_left (by linarith), max_eq_right (by linarith)]
      have difference : 1 * t.scale index * high + t.offset index - (1 * t.scale index * low + t.offset index) =
          t.scale index * (high - low) := by ring
      simp only [Normalization.normalizedEntry, difference, if_neg width,
        if_neg (mul_ne_zero positive.ne' width)]
      field_simp
      ring
  · rw [min_eq_left ordered.le, max_eq_right ordered.le, one_mul]

/-! ### A whole value -/

def moved (values : ExactTensor) (inverse : Bool) : ExactTensor :=
  ⟨values.axes, fun index => (values.entry index).map (t.applyEntry inverse (values.axes.headD 0) (index.headD 0))⟩

variable {t} {values : ExactTensor} {width : Nat} {leading : List Nat}

theorem apply_eq (shape : values.axes = width :: leading) (inverse : Bool) :
    t.apply values inverse = .ok (t.moved values inverse) := by
  unfold apply moved
  rw [shape]
  rfl

theorem moved_moved (t : JointFrameTransform) (values : ExactTensor) (inverse : Bool) :
    t.moved (t.moved values inverse) (!inverse) = values := by
  have entries : (t.moved (t.moved values inverse) (!inverse)).entry = values.entry := by
    funext index
    simp only [moved, Option.map_map]
    cases values.entry index with
    | none => rfl
    | some value => exact congrArg some (t.applyEntry_roundTrip inverse _ _ value)
  calc t.moved (t.moved values inverse) (!inverse)
      = ⟨values.axes, (t.moved (t.moved values inverse) (!inverse)).entry⟩ := rfl
    _ = values := by rw [entries]

theorem apply_roundTrip (t : JointFrameTransform) (shape : values.axes = width :: leading) (inverse : Bool) :
    ∃ between, t.apply values inverse = .ok between ∧ t.apply between (!inverse) = .ok values := by
  refine ⟨_, apply_eq shape inverse, ?_⟩
  have sameShape : (t.moved values inverse).axes = width :: leading := shape
  rw [apply_eq sameShape, moved_moved]

theorem read_moved (shape : values.axes = width :: leading) {index : Nat} {rest : List Nat}
    (inside : NdTensor.Inside (width :: leading) (index :: rest)) (inverse : Bool) :
    (t.moved values inverse).read (index :: rest) =
      (values.read (index :: rest)).map (t.applyEntry inverse width index) := by
  have within : NdTensor.Inside values.axes (index :: rest) := by
    rw [shape]
    exact inside
  have withinMoved : NdTensor.Inside (t.moved values inverse).axes (index :: rest) := within
  rw [NdTensor.read_inside withinMoved, NdTensor.read_inside within]
  simp only [moved, shape, List.headD_cons]

/-! ### Statistics, entry by entry -/

end JointFrameTransform

def Statistic.at : Statistic → Nat → Option ℚ
  | .scalar value, _ => some value
  | .vector values, index => values[index]?
  | _, _ => none

/-- A statistic that the transform accepts for a feature of so many dimensions. -/
def Statistic.Accepted : Statistic → Nat → Prop
  | .absent, _ => True
  | .scalar _, _ => True
  | .vector values, dimension => values.length = dimension
  | .nested, _ => False

namespace JointFrameTransform

variable {t : JointFrameTransform} {dimension : Nat}

theorem statValues_of_accepted {statistic : Statistic} (accepted : statistic.Accepted dimension) :
    statistic = .absent ∧ statValues statistic dimension = .ok none ∨
      ∃ values, statValues statistic dimension = .ok (some values) ∧ values.length = dimension ∧
        statistic ≠ .absent ∧ ∀ index < dimension, statistic.at index = values[index]? := by
  cases statistic with
  | absent => exact Or.inl ⟨rfl, rfl⟩
  | nested => exact accepted.elim
  | scalar value =>
      refine Or.inr ⟨_, rfl, List.length_replicate, by simp, ?_⟩
      intro index inside
      rw [List.getElem?_replicate, if_pos inside]
      rfl
  | vector values =>
      refine Or.inr ⟨values, if_neg (fun other => other accepted), accepted, by simp, ?_⟩
      intro index inside
      rfl

def movedStat (t : JointFrameTransform) (dimension : Nat) (includeOffset absoluteScale : Bool) (values : List ℚ) :
    List ℚ :=
  values.mapIdx (t.statEntry dimension includeOffset absoluteScale)

theorem transformStat_of_values {statistic : Statistic} {values : Option (List ℚ)}
    (read : statValues statistic dimension = .ok values) (includeOffset absoluteScale : Bool) :
    t.transformStat statistic dimension includeOffset absoluteScale =
      .ok (values.map (t.movedStat dimension includeOffset absoluteScale)) := by
  unfold transformStat
  rw [read]
  rfl

theorem transformStat_of_accepted {statistic : Statistic} (accepted : statistic.Accepted dimension)
    (includeOffset absoluteScale : Bool) :
    ∃ result, t.transformStat statistic dimension includeOffset absoluteScale = .ok result := by
  rcases statValues_of_accepted accepted with ⟨-, read⟩ | ⟨values, read, -⟩
  · exact ⟨_, transformStat_of_values read includeOffset absoluteScale⟩
  · exact ⟨_, transformStat_of_values read includeOffset absoluteScale⟩

/-- The bounds that are returned for two given ones. -/
def movedBounds (t : JointFrameTransform) (dimension : Nat) (lows highs : List ℚ) : List ℚ × List ℚ :=
  (List.zipWith min (t.movedStat dimension true false lows) (t.movedStat dimension true false highs),
    List.zipWith max (t.movedStat dimension true false lows) (t.movedStat dimension true false highs))

theorem transformBounds_of_values {lower upper : Statistic} {lows highs : List ℚ}
    (lowRead : statValues lower dimension = .ok (some lows)) (highRead : statValues upper dimension = .ok (some highs))
    (same : lows.length = highs.length) (lowGiven : lower ≠ .absent) (highGiven : upper ≠ .absent) :
    t.transformBounds lower upper dimension =
      .ok (some (t.movedBounds dimension lows highs).1, some (t.movedBounds dimension lows highs).2) := by
  have lengths : (t.movedStat dimension true false lows).length = (t.movedStat dimension true false highs).length := by
    simp only [movedStat, List.length_mapIdx, same]
  unfold transformBounds
  rw [transformStat_of_values lowRead, transformStat_of_values highRead]
  show (if lower = .absent ∨ upper = .absent then _ else _) = _
  rw [if_neg (not_or.mpr ⟨lowGiven, highGiven⟩)]
  exact if_pos lengths

theorem transformBounds_of_absent {lower upper : Statistic} (lowAccepted : lower.Accepted dimension)
    (highAccepted : upper.Accepted dimension) (absent : lower = .absent ∨ upper = .absent) :
    ∃ bounds, t.transformBounds lower upper dimension = .ok bounds := by
  obtain ⟨lows, lowRead⟩ := @transformStat_of_accepted t dimension lower lowAccepted true false
  obtain ⟨highs, highRead⟩ := @transformStat_of_accepted t dimension upper highAccepted true false
  refine ⟨(lows, highs), ?_⟩
  unfold transformBounds
  rw [lowRead, highRead]
  exact if_pos absent

theorem movedBounds_at {lows highs : List ℚ} {index : Nat} {low high : ℚ} (lowAt : lows[index]? = some low)
    (highAt : highs[index]? = some high) :
    (t.movedBounds dimension lows highs).1[index]? =
        some (min (t.applyEntry false dimension index low) (t.applyEntry false dimension index high)) ∧
      (t.movedBounds dimension lows highs).2[index]? =
        some (max (t.applyEntry false dimension index low) (t.applyEntry false dimension index high)) := by
  simp [movedBounds, movedStat, List.getElem?_zipWith, List.getElem?_mapIdx, lowAt, highAt, statEntry_eq]

end JointFrameTransform

end PhysicalAiStudio.Policies.JointTransform
