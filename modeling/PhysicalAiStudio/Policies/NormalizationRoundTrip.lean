import PhysicalAiStudio.Numeric.Elementary
import PhysicalAiStudio.Numeric.NdTensor
import PhysicalAiStudio.Policies.Normalization
import Mathlib.Tactic.FieldSimp
import Mathlib.Tactic.Positivity
import Mathlib.Tactic.Ring

/-! What a value is after its feature has been normalized and normalized back.

Entries are exact rationals. An entry that a division by zero leaves undefined is `none`, and so is an
infinite one, so an entry that is there was computed without either.
-/

set_option autoImplicit false

namespace PhysicalAiStudio.Policies.Normalization
open Collections Numeric Strings

abbrev ExactTensor : Type := NdTensor (Option ℚ)

/-- An operation on entries; one that is not defined makes the result undefined. -/
def liftEntries (op : ℚ → ℚ → Option ℚ) (first second : Option ℚ) : Option ℚ :=
  first.bind fun a => second.bind fun b => op a b

def chooseEntry (condition : Option ℚ) (entries : Option ℚ × Option ℚ) : Option ℚ :=
  if condition = some 0 then entries.2 else entries.1

instance : TensorOps ExactTensor where
  add := NdTensor.map2 (liftEntries fun a b => some (a + b))
  sub := NdTensor.map2 (liftEntries fun a b => some (a - b))
  mul := NdTensor.map2 (liftEntries fun a b => some (a * b))
  div := NdTensor.map2 (liftEntries divide)
  scalar := fun value => NdTensor.scalar (some value)
  anyInf := fun tensor => (NdTensor.indices tensor.axes).any fun index => (tensor.entry index).isNone
  isZero := NdTensor.map fun entry => some (if entry = some 0 then 1 else 0)
  select := fun condition first second =>
    NdTensor.map2 chooseEntry condition (NdTensor.map2 Prod.mk first second)
  view := fun shape => NdTensor.view shape.reverse

def epsilon : ℚ := 1 / 100000000

/-! ### Reading a result -/

structure Reads (tensor : ExactTensor) (axes index : List Nat) (value : ℚ) : Prop where
  axes_eq : tensor.axes = axes
  entry : tensor.read index = some value

section Reading
variable {first second : ExactTensor} {axes small index : List Nat} {a b : ℚ}

theorem Reads.scalar (value : ℚ) (index : List Nat) : Reads (TensorOps.scalar value) [] index value :=
  ⟨rfl, rfl⟩

theorem Reads.map2 {op : ℚ → ℚ → Option ℚ} {c : ℚ} (left : Reads first axes index a)
    (right : Reads second small index b) (fits : NdTensor.Fits small axes) (result : op a b = some c) :
    Reads (NdTensor.map2 (liftEntries op) first second) axes index c := by
  have fitsAxes : NdTensor.Fits second.axes first.axes := by
    rw [left.axes_eq, right.axes_eq]
    exact fits
  constructor
  · rw [NdTensor.axes_map2, NdTensor.join_of_fits_right fitsAxes, left.axes_eq]
  · rw [NdTensor.read_map2_right _ fitsAxes, left.entry, right.entry]
    exact result

theorem Reads.add (left : Reads first axes index a) (right : Reads second small index b)
    (fits : NdTensor.Fits small axes) : Reads (first + second) axes index (a + b) :=
  left.map2 right fits rfl

theorem Reads.sub (left : Reads first axes index a) (right : Reads second small index b)
    (fits : NdTensor.Fits small axes) : Reads (first - second) axes index (a - b) :=
  left.map2 right fits rfl

theorem Reads.mul (left : Reads first axes index a) (right : Reads second small index b)
    (fits : NdTensor.Fits small axes) : Reads (first * second) axes index (a * b) :=
  left.map2 right fits rfl

theorem Reads.div (left : Reads first axes index a) (right : Reads second small index b)
    (fits : NdTensor.Fits small axes) (nonzero : b ≠ 0) : Reads (first / second) axes index (a / b) :=
  left.map2 right fits (divide_of_ne_zero a nonzero)

/-- A number in front of a tensor is repeated to its axes. -/
theorem Reads.scale (factor : ℚ) (right : Reads second axes index b) :
    Reads (TensorOps.scalar factor * second) axes index (factor * b) := by
  constructor
  · exact right.axes_eq
  · show (NdTensor.map2 _ (NdTensor.scalar (some factor)) second).read index = _
    rw [NdTensor.read_map2_left _ (NdTensor.fits_nil _), right.entry]
    rfl

theorem Reads.choose {condition : ExactTensor} {c : ℚ} (chosen : Reads condition small index c)
    (fits : NdTensor.Fits small axes) (pairAxes : (NdTensor.map2 Prod.mk first second).axes = axes)
    (pair : (NdTensor.map2 Prod.mk first second).read index = (some a, some b)) :
    Reads (TensorOps.select condition first second) axes index (if c = 0 then b else a) := by
  have wider : NdTensor.Fits condition.axes (NdTensor.map2 Prod.mk first second).axes := by
    rw [pairAxes, chosen.axes_eq]
    exact fits
  constructor
  · exact (NdTensor.join_of_fits wider).trans pairAxes
  · show (NdTensor.map2 chooseEntry condition (NdTensor.map2 Prod.mk first second)).read index = _
    rw [NdTensor.read_map2_left _ wider, pair, chosen.entry]
    by_cases zero : c = 0
    · rw [if_pos zero, zero]
      rfl
    · rw [if_neg zero]
      exact if_neg (fun equal => zero (Option.some.inj equal))

theorem Reads.select {condition : ExactTensor} {c : ℚ} (chosen : Reads condition small index c)
    (fits : NdTensor.Fits small axes) (yes : Reads first axes index a) (no : Reads second axes index b) :
    Reads (TensorOps.select condition first second) axes index (if c = 0 then b else a) := by
  have same : NdTensor.Fits second.axes first.axes := by
    rw [yes.axes_eq, no.axes_eq]
    exact NdTensor.fits_self axes
  apply chosen.choose fits
  · rw [NdTensor.axes_map2, NdTensor.join_of_fits_right same, yes.axes_eq]
  · rw [NdTensor.read_map2_right _ same, yes.entry, no.entry]

theorem Reads.replaceZero (replacement : ℚ) (width : Reads first axes index a) :
    Reads (TensorOps.select (TensorOps.isZero first) (TensorOps.scalar replacement) first) axes index
      (if a = 0 then replacement else a) := by
  have condition : Reads (TensorOps.isZero first) axes index (if a = 0 then 1 else 0) := by
    constructor
    · exact width.axes_eq
    · show some (if first.read index = some 0 then (1 : ℚ) else 0) = _
      rw [width.entry]
      simp only [Option.some.injEq]
  have pair : (NdTensor.map2 Prod.mk (TensorOps.scalar replacement : ExactTensor) first).read index =
      (some replacement, some a) := by
    show (NdTensor.map2 Prod.mk (NdTensor.scalar (some replacement)) first).read index = _
    rw [NdTensor.read_map2_left _ (NdTensor.fits_nil _), width.entry]
    rfl
  have pairAxes : (NdTensor.map2 Prod.mk (TensorOps.scalar replacement : ExactTensor) first).axes = axes :=
    width.axes_eq
  have chosen := condition.choose (NdTensor.fits_self axes) pairAxes pair
  by_cases zero : a = 0
  · simpa [zero] using chosen
  · simpa [zero] using chosen

end Reading

/-! ### The statistics of a mode -/

/-- The two statistics that a mode reads; the first is the one that values are measured from. -/
def Buffer.pair {T : Type} (buffer : Buffer T) : NormalizationType → Option (T × T)
  | .meanStd => buffer.mean.bind fun mean => buffer.std.map fun std => (mean, std)
  | .minMax => buffer.min.bind fun min => buffer.max.map fun max => (min, max)
  | .quantiles => buffer.q01.bind fun q01 => buffer.q99.map fun q99 => (q01, q99)
  | .identity => none

/-- What a value's distance from the first statistic is divided by, but for the epsilon. -/
def spread : NormalizationType → ℚ → ℚ → ℚ
  | .meanStd, _, std => std
  | _, low, high => high - low

def normalizedEntry (mode : NormalizationType) (low high x : ℚ) : ℚ :=
  match mode with
  | .meanStd => (x - low) / (high + epsilon)
  | .minMax => (x - low) / (high - low + epsilon) * 2 - 1
  | .quantiles => 2 * (x - low) / (if high - low = 0 then epsilon else high - low) - 1
  | .identity => x

def denormalizedEntry (mode : NormalizationType) (low high y : ℚ) : ℚ :=
  match mode with
  | .meanStd => y * high + low
  | .minMax => (y + 1) / 2 * (high - low) + low
  | .quantiles => (y + 1) * (if high - low = 0 then epsilon else high - low) / 2 + low
  | .identity => y

def entryFor (mode : NormalizationType) (inverse : Bool) (low high x : ℚ) : ℚ :=
  if inverse then denormalizedEntry mode low high x else normalizedEntry mode low high x

/-- The statistics of a normalized feature: tensors of one shape whose spread is nowhere negative. -/
structure Ordered (mode : NormalizationType) (axes : List Nat) (buffer : Buffer ExactTensor) : Prop where
  pair : mode ≠ .identity → ∃ first second, buffer.pair mode = some (first, second) ∧
    first.axes = axes ∧ second.axes = axes ∧
    ∀ index, NdTensor.Inside axes index → ∃ low high, first.entry index = some low ∧
      second.entry index = some high ∧ 0 ≤ spread mode low high
  mask : ∀ mask ∈ buffer.mask, mask.axes = axes ∧ ∀ index, NdTensor.Inside axes index → (mask.entry index).isSome

theorem epsilon_pos : 0 < epsilon := by
  norm_num [epsilon]

theorem not_anyInf {tensor : ExactTensor}
    (defined : ∀ index, NdTensor.Inside tensor.axes index → (tensor.entry index).isSome) :
    TensorOps.anyInf tensor = false := by
  show ((NdTensor.indices tensor.axes).any fun index => (tensor.entry index).isNone) = false
  rw [List.any_eq_false]
  intro index member undefined
  have present := defined index (NdTensor.mem_indices.mp member)
  rw [Option.isNone_iff_eq_none.mp undefined] at present
  cases present

/-- The value of a mode as the code computes it, once the statistics are found and checked. -/
def formula (mode : NormalizationType) (inverse : Bool) (first second value : ExactTensor) : ExactTensor :=
  let scalar : ℚ → ExactTensor := TensorOps.scalar
  match mode with
  | .meanStd => if inverse then value * second + first else (value - first) / (second + scalar (1 / 100000000))
  | .minMax => if inverse then (value + scalar 1) / scalar 2 * (second - first) + first
    else (value - first) / (second - first + scalar (1 / 100000000)) * scalar 2 - scalar 1
  | .quantiles =>
    let width := second - first
    let denom := TensorOps.select (TensorOps.isZero width) (scalar (1 / 100000000)) width
    if inverse then (value + scalar 1) * denom / scalar 2 + first
    else scalar 2 * (value - first) / denom - scalar 1
  | .identity => value

theorem transformed_of_pair {eager inverse : Bool} {mode : NormalizationType} {buffer : Buffer ExactTensor}
    {first second : ExactTensor} (pair : buffer.pair mode = some (first, second))
    (firstFinite : TensorOps.anyInf first = false) (secondFinite : TensorOps.anyInf second = false)
    (value : ExactTensor) :
    transformed eager mode buffer inverse value = .ok (some (formula mode inverse first second value)) := by
  have checkedFirst : ∀ name, checkInf eager first name = .ok () := by
    intro name
    exact checkInf_ok (by rw [firstFinite, Bool.and_false])
  have checkedSecond : ∀ name, checkInf eager second name = .ok () := by
    intro name
    exact checkInf_ok (by rw [secondFinite, Bool.and_false])
  cases mode with
  | identity => cases pair
  | meanStd | minMax | quantiles =>
    simp only [Buffer.pair, Option.bind_eq_some_iff, Option.map_eq_some_iff, Prod.mk.injEq] at pair
    obtain ⟨_, found, _, other, rfl, rfl⟩ := pair
    simp only [transformed, found, other, getItem, Option.elim, bind, Except.bind, checkedFirst, checkedSecond]
    rfl

theorem axes_add (first second : ExactTensor) : (first + second).axes = NdTensor.join first.axes second.axes := rfl

theorem axes_sub (first second : ExactTensor) : (first - second).axes = NdTensor.join first.axes second.axes := rfl

theorem axes_mul (first second : ExactTensor) : (first * second).axes = NdTensor.join first.axes second.axes := rfl

theorem axes_div (first second : ExactTensor) : (first / second).axes = NdTensor.join first.axes second.axes := rfl

theorem axes_select (condition first second : ExactTensor) :
    (TensorOps.select condition first second).axes =
      NdTensor.join condition.axes (NdTensor.join first.axes second.axes) := rfl

theorem axes_isZero (tensor : ExactTensor) : (TensorOps.isZero tensor).axes = tensor.axes := rfl

theorem axes_number (value : ℚ) : (TensorOps.scalar value : ExactTensor).axes = [] := rfl

/-- The statistics broadcast to the value and leave it its axes. -/
theorem formula_axes {mode : NormalizationType} {first second value : ExactTensor} {small : List Nat} (inverse : Bool)
    (firstAxes : first.axes = small) (secondAxes : second.axes = small) (fits : NdTensor.Fits small value.axes) :
    (formula mode inverse first second value).axes = value.axes := by
  cases mode <;> cases inverse <;>
    simp [formula, axes_add, axes_sub, axes_mul, axes_div, axes_select, axes_isZero, axes_number, firstAxes, secondAxes,
      NdTensor.join_of_fits_right fits]

theorem formula_reads {mode : NormalizationType} {first second value : ExactTensor} {axes small index : List Nat}
    {low high x : ℚ} (inverse : Bool) (fits : NdTensor.Fits small axes) (lows : Reads first small index low)
    (highs : Reads second small index high) (spreads : 0 ≤ spread mode low high) (given : Reads value axes index x) :
    Reads (formula mode inverse first second value) axes index (entryFor mode inverse low high x) := by
  have number := fun value => Reads.scalar value index
  have none := NdTensor.fits_nil axes
  have noneSmall := NdTensor.fits_nil small
  have same := NdTensor.fits_self small
  have smallest := epsilon_pos
  -- Each formula is read entry by entry; by the epsilon no divisor is zero.
  cases mode with
  | identity => cases inverse <;> exact given
  | meanStd =>
      cases inverse with
      | true => exact (given.mul highs fits).add lows fits
      | false =>
          have divisor : high + epsilon ≠ 0 := (add_pos_of_nonneg_of_pos spreads smallest).ne'
          exact (given.sub lows fits).div (highs.add (number _) noneSmall) fits divisor
  | minMax =>
      cases inverse with
      | true =>
          exact (((given.add (number 1) none).div (number 2) none two_ne_zero).mul (highs.sub lows same) fits).add
            lows fits
      | false =>
          have divisor : high - low + epsilon ≠ 0 := (add_pos_of_nonneg_of_pos spreads smallest).ne'
          exact (((given.sub lows fits).div ((highs.sub lows same).add (number _) noneSmall) fits divisor).mul
            (number 2) none).sub (number 1) none
  | quantiles =>
      have widths := (highs.sub lows same).replaceZero epsilon
      cases inverse with
      | true => exact (((given.add (number 1) none).mul widths fits).div (number 2) none two_ne_zero).add lows fits
      | false =>
          have divisor : (if high - low = 0 then epsilon else high - low) ≠ 0 := by
            split
            · exact smallest.ne'
            · assumption
          exact (((given.sub lows fits).scale 2).div widths fits divisor).sub (number 1) none

/-! ### There and back, for one entry -/

def Between (x reference y : ℚ) : Prop :=
  x ≤ y ∧ y ≤ reference ∨ reference ≤ y ∧ y ≤ x

def Recovered (mode : NormalizationType) (low high x y : ℚ) : Prop :=
  match mode with
  | .meanStd | .minMax =>
    Between x low y ∧ |y - x| = |x - low| * epsilon / (spread mode low high + epsilon)
  | .quantiles | .identity => y = x

theorem shrunk {scale x low y : ℚ} (nonneg : 0 ≤ scale) (back : y = (x - low) / (scale + epsilon) * scale + low) :
    Between x low y ∧ |y - x| = |x - low| * epsilon / (scale + epsilon) := by
  have smallest := epsilon_pos
  have divisor : 0 < scale + epsilon := add_pos_of_nonneg_of_pos nonneg smallest
  have part : 0 ≤ epsilon / (scale + epsilon) := (div_pos smallest divisor).le
  have rest : 0 ≤ scale / (scale + epsilon) := div_nonneg nonneg divisor.le
  have toEntry : y - x = -((x - low) * (epsilon / (scale + epsilon))) := by
    rw [back]
    field_simp
    ring
  have toReference : y - low = (x - low) * (scale / (scale + epsilon)) := by
    rw [back]
    ring
  constructor
  · rcases le_total x low with below | above
    · left
      have up := mul_nonpos_of_nonpos_of_nonneg (sub_nonpos.mpr below) part
      have under := mul_nonpos_of_nonpos_of_nonneg (sub_nonpos.mpr below) rest
      constructor <;> linarith
    · right
      have down := mul_nonneg (sub_nonneg.mpr above) part
      have concluded := mul_nonneg (sub_nonneg.mpr above) rest
      constructor <;> linarith
  · rw [toEntry, abs_neg, abs_mul, abs_of_nonneg part, mul_div_assoc]

theorem recovered_entry (mode : NormalizationType) {low high : ℚ} (nonneg : 0 ≤ spread mode low high) (x : ℚ) :
    Recovered mode low high x (denormalizedEntry mode low high (normalizedEntry mode low high x)) := by
  cases mode with
  | identity => rfl
  | meanStd => exact shrunk nonneg rfl
  | minMax =>
      apply shrunk nonneg
      simp only [denormalizedEntry, normalizedEntry, spread]
      ring
  | quantiles =>
      have divisor : (if high - low = 0 then epsilon else high - low) ≠ 0 := by
        split
        · exact epsilon_pos.ne'
        · assumption
      simp only [Recovered, denormalizedEntry, normalizedEntry]
      field_simp
      ring

/-! ### A whole value -/

variable {eager inverse : Bool} {mode : NormalizationType} {axes : List Nat} {buffer : Buffer ExactTensor}

/-- Every entry was computed without an infinity or a division by zero. -/
def Defined (tensor : ExactTensor) : Prop :=
  ∀ index, NdTensor.Inside tensor.axes index → (tensor.read index).isSome

def MaskedOut (buffer : Buffer ExactTensor) (index : List Nat) : Prop :=
  ∃ mask, buffer.mask = some mask ∧ mask.read index = some 0

def StatsAt (buffer : Buffer ExactTensor) (mode : NormalizationType) (index : List Nat) (low high : ℚ) : Prop :=
  ∃ first second, buffer.pair mode = some (first, second) ∧
    first.read index = some low ∧ second.read index = some high

def Stores (eager : Bool) (mode : NormalizationType) (buffer : Buffer ExactTensor) (inverse : Bool)
    (value result : ExactTensor) : Prop :=
  ∀ (pass : Pass ExactTensor) (key rawName : Text), pass.batch.get? key = some (some value) →
    ∃ after, applyNormalization eager pass key rawName mode buffer inverse = .ok after ∧
      after.batch.get? key = some (some result)

theorem Ordered.reads {first second : ExactTensor} (ordered : Ordered mode axes buffer)
    (pair : buffer.pair mode = some (first, second)) {large index : List Nat} (fits : NdTensor.Fits axes large)
    (inside : NdTensor.Inside large index) :
    ∃ low high, Reads first axes index low ∧ Reads second axes index high ∧ 0 ≤ spread mode low high := by
  have normalized : mode ≠ .identity := by
    intro identity
    rw [identity] at pair
    cases pair
  obtain ⟨first', second', pair', firstAxes, secondAxes, entries⟩ := ordered.pair normalized
  rw [pair] at pair'
  cases pair'
  obtain ⟨low, high, lows, highs, nonneg⟩ := entries _ (NdTensor.inside_restrict fits inside)
  refine ⟨low, high, ⟨firstAxes, ?_⟩, ⟨secondAxes, ?_⟩, nonneg⟩
  · rw [NdTensor.read, firstAxes, lows]
  · rw [NdTensor.read, secondAxes, highs]

/-- The mode finds its statistics, and none of them is infinite. -/
theorem Ordered.transformed (ordered : Ordered mode axes buffer) (normalized : mode ≠ .identity) (eager inverse : Bool)
    (value : ExactTensor) :
    ∃ first second, buffer.pair mode = some (first, second) ∧ first.axes = axes ∧ second.axes = axes ∧
      transformed eager mode buffer inverse value = .ok (some (formula mode inverse first second value)) := by
  obtain ⟨first, second, pair, firstAxes, secondAxes, entries⟩ := ordered.pair normalized
  refine ⟨first, second, pair, firstAxes, secondAxes,
    transformed_of_pair pair (not_anyInf ?_) (not_anyInf ?_) value⟩
  · intro index inside
    rw [firstAxes] at inside
    obtain ⟨low, high, lows, -⟩ := entries index inside
    rw [lows]
    rfl
  · intro index inside
    rw [secondAxes] at inside
    obtain ⟨low, high, -, highs, -⟩ := entries index inside
    rw [highs]
    rfl

theorem masked_reads (ordered : Ordered mode axes buffer) {value result : ExactTensor} {large index : List Nat}
    {x y : ℚ} (fits : NdTensor.Fits axes large) (inside : NdTensor.Inside large index)
    (given : Reads value large index x) (changed : Reads result large index y) :
    MaskedOut buffer index ∧ Reads (masked buffer value result) large index x ∨
      ¬MaskedOut buffer index ∧ Reads (masked buffer value result) large index y := by
  unfold masked MaskedOut
  cases found : buffer.mask with
  | none =>
      right
      refine ⟨fun out => ?_, changed⟩
      obtain ⟨mask, same, -⟩ := out
      cases same
  | some mask =>
      obtain ⟨maskAxes, entries⟩ := ordered.mask mask found
      obtain ⟨choice, chosen⟩ := Option.isSome_iff_exists.mp (entries _ (NdTensor.inside_restrict fits inside))
      have read : mask.read index = some choice := by
        rw [NdTensor.read, maskAxes, chosen]
      have selected := Reads.select ⟨maskAxes, read⟩ fits changed given
      by_cases zero : choice = 0
      · left
        rw [if_pos zero] at selected
        exact ⟨⟨mask, rfl, by rw [read, zero]⟩, selected⟩
      · right
        rw [if_neg zero] at selected
        refine ⟨fun out => ?_, selected⟩
        obtain ⟨mask', same, out⟩ := out
        cases same
        rw [read] at out
        exact zero (Option.some.inj out)

structure PassEntry (mode : NormalizationType) (buffer : Buffer ExactTensor) (inverse : Bool) (index : List Nat)
    (x y low high : ℚ) : Prop where
  masked : MaskedOut buffer index → y = x
  stats : mode ≠ .identity → StatsAt buffer mode index low high ∧ 0 ≤ spread mode low high
  changed : ¬MaskedOut buffer index → y = entryFor mode inverse low high x

structure PassValue (eager : Bool) (mode : NormalizationType) (buffer : Buffer ExactTensor) (inverse : Bool)
    (value result : ExactTensor) : Prop where
  stores : Stores eager mode buffer inverse value result
  axes_eq : result.axes = value.axes
  undivided : ∀ raw, transformed eager mode buffer inverse value = .ok (some raw) → Defined raw
  entries : ∀ index, NdTensor.Inside value.axes index → ∀ x, value.read index = some x →
    ∃ y low high, result.read index = some y ∧ PassEntry mode buffer inverse index x y low high

theorem passValue_identity (eager : Bool) (buffer : Buffer ExactTensor) (inverse : Bool) (value : ExactTensor) :
    PassValue eager .identity buffer inverse value value where
  stores := by
    intro pass key rawName found
    refine ⟨pass, ?_, found⟩
    simp only [applyNormalization, found, transformed]
    rfl
  axes_eq := rfl
  undivided := by
    intro raw same
    cases same
  entries := by
    intro index _ x given
    refine ⟨x, 0, 0, given, fun _ => rfl, fun normalized => absurd rfl normalized, fun _ => ?_⟩
    cases inverse <;> rfl

theorem passValue_of_ordered (ordered : Ordered mode axes buffer) (eager inverse : Bool) {value : ExactTensor}
    (fits : NdTensor.Fits axes value.axes) (defined : Defined value) :
    ∃ result, PassValue eager mode buffer inverse value result := by
  by_cases identity : mode = .identity
  · rw [identity]
    exact ⟨value, passValue_identity eager buffer inverse value⟩
  obtain ⟨first, second, pair, firstAxes, secondAxes, computed⟩ := ordered.transformed identity eager inverse value
  have rawAxes : (formula mode inverse first second value).axes = value.axes :=
    formula_axes inverse firstAxes secondAxes fits
  -- With ordered statistics every entry has its two bounds and a spread that is not negative.
  have reads : ∀ index, NdTensor.Inside value.axes index → ∀ x, value.read index = some x →
      ∃ low high, StatsAt buffer mode index low high ∧ 0 ≤ spread mode low high ∧
        Reads (formula mode inverse first second value) value.axes index (entryFor mode inverse low high x) := by
    intro index inside x given
    obtain ⟨low, high, lows, highs, nonneg⟩ := ordered.reads pair fits inside
    exact ⟨low, high, ⟨first, second, pair, lows.entry, highs.entry⟩, nonneg,
      formula_reads inverse fits lows highs nonneg ⟨rfl, given⟩⟩
  refine ⟨masked buffer value (formula mode inverse first second value), ?_, ?_, ?_, ?_⟩
  · intro pass key rawName found
    refine ⟨{ batch := pass.batch.set key (some (masked buffer value (formula mode inverse first second value)))
              writes := pass.writes ++ [(key, rawName)] }, ?_, Dict.get?_set_self pass.batch key _⟩
    simp only [applyNormalization, found, computed]
    rfl
  · unfold masked
    cases found : buffer.mask with
    | none => exact rawAxes
    | some mask =>
        have maskAxes := (ordered.mask mask found).1
        simp [axes_select, rawAxes, maskAxes, NdTensor.join_of_fits fits]
  · intro raw same
    rw [computed] at same
    cases same
    intro index inside
    rw [rawAxes] at inside
    obtain ⟨x, given⟩ := Option.isSome_iff_exists.mp (defined index inside)
    obtain ⟨low, high, -, -, read⟩ := reads index inside x given
    rw [read.entry]
    rfl
  · intro index inside x given
    obtain ⟨low, high, stats, nonneg, read⟩ := reads index inside x given
    rcases masked_reads ordered fits inside ⟨rfl, given⟩ read with ⟨out, kept⟩ | ⟨within, changed⟩
    · exact ⟨x, low, high, kept.entry, fun _ => rfl, fun _ => ⟨stats, nonneg⟩, fun within => absurd out within⟩
    · exact ⟨_, low, high, changed.entry, fun out => absurd out within, fun _ => ⟨stats, nonneg⟩, fun _ => rfl⟩

/-! ### There and back -/

structure EntryRoundTrip (mode : NormalizationType) (buffer : Buffer ExactTensor) (index : List Nat) (x y z : ℚ) :
    Prop where
  masked : MaskedOut buffer index → y = x ∧ z = x
  recovered : ¬MaskedOut buffer index →
    ∃ low high, (mode ≠ .identity → StatsAt buffer mode index low high) ∧ Recovered mode low high x z

/-- A value, what the forward pass makes of it, and what the inverse pass makes of that. -/
structure RoundTrip (eager : Bool) (mode : NormalizationType) (buffer : Buffer ExactTensor)
    (value there back : ExactTensor) : Prop where
  forward : Stores eager mode buffer false value there
  inverse : Stores eager mode buffer true there back
  axes_eq : there.axes = value.axes ∧ back.axes = value.axes
  undivided : ∀ raw, transformed eager mode buffer false value = .ok (some raw) → Defined raw
  undivided_back : ∀ raw, transformed eager mode buffer true there = .ok (some raw) → Defined raw
  entries : ∀ index, NdTensor.Inside value.axes index →
    ∃ x y z, value.read index = some x ∧ there.read index = some y ∧ back.read index = some z ∧
      EntryRoundTrip mode buffer index x y z

theorem PassValue.defined {value result : ExactTensor} (pass : PassValue eager mode buffer inverse value result)
    (defined : Defined value) : Defined result := by
  intro index inside
  rw [pass.axes_eq] at inside
  obtain ⟨x, given⟩ := Option.isSome_iff_exists.mp (defined index inside)
  obtain ⟨y, _, _, read, -⟩ := pass.entries index inside x given
  rw [read]
  rfl

theorem StatsAt.unique {index : List Nat} {low high low' high' : ℚ} (first : StatsAt buffer mode index low high)
    (second : StatsAt buffer mode index low' high') : low = low' ∧ high = high' := by
  obtain ⟨lows, highs, pair, lowRead, highRead⟩ := first
  obtain ⟨lows', highs', pair', lowRead', highRead'⟩ := second
  rw [pair] at pair'
  cases pair'
  rw [lowRead] at lowRead'
  rw [highRead] at highRead'
  exact ⟨Option.some.inj lowRead', Option.some.inj highRead'⟩

theorem entryRoundTrip_of_passes {index : List Nat} {x y z low high low' high' : ℚ}
    (first : PassEntry mode buffer false index x y low high)
    (second : PassEntry mode buffer true index y z low' high') :
    EntryRoundTrip mode buffer index x y z where
  masked := by
    intro out
    have kept := first.masked out
    exact ⟨kept, (second.masked out).trans kept⟩
  recovered := by
    intro within
    refine ⟨low, high, fun normalized => (first.stats normalized).1, ?_⟩
    rw [second.changed within, first.changed within]
    by_cases identity : mode = .identity
    · subst identity
      rfl
    · obtain ⟨sameLow, sameHigh⟩ := StatsAt.unique (first.stats identity).1 (second.stats identity).1
      rw [← sameLow, ← sameHigh]
      exact recovered_entry mode (first.stats identity).2 x

theorem roundTrip_of_ordered (ordered : Ordered mode axes buffer) (eager : Bool) {value : ExactTensor}
    (fits : NdTensor.Fits axes value.axes) (defined : Defined value) :
    ∃ there back, RoundTrip eager mode buffer value there back := by
  obtain ⟨there, first⟩ := passValue_of_ordered ordered eager false fits defined
  have fitsThere : NdTensor.Fits axes there.axes := by
    rw [first.axes_eq]
    exact fits
  obtain ⟨back, second⟩ := passValue_of_ordered ordered eager true fitsThere (first.defined defined)
  refine ⟨there, back, first.stores, second.stores, ⟨first.axes_eq, second.axes_eq.trans first.axes_eq⟩,
    first.undivided, second.undivided, ?_⟩
  intro index inside
  obtain ⟨x, given⟩ := Option.isSome_iff_exists.mp (defined index inside)
  obtain ⟨y, low, high, read, firstEntry⟩ := first.entries index inside x given
  have insideThere : NdTensor.Inside there.axes index := by
    rw [first.axes_eq]
    exact inside
  obtain ⟨z, low', high', readBack, secondEntry⟩ := second.entries index insideThere y read
  exact ⟨x, y, z, given, read, readBack, entryRoundTrip_of_passes firstEntry secondEntry⟩

/-! ### The buffers of the constructor -/

theorem getTorchTensor_axes {arr : NormalizationValue ExactTensor} {shape : List Nat} {tensor : ExactTensor}
    (made : getTorchTensor arr shape = .ok tensor) : tensor.axes = shape.reverse := by
  cases arr with
  | other type => cases made
  | array values =>
      unfold getTorchTensor at made
      cases viewed : (TensorOps.view shape values : Option ExactTensor) with
      | none =>
          simp only [viewed] at made
          cases made
      | some result =>
          simp only [viewed] at made
          cases made
          exact NdTensor.axes_of_view viewed

theorem modeBuffer_pair {shape : List Nat} {data : NormalizationParameters ExactTensor}
    (made : modeBuffer mode shape data = .ok buffer) :
    buffer.mask = none ∧ (mode ≠ .identity → ∃ first second, buffer.pair mode = some (first, second) ∧
      first.axes = shape.reverse ∧ second.axes = shape.reverse) := by
  cases mode with
  | identity =>
      cases made
      exact ⟨rfl, fun normalized => absurd rfl normalized⟩
  | meanStd | minMax | quantiles =>
      obtain ⟨first, viewedFirst, made⟩ := bind_ok made
      obtain ⟨second, viewedSecond, made⟩ := bind_ok made
      cases made
      exact ⟨rfl, fun _ => ⟨first, second, rfl, getTorchTensor_axes viewedFirst, getTorchTensor_axes viewedSecond⟩⟩

theorem statsBuffer_pair {shape : List Nat} {data : NormalizationParameters ExactTensor}
    (made : statsBuffer mode shape data = .ok buffer) :
    (∀ mask ∈ buffer.mask, mask.axes = shape.reverse) ∧
      (mode ≠ .identity → ∃ first second, buffer.pair mode = some (first, second) ∧
        first.axes = shape.reverse ∧ second.axes = shape.reverse) := by
  obtain ⟨bare, filled, rest⟩ := bind_ok made
  obtain ⟨unmasked, stats⟩ := modeBuffer_pair filled
  cases given : data.mask with
  | none =>
      rw [given] at rest
      cases rest
      refine ⟨?_, stats⟩
      intro mask found
      rw [unmasked] at found
      cases found
  | some mask =>
      rw [given] at rest
      obtain ⟨viewed, viewing, rest⟩ := bind_ok rest
      cases rest
      refine ⟨?_, ?_⟩
      · intro found same
        cases same
        exact getTorchTensor_axes viewing
      · intro normalized
        obtain ⟨first, second, pair, shapes⟩ := stats normalized
        refine ⟨first, second, ?_, shapes⟩
        cases mode <;> exact pair

/-- The statistics of an image have one entry for each channel, those of another feature its shape. -/
theorem statShape_fits {key : Text} {ft : Feature ExactTensor} {shape : List Nat}
    (shaped : statShape key ft = .ok shape) (leading : List Nat) :
    NdTensor.Fits shape.reverse ((ft.shape.getD []).reverse ++ leading) := by
  simp only [statShape] at shaped
  split at shaped
  · split at shaped
    · next c h w given =>
        rw [given]
        split at shaped
        · cases shaped
          exact ⟨Or.inr rfl, Or.inr rfl, Or.inl rfl, NdTensor.fits_nil leading⟩
        · cases shaped
    · cases shaped
  · cases shaped
    exact NdTensor.fits_append _ leading

/-- Every value of a feature comes back from its normalization, but for the epsilon of two of the modes. -/
theorem normalization_round_trip {key : Text} {ft : Feature ExactTensor} {shape : List Nat}
    {data : NormalizationParameters ExactTensor} (shaped : statShape key ft = .ok shape)
    (made : statsBuffer mode shape data = .ok buffer)
    (ordered : mode ≠ .identity → ∀ index, NdTensor.Inside shape.reverse index →
      ∃ low high, StatsAt buffer mode index low high ∧ 0 ≤ spread mode low high)
    (masks : ∀ mask ∈ buffer.mask, Defined mask) (eager : Bool) {value : ExactTensor} {leading : List Nat}
    (valueShape : value.axes = (ft.shape.getD []).reverse ++ leading) (defined : Defined value) :
    ∃ there back, RoundTrip eager mode buffer value there back := by
  obtain ⟨maskAxes, pairs⟩ := statsBuffer_pair made
  have fits : NdTensor.Fits shape.reverse value.axes := by
    rw [valueShape]
    exact statShape_fits shaped leading
  have statistics : Ordered mode shape.reverse buffer := by
    constructor
    · intro normalized
      obtain ⟨first, second, pair, firstAxes, secondAxes⟩ := pairs normalized
      refine ⟨first, second, pair, firstAxes, secondAxes, ?_⟩
      intro index inside
      obtain ⟨low, high, ⟨first', second', pair', lows, highs⟩, nonneg⟩ := ordered normalized index inside
      rw [pair] at pair'
      cases pair'
      rw [NdTensor.read_inside (by rw [firstAxes]; exact inside)] at lows
      rw [NdTensor.read_inside (by rw [secondAxes]; exact inside)] at highs
      exact ⟨low, high, lows, highs, nonneg⟩
    · intro mask found
      refine ⟨maskAxes mask found, fun index inside => ?_⟩
      have within : NdTensor.Inside mask.axes index := by
        rw [maskAxes mask found]
        exact inside
      have present := masks mask found index within
      rw [NdTensor.read_inside within] at present
      exact present
  exact roundTrip_of_ordered statistics eager fits defined

def row (values : List ℚ) : ExactTensor :=
  ⟨[values.length], fun index => values[index.headD 0]?⟩

def absent : NormalizationValue ExactTensor := .other "NoneType".toList

def graspQuantiles : NormalizationParameters ExactTensor where
  mean := absent
  std := absent
  min := absent
  max := absent
  q01 := .array (row [0, 1])
  q99 := .array (row [2, 1])
  mask := none

def grasp : Feature ExactTensor := ⟨some graspQuantiles, some .action, some [2]⟩

theorem row_defined (values : List ℚ) : Defined (row values) := by
  intro index inside
  rw [NdTensor.read_inside inside]
  cases inside with
  | cons bounded _ =>
      rw [Option.isSome_iff_exists]
      exact ⟨_, List.getElem?_eq_getElem bounded⟩

theorem grasp_round_trip : ∃ buffer there back, statsBuffer .quantiles [2] graspQuantiles = .ok buffer ∧
    RoundTrip true .quantiles buffer (row [5, 7]) there back := by
  obtain ⟨buffer, made⟩ : ∃ buffer, statsBuffer .quantiles [2] graspQuantiles = .ok buffer := ⟨_, rfl⟩
  have ordered : ∀ index, NdTensor.Inside [2] index →
      ∃ low high, StatsAt buffer .quantiles index low high ∧ 0 ≤ spread .quantiles low high := by
    cases made
    intro index inside
    have listed := NdTensor.mem_indices.mpr inside
    have either : index = [0] ∨ index = [1] := by
      simpa [NdTensor.indices, List.range_succ] using listed
    rcases either with first | second
    · subst first
      exact ⟨0, 2, ⟨_, _, rfl, rfl, rfl⟩, by norm_num [spread]⟩
    · subst second
      exact ⟨1, 1, ⟨_, _, rfl, rfl, rfl⟩, by norm_num [spread]⟩
  have masks : ∀ mask ∈ buffer.mask, Defined mask := by
    cases made
    intro mask found
    cases found
  obtain ⟨there, back, trip⟩ :=
    @normalization_round_trip .quantiles buffer "action".toList grasp [2] graspQuantiles rfl made (fun _ => ordered)
      masks true (row [5, 7]) [] rfl (row_defined [5, 7])
  exact ⟨buffer, there, back, made, trip⟩

end PhysicalAiStudio.Policies.Normalization
