import PhysicalAiStudio.Policies.JointTransform

/-! Moving a value into a joint frame, against moving the statistics it is normalized with. -/

set_option autoImplicit false

namespace PhysicalAiStudio.Policies.JointTransform
open Numeric
open Normalization (ExactTensor)

namespace JointFrameTransform

variable {t : JointFrameTransform} {dimension : Nat}

/-! ### Bounds -/

/-- Statistics and a mask that are made for a feature of so many dimensions. -/
structure Accepted (normalization : NormalizationParameters) (dimension : Nat) : Prop where
  mean : normalization.mean.Accepted dimension
  std : normalization.std.Accepted dimension
  min : normalization.min.Accepted dimension
  max : normalization.max.Accepted dimension
  q01 : normalization.q01.Accepted dimension
  q99 : normalization.q99.Accepted dimension
  mask : ∀ listed ∈ normalization.mask, listed.length = dimension

def OrderedBounds (lower upper : Statistic) (dimension : Nat) : Prop :=
  ∀ index < dimension, ∀ low ∈ lower.at index, ∀ high ∈ upper.at index, low ≤ high

/-- In every dimension the new bounds are in order, and hold what the old ones held. -/
def BoundsCommute (dimension : Nat) (lower upper lower' upper' : Statistic) (values moved : ExactTensor) : Prop :=
  ∀ index < dimension, ∀ low ∈ lower.at index, ∀ high ∈ upper.at index,
    ∃ low' high', lower'.at index = some low' ∧ upper'.at index = some high' ∧ low' ≤ high' ∧
      ∀ rest x y, NdTensor.Inside values.axes (index :: rest) →
        values.read (index :: rest) = some x → moved.read (index :: rest) = some y →
          (low ≤ x ∧ x ≤ high ↔ low' ≤ y ∧ y ≤ high')

theorem transformBounds_of_accepted (t : JointFrameTransform) {lower upper : Statistic}
    (lowAccepted : lower.Accepted dimension) (highAccepted : upper.Accepted dimension) :
    ∃ bounds, t.transformBounds lower upper dimension = .ok bounds ∧
      ∀ lows highs, statValues lower dimension = .ok (some lows) → statValues upper dimension = .ok (some highs) →
        bounds = (some (t.movedBounds dimension lows highs).1, some (t.movedBounds dimension lows highs).2) := by
  rcases statValues_of_accepted lowAccepted with ⟨lowAbsent, lowRead⟩ | ⟨lows, lowRead, lowLength, lowGiven, -⟩
  · obtain ⟨bounds, transformed⟩ := transformBounds_of_absent (t := t) lowAccepted highAccepted (Or.inl lowAbsent)
    refine ⟨bounds, transformed, fun lows highs given _ => ?_⟩
    rw [lowRead] at given
    cases given
  · rcases statValues_of_accepted highAccepted with ⟨highAbsent, highRead⟩ | ⟨highs, highRead, highLength, highGiven, -⟩
    · obtain ⟨bounds, transformed⟩ := transformBounds_of_absent (t := t) lowAccepted highAccepted (Or.inr highAbsent)
      refine ⟨bounds, transformed, fun lows highs _ given => ?_⟩
      rw [highRead] at given
      cases given
    · refine ⟨_, transformBounds_of_values lowRead highRead (lowLength.trans highLength.symm) lowGiven highGiven, ?_⟩
      intro lows' highs' lowRead' highRead'
      rw [lowRead] at lowRead'
      rw [highRead] at highRead'
      cases lowRead'
      cases highRead'
      rfl

theorem forwardNormalization_of_accepted (t : JointFrameTransform) {normalization : NormalizationParameters}
    (accepted : Accepted normalization dimension) :
    ∃ transformed bounds quantiles, t.forwardNormalization normalization dimension = .ok transformed ∧
      t.transformBounds normalization.min normalization.max dimension = .ok bounds ∧
      t.transformBounds normalization.q01 normalization.q99 dimension = .ok quantiles ∧
      transformed.min = listed bounds.1 ∧ transformed.max = listed bounds.2 ∧
      transformed.q01 = listed quantiles.1 ∧ transformed.q99 = listed quantiles.2 ∧
      transformed.mask = normalization.mask := by
  obtain ⟨mean, means⟩ := @transformStat_of_accepted t dimension _ accepted.mean true false
  obtain ⟨std, stds⟩ := @transformStat_of_accepted t dimension _ accepted.std false true
  obtain ⟨bounds, bounded, -⟩ := t.transformBounds_of_accepted accepted.min accepted.max
  obtain ⟨quantiles, quantiled, -⟩ := t.transformBounds_of_accepted accepted.q01 accepted.q99
  have masks : validateMask normalization.mask dimension = .ok () := by
    unfold validateMask
    split
    · rfl
    · next listed given => exact if_neg (fun other => other (accepted.mask listed given))
  refine ⟨⟨listed mean, listed std, listed bounds.1, listed bounds.2, listed quantiles.1, listed quantiles.2,
    normalization.mask⟩, bounds, quantiles, ?_, bounded, quantiled, rfl, rfl, rfl, rfl, rfl⟩
  unfold forwardNormalization
  rw [masks, means, stds, bounded, quantiled]
  rfl

theorem getElem_of_at {statistic : Statistic} (accepted : statistic.Accepted dimension) {index : Nat}
    (inside : index < dimension) {value : ℚ} (given : statistic.at index = some value) :
    ∃ values, statValues statistic dimension = .ok (some values) ∧ values[index]? = some value := by
  rcases statValues_of_accepted accepted with ⟨absent, -⟩ | ⟨values, read, -, -, entries⟩
  · rw [absent] at given
    cases given
  · exact ⟨values, read, by rw [← entries index inside, given]⟩

theorem boundsCommute_of_accepted (t : JointFrameTransform) {lower upper : Statistic}
    (lowAccepted : lower.Accepted dimension) (highAccepted : upper.Accepted dimension)
    (ordered : OrderedBounds lower upper dimension) {bounds : Option (List ℚ) × Option (List ℚ)}
    (transformed : t.transformBounds lower upper dimension = .ok bounds) {values : ExactTensor} {leading : List Nat}
    (shape : values.axes = dimension :: leading) :
    BoundsCommute dimension lower upper (listed bounds.1) (listed bounds.2) values (t.moved values false) := by
  intro index inside low lowGiven high highGiven
  have least := ordered index inside low lowGiven high highGiven
  obtain ⟨lows, lowRead, lowAt⟩ := getElem_of_at lowAccepted inside lowGiven
  obtain ⟨highs, highRead, highAt⟩ := getElem_of_at highAccepted inside highGiven
  obtain ⟨bounds', transformed', given⟩ := t.transformBounds_of_accepted lowAccepted highAccepted
  rw [transformed] at transformed'
  cases transformed'
  rw [given lows highs lowRead highRead]
  obtain ⟨lowMoved, highMoved⟩ := @movedBounds_at t dimension lows highs index low high lowAt highAt
  refine ⟨_, _, lowMoved, highMoved, min_le_max, ?_⟩
  intro rest x y within valueRead movedRead
  rw [shape] at within
  rw [read_moved shape within, valueRead] at movedRead
  cases movedRead
  exact t.applyEntry_between dimension index least x

end JointFrameTransform

/-! ### Quantiles -/

section Quantiles
open Normalization

def absentValue : NormalizationValue ExactTensor := .other "NoneType".toList

def maskRow (mask : List Bool) : ExactTensor :=
  row (mask.map fun normalized => if normalized then 1 else 0)

/-- The quantiles of a feature as the normalization of a policy is given them. -/
def quantileParameters (lows highs : List ℚ) (mask : Option (List Bool)) :
    Normalization.NormalizationParameters ExactTensor where
  mean := absentValue
  std := absentValue
  min := absentValue
  max := absentValue
  q01 := .array (row lows)
  q99 := .array (row highs)
  mask := mask.map maskRow

theorem view_row {values : List ℚ} {dimension : Nat} (length : values.length = dimension) :
    ∃ viewed, getTorchTensor (.array (row values)) [dimension] = .ok viewed ∧ viewed.axes = [dimension] ∧
      ∀ index < dimension, ∀ rest, viewed.read (index :: rest) = values[index]? := by
  subst length
  refine ⟨⟨[values.length], fun index =>
    (row values).entry (NdTensor.unflatten [values.length] (NdTensor.flatten [values.length] index))⟩, ?_, rfl, ?_⟩
  · show (NdTensor.view [values.length] (row values)).elim _ _ = _
    unfold NdTensor.view
    rw [if_pos (show [values.length].prod = (row values).axes.prod from rfl)]
    rfl
  · intro index inside rest
    show values[(axis values.length index + values.length * 0) % values.length]? = values[index]?
    rw [axis_inside inside, Nat.mul_zero, Nat.add_zero, Nat.mod_eq_of_lt inside]

structure QuantileBuffer (dimension : Nat) (lows highs : List ℚ) (mask : Option (List Bool))
    (buffer : Buffer ExactTensor) : Prop where
  ordered : Ordered .quantiles [dimension] buffer
  stats : ∀ index < dimension, ∀ rest low high, lows[index]? = some low → highs[index]? = some high →
    StatsAt buffer .quantiles (index :: rest) low high
  mask : ∀ index < dimension, ∀ rest, (∀ listed ∈ mask, listed[index]? = some true) →
    ¬MaskedOut buffer (index :: rest)

/-- Tensors of one axis, of which a mode reads two, make the buffer. -/
theorem quantileBuffer_of_views {dimension : Nat} {lows highs : List ℚ} {mask : Option (List Bool)}
    {buffer : Buffer ExactTensor} {first second : ExactTensor}
    (pair : buffer.pair .quantiles = some (first, second))
    (lowAxes : first.axes = [dimension]) (highAxes : second.axes = [dimension])
    (lowReads : ∀ index < dimension, ∀ rest, first.read (index :: rest) = lows[index]?)
    (highReads : ∀ index < dimension, ∀ rest, second.read (index :: rest) = highs[index]?)
    (lowLength : lows.length = dimension) (highLength : highs.length = dimension)
    (ordered : ∀ index < dimension, ∀ low ∈ lows[index]?, ∀ high ∈ highs[index]?, low ≤ high)
    (masks : ∀ viewed ∈ buffer.mask, viewed.axes = [dimension] ∧ ∃ listed ∈ mask, listed.length = dimension ∧
      ∀ index < dimension, ∀ rest, viewed.read (index :: rest) =
        (listed.map fun normalized => if normalized then (1 : ℚ) else 0)[index]?) :
    QuantileBuffer dimension lows highs mask buffer where
  ordered := by
    constructor
    · intro _
      refine ⟨first, second, pair, lowAxes, highAxes, ?_⟩
      rintro index inside
      cases inside with
      | @cons position _ rest _ bounded empty =>
          cases empty
          have lowAt : lows[position]? = some lows[position] := List.getElem?_eq_getElem (by omega)
          have highAt : highs[position]? = some highs[position] := List.getElem?_eq_getElem (by omega)
          have within : NdTensor.Inside [dimension] [position] := List.Forall₂.cons bounded List.Forall₂.nil
          refine ⟨lows[position], highs[position], ?_, ?_, ?_⟩
          · rw [← NdTensor.read_inside (lowAxes ▸ within), lowReads position bounded, lowAt]
          · rw [← NdTensor.read_inside (highAxes ▸ within), highReads position bounded, highAt]
          · exact sub_nonneg.mpr (ordered position bounded _ lowAt _ highAt)
    · intro viewed found
      obtain ⟨axes, listed, -, length, reads⟩ := masks viewed found
      refine ⟨axes, fun index inside => ?_⟩
      cases inside with
      | @cons position _ rest _ bounded empty =>
          cases empty
          have within : NdTensor.Inside [dimension] [position] := List.Forall₂.cons bounded List.Forall₂.nil
          rw [← NdTensor.read_inside (axes ▸ within), reads position bounded, Option.isSome_iff_exists]
          exact ⟨_, List.getElem?_eq_getElem (by rw [List.length_map]; omega)⟩
  stats := by
    intro index inside rest low high lowAt highAt
    exact ⟨first, second, pair, by rw [lowReads index inside, lowAt], by rw [highReads index inside, highAt]⟩
  mask := by
    intro index inside rest unmasked out
    obtain ⟨viewed, found, zero⟩ := out
    obtain ⟨-, listed, given, -, reads⟩ := masks viewed found
    rw [reads index inside, List.getElem?_map, unmasked listed given] at zero
    exact one_ne_zero (Option.some.inj zero)

theorem statsBuffer_quantiles {dimension : Nat} {lows highs : List ℚ} {mask : Option (List Bool)}
    (lowLength : lows.length = dimension) (highLength : highs.length = dimension)
    (maskLength : ∀ listed ∈ mask, listed.length = dimension)
    (ordered : ∀ index < dimension, ∀ low ∈ lows[index]?, ∀ high ∈ highs[index]?, low ≤ high) :
    ∃ buffer, statsBuffer .quantiles [dimension] (quantileParameters lows highs mask) = .ok buffer ∧
      QuantileBuffer dimension lows highs mask buffer := by
  obtain ⟨first, lowViewed, lowAxes, lowReads⟩ := view_row lowLength
  obtain ⟨second, highViewed, highAxes, highReads⟩ := view_row highLength
  have filled : modeBuffer .quantiles [dimension] (quantileParameters lows highs mask) =
      .ok { q01 := some first, q99 := some second } := by
    simp only [modeBuffer, quantileParameters, lowViewed, highViewed]
    rfl
  cases mask with
  | none =>
      refine ⟨{ q01 := some first, q99 := some second }, ?_,
        quantileBuffer_of_views rfl lowAxes highAxes lowReads highReads lowLength highLength ordered ?_⟩
      · unfold statsBuffer
        rw [filled]
        rfl
      · intro viewed found
        cases found
  | some listed =>
      have length := maskLength listed rfl
      have rowLength : (listed.map fun normalized => if normalized then (1 : ℚ) else 0).length = dimension := by
        rw [List.length_map, length]
      obtain ⟨viewed, maskViewed, maskAxes, maskReads⟩ := view_row rowLength
      refine ⟨{ q01 := some first, q99 := some second, mask := some viewed }, ?_,
        quantileBuffer_of_views rfl lowAxes highAxes lowReads highReads lowLength highLength ordered ?_⟩
      · unfold statsBuffer
        rw [filled]
        show (getTorchTensor (.array (maskRow listed)) [dimension] >>= fun viewed => _) = _
        rw [maskRow, maskViewed]
        rfl
      · intro found same
        cases same
        exact ⟨maskAxes, listed, rfl, length, maskReads⟩

def QuantilesCommute (t : JointFrameTransform) (dimension : Nat)
    (normalization transformed : JointTransform.NormalizationParameters) (values moved : ExactTensor) : Prop :=
  ∀ lows highs, JointFrameTransform.statValues normalization.q01 dimension = .ok (some lows) →
    JointFrameTransform.statValues normalization.q99 dimension = .ok (some highs) →
    ∃ lows' highs', transformed.q01 = .vector lows' ∧ transformed.q99 = .vector highs' ∧
      ∃ buffer buffer',
        statsBuffer .quantiles [dimension] (quantileParameters lows highs normalization.mask) = .ok buffer ∧
        statsBuffer .quantiles [dimension] (quantileParameters lows' highs' transformed.mask) = .ok buffer' ∧
        ∀ eager, ∃ result result', Stores eager .quantiles buffer false values result ∧
          Stores eager .quantiles buffer' false moved result' ∧
          ∀ index rest, NdTensor.Inside values.axes (index :: rest) →
            (∀ listed ∈ normalization.mask, listed[index]? = some true) →
            (∀ low ∈ lows[index]?, ∀ high ∈ highs[index]?, low < high) →
            ∃ y, result.read (index :: rest) = some y ∧
              result'.read (index :: rest) = some (t.direction dimension index * y)

theorem moved_defined (t : JointFrameTransform) {values : ExactTensor} {dimension : Nat} {leading : List Nat}
    (shape : values.axes = dimension :: leading) (defined : Defined values) : Defined (t.moved values false) := by
  intro index inside
  have within : NdTensor.Inside values.axes index := inside
  have present := defined index within
  rw [shape] at within
  cases within with
  | @cons position _ rest _ bounded within =>
      rw [JointFrameTransform.read_moved shape (List.Forall₂.cons bounded within), Option.isSome_map]
      exact present

theorem quantile_entry {dimension : Nat} {lows highs : List ℚ} {mask : Option (List Bool)}
    {buffer : Buffer ExactTensor} (made : QuantileBuffer dimension lows highs mask buffer) {eager : Bool}
    {value result : ExactTensor} (pass : PassValue eager .quantiles buffer false value result) {index : Nat}
    {rest : List Nat} (bounded : index < dimension) (inside : NdTensor.Inside value.axes (index :: rest))
    (unmasked : ∀ listed ∈ mask, listed[index]? = some true) {low high x : ℚ} (lowAt : lows[index]? = some low)
    (highAt : highs[index]? = some high) (given : value.read (index :: rest) = some x) :
    result.read (index :: rest) = some (normalizedEntry .quantiles low high x) := by
  obtain ⟨y, low', high', read, entry⟩ := pass.entries _ inside x given
  have normalized : NormalizationType.quantiles ≠ .identity := by decide
  obtain ⟨sameLow, sameHigh⟩ :=
    StatsAt.unique (entry.stats normalized).1 (made.stats index bounded rest low high lowAt highAt)
  have changed := entry.changed (made.mask index bounded rest unmasked)
  rw [sameLow, sameHigh] at changed
  rw [read, changed]
  rfl

theorem quantilesCommute_of_accepted (t : JointFrameTransform) {dimension : Nat}
    {normalization transformed : JointTransform.NormalizationParameters}
    (accepted : JointFrameTransform.Accepted normalization dimension)
    (ordered : JointFrameTransform.OrderedBounds normalization.q01 normalization.q99 dimension)
    {quantiles : Option (List ℚ) × Option (List ℚ)}
    (moved : t.transformBounds normalization.q01 normalization.q99 dimension = .ok quantiles)
    (q01 : transformed.q01 = JointFrameTransform.listed quantiles.1)
    (q99 : transformed.q99 = JointFrameTransform.listed quantiles.2)
    (mask : transformed.mask = normalization.mask) {values : ExactTensor} {leading : List Nat}
    (shape : values.axes = dimension :: leading) (defined : Defined values) :
    QuantilesCommute t dimension normalization transformed values (t.moved values false) := by
  intro lows highs lowRead highRead
  have lengths : ∀ {statistic : Statistic} {listed : List ℚ}, statistic.Accepted dimension →
      JointFrameTransform.statValues statistic dimension = .ok (some listed) →
      listed.length = dimension ∧ ∀ index < dimension, statistic.at index = listed[index]? := by
    intro statistic listed fits read
    rcases JointFrameTransform.statValues_of_accepted fits with ⟨-, nothing⟩ | ⟨found, present, length, -, entries⟩
    · rw [nothing] at read
      cases read
    · rw [present] at read
      cases read
      exact ⟨length, entries⟩
  obtain ⟨lowLength, lowEntries⟩ := lengths accepted.q01 lowRead
  obtain ⟨highLength, highEntries⟩ := lengths accepted.q99 highRead
  have listOrdered : ∀ index < dimension, ∀ low ∈ lows[index]?, ∀ high ∈ highs[index]?, low ≤ high := by
    intro index inside low lowAt high highAt
    rw [← lowEntries index inside] at lowAt
    rw [← highEntries index inside] at highAt
    exact ordered index inside low lowAt high highAt
  obtain ⟨quantiles', moved', given⟩ := t.transformBounds_of_accepted accepted.q01 accepted.q99
  rw [moved] at moved'
  cases moved'
  rw [given lows highs lowRead highRead] at q01 q99
  have movedAt : ∀ index low high, lows[index]? = some low → highs[index]? = some high → _ :=
    fun index low high lowAt highAt =>
      @JointFrameTransform.movedBounds_at t dimension lows highs index low high lowAt highAt
  have movedLow : (t.movedBounds dimension lows highs).1.length = dimension := by
    simp [JointFrameTransform.movedBounds, JointFrameTransform.movedStat, lowLength, highLength]
  have movedHigh : (t.movedBounds dimension lows highs).2.length = dimension := by
    simp [JointFrameTransform.movedBounds, JointFrameTransform.movedStat, lowLength, highLength]
  have entryAt : ∀ index < dimension, ∃ low high, lows[index]? = some low ∧ highs[index]? = some high :=
    fun index inside => ⟨_, _, List.getElem?_eq_getElem (by omega), List.getElem?_eq_getElem (by omega)⟩
  -- The moved bounds are the smaller and the larger of the two moved values.
  have movedOrdered : ∀ index < dimension, ∀ low ∈ (t.movedBounds dimension lows highs).1[index]?,
      ∀ high ∈ (t.movedBounds dimension lows highs).2[index]?, low ≤ high := by
    intro index inside low lowAt high highAt
    obtain ⟨low', high', lowGiven, highGiven⟩ := entryAt index inside
    obtain ⟨lowMoved, highMoved⟩ := movedAt index low' high' lowGiven highGiven
    rw [lowMoved] at lowAt
    rw [highMoved] at highAt
    cases lowAt
    cases highAt
    exact min_le_max
  obtain ⟨buffer, made, buffered⟩ := statsBuffer_quantiles lowLength highLength accepted.mask listOrdered
  have maskLength : ∀ listed ∈ transformed.mask, listed.length = dimension := by
    rw [mask]
    exact accepted.mask
  obtain ⟨buffer', made', buffered'⟩ := statsBuffer_quantiles movedLow movedHigh maskLength movedOrdered
  refine ⟨_, _, q01, q99, buffer, buffer', made, made', fun eager => ?_⟩
  have fits : NdTensor.Fits [dimension] values.axes := by
    rw [shape]
    exact NdTensor.fits_append [dimension] leading
  -- Both passes exist: the bounds are ordered before and after the move, so no denominator is negative.
  obtain ⟨result, pass⟩ := passValue_of_ordered buffered.ordered eager false fits defined
  have fitsMoved : NdTensor.Fits [dimension] (t.moved values false).axes := fits
  obtain ⟨result', pass'⟩ :=
    passValue_of_ordered buffered'.ordered eager false fitsMoved (moved_defined t shape defined)
  refine ⟨result, result', pass.stores, pass'.stores, ?_⟩
  intro index rest inside unmasked apart
  have within := inside
  rw [shape] at within
  have bounded : index < dimension := (List.forall₂_cons.mp within).1
  obtain ⟨low, high, lowAt, highAt⟩ := entryAt index bounded
  obtain ⟨lowMoved, highMoved⟩ := movedAt index low high lowAt highAt
  obtain ⟨x, present⟩ := Option.isSome_iff_exists.mp (defined _ inside)
  have movedRead : (t.moved values false).read (index :: rest) = some (t.applyEntry false dimension index x) := by
    rw [JointFrameTransform.read_moved shape within, present]
    rfl
  have unmasked' : ∀ listed ∈ transformed.mask, listed[index]? = some true := by
    rw [mask]
    exact unmasked
  refine ⟨_, quantile_entry buffered pass bounded inside unmasked lowAt highAt present, ?_⟩
  rw [quantile_entry buffered' pass' bounded inside unmasked' lowMoved highMoved movedRead,
    t.applyEntry_quantiles dimension index (apart low lowAt high highAt) x]

end Quantiles

/-! ### The transform as a whole -/

theorem jointFrameTransform_commutes (t : JointFrameTransform) {values : ExactTensor} {dimension : Nat}
    {leading : List Nat} (shape : values.axes = dimension :: leading) (defined : Normalization.Defined values) :
    (∃ moved, t.forward values = .ok moved ∧ t.inverse moved = .ok values) ∧
    (∃ moved, t.inverse values = .ok moved ∧ t.forward moved = .ok values) ∧
    ∀ normalization : NormalizationParameters, JointFrameTransform.Accepted normalization dimension →
      JointFrameTransform.OrderedBounds normalization.min normalization.max dimension →
      JointFrameTransform.OrderedBounds normalization.q01 normalization.q99 dimension →
      ∃ moved transformed, t.forward values = .ok moved ∧
        t.forwardNormalization normalization dimension = .ok transformed ∧
        JointFrameTransform.BoundsCommute dimension normalization.min normalization.max transformed.min
          transformed.max values moved ∧
        JointFrameTransform.BoundsCommute dimension normalization.q01 normalization.q99 transformed.q01
          transformed.q99 values moved ∧
        QuantilesCommute t dimension normalization transformed values moved := by
  refine ⟨t.apply_roundTrip shape false, t.apply_roundTrip shape true, ?_⟩
  intro normalization accepted bounds quantiles
  obtain ⟨transformed, bounds', quantiles', made, bounded, quantiled, min, max, q01, q99, mask⟩ :=
    t.forwardNormalization_of_accepted accepted
  refine ⟨t.moved values false, transformed, JointFrameTransform.apply_eq shape false, made, ?_, ?_, ?_⟩
  · rw [min, max]
    exact t.boundsCommute_of_accepted accepted.min accepted.max bounds bounded shape
  · rw [q01, q99]
    exact t.boundsCommute_of_accepted accepted.q01 accepted.q99 quantiles quantiled shape
  · exact quantilesCommute_of_accepted t accepted quantiles quantiled q01 q99 mask shape defined

def elbow : JointFrameTransform :=
  ⟨[-1], [90], [2], rfl, rfl, by simp, by simp⟩

def elbowStatistics : NormalizationParameters :=
  ⟨.absent, .absent, .scalar (-5), .scalar 5, .vector [0, 1], .vector [2, 1], none⟩

theorem elbow_commutes : ∃ moved transformed, elbow.forward (Normalization.row [3, 4]) = .ok moved ∧
    elbow.inverse moved = .ok (Normalization.row [3, 4]) ∧
    elbow.forwardNormalization elbowStatistics 2 = .ok transformed ∧
    QuantilesCommute elbow 2 elbowStatistics transformed (Normalization.row [3, 4]) moved := by
  have accepted : JointFrameTransform.Accepted elbowStatistics 2 :=
    ⟨trivial, trivial, trivial, trivial, rfl, rfl, by simp [elbowStatistics]⟩
  have bounds : JointFrameTransform.OrderedBounds elbowStatistics.min elbowStatistics.max 2 := by
    intro index _ low lowGiven high highGiven
    cases lowGiven
    cases highGiven
    norm_num
  have quantiles : JointFrameTransform.OrderedBounds elbowStatistics.q01 elbowStatistics.q99 2 := by
    intro index inside low lowGiven high highGiven
    have either : index = 0 ∨ index = 1 := by omega
    rcases either with joint | gripper
    · subst joint
      cases lowGiven
      cases highGiven
      norm_num
    · subst gripper
      cases lowGiven
      cases highGiven
      norm_num
  obtain ⟨⟨moved, there, back⟩, -, statistics⟩ :=
    @jointFrameTransform_commutes elbow (Normalization.row [3, 4]) 2 [] rfl (Normalization.row_defined [3, 4])
  obtain ⟨moved', transformed, there', made, -, -, commutes⟩ := statistics elbowStatistics accepted bounds quantiles
  rw [there] at there'
  cases there'
  exact ⟨moved, transformed, there, back, made, commutes⟩

end PhysicalAiStudio.Policies.JointTransform
