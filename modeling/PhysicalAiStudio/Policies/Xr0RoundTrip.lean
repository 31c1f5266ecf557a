import PhysicalAiStudio.Policies.Xr0Processors
import Mathlib.Tactic.FieldSimp
import Mathlib.Tactic.Linarith

/-! The XR0 postprocessor undoes what the preprocessor did to an action chunk. -/

set_option autoImplicit false

namespace PhysicalAiStudio.Policies.Xr0
open Numeric Strings Normalization

theorem orRaise_ok {α : Type} {error : Error} {attempt : Option α} {value : α}
    (done : orRaise error attempt = .ok value) : attempt = some value := by
  cases attempt with
  | none => cases done
  | some found =>
    cases done
    rfl

/-! ### Normalized chunks -/

structure Fits (action : Tensor3 ℚ) (mean std : Tensor2 ℚ) : Prop where
  meanRows : mean.rows = action.steps
  meanWidth : mean.width = action.width
  stdRows : std.rows = action.steps
  stdWidth : std.width = action.width

theorem get_lift {table : Tensor2 ℚ} {sample step channel : Nat} (inside : step < table.rows ∧ channel < table.width) :
    table.lift.get (axis table.lift.batch sample) (axis table.lift.steps step) (axis table.lift.width channel) =
      table.get step channel := by
  unfold Tensor2.lift
  simp only [Tensor3.batch_generate, Tensor3.steps_generate, Tensor3.width_generate, axis_one]
  rw [axis_inside inside.1, axis_inside inside.2, Tensor3.get_generate,
    if_pos ⟨Nat.zero_lt_one, inside.1, inside.2⟩]

theorem broadcast_table (op : ℚ → ℚ → ℚ) {action : Tensor3 ℚ} {table : Tensor2 ℚ}
    (rows : table.rows = action.steps) (width : table.width = action.width) :
    action.broadcast op table.lift = some (.generate action.batch action.steps action.width
      fun sample step channel => op (action.get sample step channel) (table.get step channel)) := by
  have batches : extent action.batch table.lift.batch = some action.batch := extent_one_right _
  have lengths : extent action.steps table.lift.steps = some action.steps := by
    rw [show table.lift.steps = table.rows from rfl, rows, extent_self]
  have widths : extent action.width table.lift.width = some action.width := by
    rw [show table.lift.width = table.width from rfl, width, extent_self]
  rw [Tensor3.broadcast_eq batches lengths widths]
  refine congrArg some (Tensor3.generate_congr fun sample step channel inside => ?_)
  have inTable : step < table.rows ∧ channel < table.width := by omega
  rw [get_lift inTable, axis_inside inside.1, axis_inside inside.2.1, axis_inside inside.2.2]

theorem get_scale {std : Tensor2 ℚ} {step channel : Nat} (inside : step < std.rows ∧ channel < std.width) :
    (scale std).get step channel = std.get step channel + actionEps := by
  unfold scale
  rw [Tensor2.get_generate, if_pos inside]

theorem normalizeAction_eq {action : Tensor3 ℚ} {mean std : Tensor2 ℚ} (fits : Fits action mean std) :
    normalizeAction action mean std = some (.generate action.batch action.steps action.width
      fun sample step channel =>
        (action.get sample step channel - mean.get step channel) / (std.get step channel + actionEps)) := by
  unfold normalizeAction
  rw [broadcast_table _ fits.meanRows fits.meanWidth, Option.bind_eq_bind, Option.bind_some, broadcast_table]
  · refine congrArg some (Tensor3.generate_congr fun sample step channel inside => ?_)
    have inStd : step < std.rows ∧ channel < std.width := by
      rw [fits.stdRows, fits.stdWidth]
      exact inside.2
    have within : sample < action.batch ∧ step < action.steps ∧ channel < action.width := inside
    rw [Tensor3.get_generate, if_pos within, get_scale inStd]
  · exact fits.stdRows
  · exact fits.stdWidth

theorem denormalizeAction_eq {action : Tensor3 ℚ} {mean std : Tensor2 ℚ} (fits : Fits action mean std) :
    denormalizeAction action mean std = some (.generate action.batch action.steps action.width
      fun sample step channel =>
        action.get sample step channel * (std.get step channel + actionEps) + mean.get step channel) := by
  unfold denormalizeAction
  have rows : (scale std).rows = action.steps := fits.stdRows
  have width : (scale std).width = action.width := fits.stdWidth
  rw [broadcast_table _ rows width, Option.bind_eq_bind, Option.bind_some, broadcast_table]
  · refine congrArg some (Tensor3.generate_congr fun sample step channel inside => ?_)
    have inStd : step < std.rows ∧ channel < std.width := by
      rw [fits.stdRows, fits.stdWidth]
      exact inside.2
    have within : sample < action.batch ∧ step < action.steps ∧ channel < action.width := inside
    rw [Tensor3.get_generate, if_pos within, get_scale inStd]
  · exact fits.meanRows
  · exact fits.meanWidth

/-! ### The overlap of an action and a state -/

/-- The batch of a state that every sample of an action can be combined with. -/
def Covers (current action : Tensor3 ℚ) : Prop :=
  current.steps = 1 ∧ (current.batch = action.batch ∨ current.batch = 1)

def overlaid (op : ℚ → ℚ → ℚ) (action current : Tensor3 ℚ) : Tensor3 ℚ :=
  .generate action.batch action.steps action.width fun sample step channel =>
    if channel < current.width then
      op (action.get sample step channel) (current.get (axis current.batch sample) 0 channel)
    else action.get sample step channel

theorem broadcast_narrow (op : ℚ → ℚ → ℚ) {action current : Tensor3 ℚ} (covers : Covers current action) {count : Nat}
    (inAction : count ≤ action.width) (inState : count ≤ current.width) :
    (action.narrow count).broadcast op (current.narrow count) =
      some (.generate action.batch action.steps count fun sample step channel =>
        op (action.get sample step channel) (current.get (axis current.batch sample) 0 channel)) := by
  have actionWidth : (action.narrow count).width = count := Nat.min_eq_left inAction
  have stateWidth : (current.narrow count).width = count := Nat.min_eq_left inState
  have batches : extent (action.narrow count).batch (current.narrow count).batch = some action.batch := by
    rw [show (action.narrow count).batch = action.batch from rfl]
    exact extent_eq_left.mpr covers.2
  have lengths : extent (action.narrow count).steps (current.narrow count).steps = some action.steps := by
    rw [show (current.narrow count).steps = current.steps from rfl, covers.1]
    exact extent_one_right _
  have widths : extent (action.narrow count).width (current.narrow count).width = some count := by
    rw [actionWidth, stateWidth, extent_self]
  rw [Tensor3.broadcast_eq batches lengths widths]
  refine congrArg some (Tensor3.generate_congr fun sample step channel inside => ?_)
  rw [actionWidth, stateWidth, show (action.narrow count).batch = action.batch from rfl,
    show (action.narrow count).steps = action.steps from rfl,
    show (current.narrow count).batch = current.batch from rfl,
    show (current.narrow count).steps = current.steps from rfl, covers.1, axis_inside inside.1,
    axis_inside inside.2.1, axis_inside inside.2.2, axis_one, Tensor3.get_narrow inside.2.2, Tensor3.get_narrow inside.2.2]

theorem onOverlap_eq (op : ℚ → ℚ → ℚ) {action current : Tensor3 ℚ} (covers : Covers current action) :
    onOverlap op action current = some (overlaid op action current) := by
  unfold onOverlap
  by_cases shorter : current.width < action.width
  · have overlap : min action.width current.width = current.width := by omega
    rw [overlap, if_pos shorter, broadcast_narrow op covers (by omega) (by omega), Option.bind_eq_bind, Option.bind_some]
    unfold Tensor3.cat
    rw [if_pos ⟨rfl, rfl⟩]
    congr 1
    apply Tensor3.ext_get
    · rfl
    · rfl
    · show current.width + (action.width - current.width) = action.width
      omega
    · intro sample step channel inside
      have within : sample < action.batch ∧ step < action.steps ∧
          channel < current.width + (action.width - current.width) := inside
      simp only [overlaid, Tensor3.get_generate, Tensor3.batch_generate, Tensor3.steps_generate,
        Tensor3.width_generate, Tensor3.width_rest, Tensor3.get_rest]
      have reached : sample < action.batch ∧ step < action.steps ∧ channel < action.width := by omega
      rw [if_pos within, if_pos reached]
      -- The channels of the state come from the head, the others from what is left of the action.
      by_cases shared : channel < current.width
      · simp only [within.1, within.2.1, shared, and_self, if_true]
      · simp only [if_neg shared]
        congr 1
        show current.width + (channel - current.width) = channel
        omega
  · have overlap : min action.width current.width = action.width := by omega
    have combined := broadcast_narrow op covers (le_refl action.width) (by omega)
    rw [Tensor3.narrow_width] at combined
    rw [overlap, if_neg (by omega)]
    unfold Tensor3.into
    rw [combined, Option.bind_eq_bind, Option.bind_some, if_pos ⟨rfl, rfl, rfl⟩]
    congr 1
    apply Tensor3.ext_get
    · rfl
    · rfl
    · rfl
    · intro sample step channel inside
      have within : sample < action.batch ∧ step < action.steps ∧ channel < action.width := inside
      unfold overlaid
      rw [Tensor3.get_generate, if_pos within, Tensor3.get_generate, if_pos within, if_pos (by omega)]

/-- A combination that went through was given a state that covers the batch. -/
theorem onOverlap_covers {op : ℚ → ℚ → ℚ} {action current result : Tensor3 ℚ} (frame : current.steps = 1)
    (done : onOverlap op action current = some result) : Covers current action := by
  refine ⟨frame, ?_⟩
  apply extent_eq_left.mp
  simp only [onOverlap] at done
  split at done
  · simp only [Option.bind_eq_bind, Option.bind_eq_some_iff] at done
    obtain ⟨head, combined, joined⟩ := done
    have batches := (Tensor3.broadcast_extents combined).1
    unfold Tensor3.cat at joined
    split at joined
    · next aligned =>
      rw [aligned.1] at batches
      exact batches
    · cases joined
  · unfold Tensor3.into at done
    simp only [Option.bind_eq_bind, Option.bind_eq_some_iff] at done
    obtain ⟨combination, combined, kept⟩ := done
    have batches := (Tensor3.broadcast_extents combined).1
    split at kept
    · next aligned =>
      rw [aligned.1] at batches
      exact batches
    · cases kept

theorem current_steps {state : RawState} {current : Tensor3 ℚ} (read : state.current = some current) :
    current.steps = 1 := by
  cases state with
  | frame values =>
    cases read
    rfl
  | history values =>
    simp only [RawState.current, Tensor3.last] at read
    split at read
    · cases read
    · cases read
      rfl

/-! ### The processors -/

def Stats.Nonneg : Stats → Prop
  | .vector _ entry => ∀ channel, 0 ≤ entry channel
  | .table values => ∀ row channel, 0 ≤ values.entry row channel
  | .other _ _ => True

theorem perTimestep_nonneg {stats : Stats} {chunkSize : Nat} {table : Tensor2 ℚ} (nonneg : stats.Nonneg)
    (read : stats.perTimestep chunkSize = some table) (step channel : Nat) : 0 ≤ table.get step channel := by
  have entries : ∀ row column, 0 ≤ table.entry row column := by
    cases stats with
    | vector width entry =>
      simp only [Stats.perTimestep] at read
      split at read
      · cases read
        exact fun _ column => nonneg column
      · cases read
    | table values =>
      simp only [Stats.perTimestep] at read
      split at read
      · cases read
        exact nonneg
      · cases read
    | other => cases read
  unfold Tensor2.get
  split
  · exact entries _ _
  · exact le_refl 0

/-- The tables of a processor: one row a timestep, one column a channel, and no negative deviation. -/
structure Tables (chunkSize dim : Nat) (mean std : Tensor2 ℚ) : Prop where
  meanRows : mean.rows = chunkSize
  meanWidth : mean.width = dim
  stdRows : std.rows = chunkSize
  stdWidth : std.width = dim

theorem toChunkStats_tables {mean std : Stats} {chunkSize dim : Nat} {name : Text} {tMean tStd : Tensor2 ℚ}
    (built : toChunkStats mean std chunkSize dim name = .ok (tMean, tStd)) : Tables chunkSize dim tMean tStd := by
  unfold toChunkStats at built
  split at built
  · cases built
  · split at built
    · cases built
      exact ⟨rfl, rfl, rfl, rfl⟩
    · cases built

theorem toChunkStats_nonneg {mean std : Stats} {chunkSize dim : Nat} {name : Text} {tMean tStd : Tensor2 ℚ}
    (built : toChunkStats mean std chunkSize dim name = .ok (tMean, tStd)) (nonneg : std.Nonneg)
    (step channel : Nat) : 0 ≤ tStd.get step channel := by
  unfold toChunkStats at built
  split at built
  · cases built
  · split at built
    · next read =>
      cases built
      rw [Tensor2.get_generate]
      split_ifs
      · exact perTimestep_nonneg nonneg read step channel
      · exact zero_le_one
      · exact le_refl 0
    · cases built

def Settings.usedStats (settings : Settings) : Stats × Stats :=
  explicitOr settings.actionMean settings.actionStd settings.actionStats

structure Paired (settings : Settings) (pre : Preprocessor) (post : Postprocessor) : Prop where
  maxActionDim : pre.maxActionDim = settings.maxActionDim
  postMax : post.maxActionDim = settings.maxActionDim
  preChunk : pre.chunkSize = settings.chunkSize
  postChunk : post.chunkSize = settings.chunkSize
  preMode : pre.actionMode = settings.actionMode
  postMode : post.actionMode = settings.actionMode
  mean : post.actionMean = pre.actionMean
  std : post.actionStd = pre.actionStd
  actionDim : settings.actionDim = .ok post.actionDim
  tables : Tables settings.chunkSize settings.maxActionDim pre.actionMean pre.actionStd
  nonneg : settings.usedStats.2.Nonneg → ∀ step channel, 0 ≤ pre.actionStd.get step channel

theorem paired {settings : Settings} {pre : Preprocessor} {post : Postprocessor}
    (first : Preprocessor.init settings = .ok pre) (second : Postprocessor.init settings = .ok post) :
    Paired settings pre post := by
  unfold Preprocessor.init at first
  unfold Postprocessor.init at second
  cases built : toChunkStats settings.usedStats.1 settings.usedStats.2 settings.chunkSize settings.maxActionDim
      "action".toList with
  | error raised =>
    unfold Settings.usedStats at built
    simp only [built, bind, Except.bind, reduceCtorEq] at first
  | ok tables =>
    obtain ⟨mean, std⟩ := tables
    have shapes := toChunkStats_tables built
    have bounds := toChunkStats_nonneg built
    unfold Settings.usedStats at built
    simp only [built, bind, Except.bind, pure, Except.pure] at first second
    split at first
    · cases first
    · cases first
      split at second
      · cases second
      · next declared =>
        cases second
        exact ⟨rfl, rfl, rfl, rfl, rfl, rfl, rfl, rfl, declared, shapes, bounds⟩

/-- What the state takes off a channel of the action, and gives back to it. -/
structure Shifted (offset : Nat → Nat → ℚ) (sign : ℚ) (before after : Tensor3 ℚ) : Prop where
  batch : after.batch = before.batch
  steps : after.steps = before.steps
  width : after.width = before.width
  entries : ∀ sample step channel, before.Inside sample step channel →
    after.get sample step channel = before.get sample step channel + sign * offset sample channel

theorem Shifted.zero (sign : ℚ) (tensor : Tensor3 ℚ) : Shifted (fun _ _ => 0) sign tensor tensor where
  batch := rfl
  steps := rfl
  width := rfl
  entries sample step channel _ := by rw [mul_zero, add_zero]

def stateOffset (current : Tensor3 ℚ) (sample channel : Nat) : ℚ :=
  if channel < current.width then current.get (axis current.batch sample) 0 channel else 0

theorem overlaid_shifted (op : ℚ → ℚ → ℚ) (sign : ℚ) (linear : ∀ a s, op a s = a + sign * s)
    (action current : Tensor3 ℚ) : Shifted (stateOffset current) sign action (overlaid op action current) where
  batch := rfl
  steps := rfl
  width := rfl
  entries sample step channel inside := by
    have within : sample < action.batch ∧ step < action.steps ∧ channel < action.width := inside
    unfold overlaid stateOffset
    rw [Tensor3.get_generate, if_pos within]
    split_ifs
    · rw [linear]
    · rw [mul_zero, add_zero]

/-- The preprocessor takes off an offset that the postprocessor adds to any action of the same batch. -/
theorem deltaAction_shifted {settings : Settings} {pre : Preprocessor} {post : Postprocessor}
    (pair : Paired settings pre post) {action delta : Tensor3 ℚ} {state : Option RawState}
    (done : pre.deltaAction action state = .ok delta) :
    ∃ offset, Shifted offset (-1) action delta ∧ ∀ predicted : Tensor3 ℚ, predicted.batch = action.batch →
      ∃ restored, post.absoluteAction predicted state = .ok restored ∧ Shifted offset 1 predicted restored := by
  have modes : post.actionMode = pre.actionMode := by rw [pair.postMode, pair.preMode]
  unfold Preprocessor.deltaAction at done
  unfold Postprocessor.absoluteAction
  rw [modes]
  -- Absolute actions are shifted by nothing, deltas by the current state.
  cases mode : pre.actionMode with
  | absolute =>
    simp only [mode] at done
    cases done
    refine ⟨fun _ _ => 0, Shifted.zero _ _, ?_⟩
    intro predicted _
    exact ⟨predicted, rfl, Shifted.zero _ _⟩
  | delta =>
    simp only [mode] at done
    cases state with
    | none => cases done
    | some state =>
      cases read : state.current with
      | none =>
        simp only [read, orRaise, bind, Except.bind, reduceCtorEq] at done
      | some current =>
        simp only [read, orRaise.eq_2, bind, Except.bind] at done
        have combined := orRaise_ok done
        have covers := onOverlap_covers (current_steps read) combined
        rw [onOverlap_eq _ covers] at combined
        cases combined
        refine ⟨stateOffset current, overlaid_shifted _ _ (by intro a s; ring) action current, ?_⟩
        intro predicted batch
        have same : Covers current predicted := by
          unfold Covers
          rw [batch]
          exact covers
        refine ⟨overlaid (· + ·) predicted current, ?_, overlaid_shifted _ _ (by intro a s; ring) predicted current⟩
        simp only [read, orRaise, bind, Except.bind, onOverlap_eq _ same]

structure Agrees (width : Nat) (encoded predicted : Tensor3 ℚ) : Prop where
  batch : predicted.batch = encoded.batch
  steps : predicted.steps = encoded.steps
  padded : predicted.width = encoded.width
  entries : ∀ sample step channel, channel < width →
    predicted.get sample step channel = encoded.get sample step channel

theorem denormalize_normalize {scale : ℚ} (positive : 0 < scale) (value mean : ℚ) :
    (value - mean) / scale * scale + mean = value := by
  have nonzero : scale ≠ 0 := ne_of_gt positive
  field_simp
  ring

theorem fits_of_tables {chunkSize dim : Nat} {mean std : Tensor2 ℚ} (tables : Tables chunkSize dim mean std)
    {action : Tensor3 ℚ} (steps : action.steps = chunkSize) (width : action.width = dim) : Fits action mean std where
  meanRows := by rw [tables.meanRows, steps]
  meanWidth := by rw [tables.meanWidth, width]
  stdRows := by rw [tables.stdRows, steps]
  stdWidth := by rw [tables.stdWidth, width]

/-- What the postprocessor makes of a prediction for an encoded chunk, before it drops the padding. -/
theorem forward_restores {settings : Settings} {pre : Preprocessor} {post : Postprocessor}
    (pair : Paired settings pre post) (nonneg : settings.usedStats.2.Nonneg) {chunk encoded : Tensor3 ℚ}
    {mask : Tensor3 Int} {state : Option RawState} (fitting : chunk.width ≤ settings.maxActionDim)
    (prepared : pre.prepareAction chunk state = .ok (encoded, mask)) {predicted : Tensor3 ℚ}
    (agrees : Agrees chunk.width encoded predicted) :
    ∃ restored : Tensor3 ℚ, restored.batch = chunk.batch ∧ restored.steps = chunk.steps ∧
      restored.width = settings.maxActionDim ∧
      (∀ sample step channel, chunk.Inside sample step channel →
        restored.get sample step channel = chunk.get sample step channel) ∧
      post.forward predicted state =
        .ok (match post.actionDim with | some actionDim => restored.narrow actionDim | none => restored) := by
  unfold Preprocessor.prepareAction at prepared
  split at prepared
  · cases prepared
  · next lengths =>
    have steps : chunk.steps = pre.chunkSize := not_not.mp lengths
    cases taken : pre.deltaAction chunk state with
    | error raised =>
      simp only [taken, bind, Except.bind, reduceCtorEq] at prepared
    | ok delta =>
      obtain ⟨offset, off, back⟩ := deltaAction_shifted pair taken
      have fits : Fits (delta.fit pre.maxActionDim) pre.actionMean pre.actionStd := by
        rw [Tensor3.fit_eq]
        apply fits_of_tables pair.tables
        · rw [Tensor3.steps_generate, off.steps, steps, pair.preChunk]
        · rw [Tensor3.width_generate, pair.maxActionDim]
      simp only [taken, bind, Except.bind, normalizeAction_eq fits, orRaise, pure, Except.pure] at prepared
      cases prepared
      have predictedBatch : predicted.batch = chunk.batch := by
        rw [agrees.batch, Tensor3.batch_generate, Tensor3.fit_eq, Tensor3.batch_generate, off.batch]
      have predictedSteps : predicted.steps = chunk.steps := by
        rw [agrees.steps, Tensor3.steps_generate, Tensor3.fit_eq, Tensor3.steps_generate, off.steps]
      have predictedWidth : predicted.width = settings.maxActionDim := by
        rw [agrees.padded, Tensor3.width_generate, Tensor3.fit_eq, Tensor3.width_generate, pair.maxActionDim]
      have postFits : Fits predicted post.actionMean post.actionStd := by
        rw [pair.mean, pair.std]
        apply fits_of_tables pair.tables
        · rw [predictedSteps, steps, pair.preChunk]
        · exact predictedWidth
      obtain ⟨restored, added, on⟩ := back
        (.generate predicted.batch predicted.steps predicted.width fun sample step channel =>
          predicted.get sample step channel * (post.actionStd.get step channel + actionEps) +
            post.actionMean.get step channel) predictedBatch
      refine ⟨restored, ?_, ?_, ?_, ?_, ?_⟩
      · rw [on.batch, Tensor3.batch_generate, predictedBatch]
      · rw [on.steps, Tensor3.steps_generate, predictedSteps]
      · rw [on.width, Tensor3.width_generate, predictedWidth]
      · intro sample step channel inside
        have channels : channel < settings.maxActionDim := lt_of_lt_of_le inside.2.2 fitting
        have within : sample < predicted.batch ∧ step < predicted.steps ∧ channel < predicted.width := by
          rw [predictedBatch, predictedSteps, predictedWidth]
          exact ⟨inside.1, inside.2.1, channels⟩
        have encodedInside : sample < delta.batch ∧ step < delta.steps ∧ channel < pre.maxActionDim := by
          rw [off.batch, off.steps, pair.maxActionDim]
          exact ⟨inside.1, inside.2.1, channels⟩
        -- The denominator is positive, so the entries come back exactly.
        have positive : 0 < pre.actionStd.get step channel + actionEps := by
          have bound := pair.nonneg nonneg step channel
          have eps : (0 : ℚ) < actionEps := by norm_num [actionEps]
          linarith
        rw [on.entries sample step channel within, Tensor3.get_generate, if_pos within,
          agrees.entries sample step channel inside.2.2, Tensor3.fit_eq, Tensor3.get_generate, Tensor3.batch_generate,
          Tensor3.steps_generate, Tensor3.width_generate, if_pos encodedInside, Tensor3.get_generate,
          if_pos encodedInside, pair.mean, pair.std, denormalize_normalize positive,
          off.entries sample step channel inside]
        ring
      · unfold Postprocessor.forward
        rw [if_neg (by rw [predictedSteps, steps, pair.preChunk, pair.postChunk]; exact not_not.mpr rfl)]
        simp only [denormalizeAction_eq postFits, orRaise, bind, Except.bind, added, pure, Except.pure]
        cases post.actionDim <;> rfl

/-- The feature whose statistics are used declares the width of the chunk; where no feature has statistics,
the chunk is as wide as the padded action. -/
def Settings.Recovers (settings : Settings) (width : Nat) : Prop :=
  match featureStats .action settings.features with
  | some (feature, mean, _) =>
    ∃ declared, feature.width mean = .ok declared ∧ min settings.maxActionDim declared = width
  | none => settings.maxActionDim = width

theorem Settings.recovers_iff {settings : Settings} {actionDim : Option Nat}
    (known : settings.actionDim = .ok actionDim) (width : Nat) :
    settings.Recovers width ↔ actionDim.getD settings.maxActionDim = width := by
  unfold Recovers
  unfold Settings.actionDim at known
  cases found : featureStats .action settings.features with
  | none =>
    simp only [found, pure, Except.pure] at known
    cases known
    rfl
  | some entry =>
    obtain ⟨feature, mean, std⟩ := entry
    simp only [found, bind, Except.bind] at known ⊢
    cases declared : feature.width mean with
    | error raised =>
      simp only [declared, reduceCtorEq] at known
    | ok found =>
      simp only [declared, pure, Except.pure] at known
      cases known
      constructor
      · rintro ⟨same, equal, clipped⟩
        cases equal
        exact clipped
      · intro clipped
        exact ⟨found, rfl, clipped⟩

theorem Settings.actionDim_le {settings : Settings} {actionDim : Nat}
    (known : settings.actionDim = .ok (some actionDim)) : actionDim ≤ settings.maxActionDim := by
  unfold Settings.actionDim at known
  cases found : featureStats .action settings.features with
  | none =>
    simp only [found, pure, Except.pure] at known
    cases known
  | some entry =>
    obtain ⟨feature, mean, std⟩ := entry
    simp only [found, bind, Except.bind] at known
    split at known
    · cases known
    · cases known
      exact Nat.min_le_left _ _

theorem forward_inverts_iff {settings : Settings} {pre : Preprocessor} {post : Postprocessor}
    (first : Preprocessor.init settings = .ok pre) (second : Postprocessor.init settings = .ok post)
    (nonneg : settings.usedStats.2.Nonneg) {chunk encoded : Tensor3 ℚ} {mask : Tensor3 Int} {state : Option RawState}
    (fitting : chunk.width ≤ settings.maxActionDim)
    (prepared : pre.prepareAction chunk state = .ok (encoded, mask)) :
    (∀ predicted, Agrees chunk.width encoded predicted → post.forward predicted state = .ok chunk) ↔
      settings.Recovers chunk.width := by
  have pair := paired first second
  rw [Settings.recovers_iff pair.actionDim]
  constructor
  · intro inverts
    -- The encoded chunk is itself a prediction that agrees, and its width shows what is recovered.
    have same : Agrees chunk.width encoded encoded := ⟨rfl, rfl, rfl, fun _ _ _ _ => rfl⟩
    obtain ⟨restored, _, _, width, _, computed⟩ := forward_restores pair nonneg fitting prepared same
    rw [inverts encoded same] at computed
    cases dim : post.actionDim with
    | none =>
      simp only [dim, Except.ok.injEq] at computed
      rw [computed, Option.getD_none, width]
    | some actionDim =>
      simp only [dim, Except.ok.injEq] at computed
      have bound := Settings.actionDim_le (dim ▸ pair.actionDim)
      rw [computed, Option.getD_some, Tensor3.width_narrow, width]
      omega
  · intro recovered predicted agrees
    obtain ⟨restored, batch, steps, width, entries, computed⟩ := forward_restores pair nonneg fitting prepared agrees
    rw [computed]
    congr 1
    cases dim : post.actionDim with
    | none =>
      rw [dim, Option.getD_none] at recovered
      symm
      exact Tensor3.ext_get batch.symm steps.symm (by rw [width, recovered])
        fun sample step channel inside => (entries sample step channel inside).symm
    | some actionDim =>
      rw [dim, Option.getD_some] at recovered
      show restored.narrow actionDim = chunk
      symm
      apply Tensor3.ext_get (show chunk.batch = (restored.narrow actionDim).batch from batch.symm)
        (show chunk.steps = (restored.narrow actionDim).steps from steps.symm)
      · rw [Tensor3.width_narrow, width, recovered]
        omega
      · intro sample step channel inside
        rw [Tensor3.get_narrow (by rw [recovered]; exact inside.2.2), entries sample step channel inside]

/-- Two channels of padding, statistics given explicitly, and an action feature of width 1. -/
def narrowSettings (normalizationData : Option NormalizationParameters) : Settings where
  maxStateDim := 2
  maxActionDim := 2
  features := [⟨normalizationData, some .action, some [1]⟩]
  chunkSize := 1
  stateLen := 1
  normalizeState := false
  stateMean := none
  stateStd := none
  actionMode := .delta
  actionMean := some (.table (.generate 1 1 fun _ _ => 1))
  actionStd := some (.table (.generate 1 1 fun _ _ => 0))

def narrowStats : NormalizationParameters :=
  ⟨some (.table (.generate 1 1 fun _ _ => 1)), some (.table (.generate 1 1 fun _ _ => 0))⟩

def narrowChunk : Tensor3 ℚ := .generate 1 1 1 fun _ _ _ => 5

def narrowState : RawState := .frame (.generate 1 3 fun _ _ => 2)

theorem narrow_inverted : ∃ pre post encoded mask, Preprocessor.init (narrowSettings (some narrowStats)) = .ok pre ∧
    Postprocessor.init (narrowSettings (some narrowStats)) = .ok post ∧
    pre.prepareAction narrowChunk (some narrowState) = .ok (encoded, mask) ∧
    ∀ predicted, Agrees 1 encoded predicted → post.forward predicted (some narrowState) = .ok narrowChunk := by
  have nonneg : (narrowSettings (some narrowStats)).usedStats.2.Nonneg := fun _ _ => le_refl 0
  have fitting : narrowChunk.width ≤ (narrowSettings (some narrowStats)).maxActionDim := by decide
  have declares : (narrowSettings (some narrowStats)).Recovers 1 := ⟨1, rfl, rfl⟩
  exact ⟨_, _, _, _, rfl, rfl, rfl, (forward_inverts_iff rfl rfl nonneg fitting rfl).mpr declares⟩

/-- Explicit statistics with a feature that has none: the padding stays in the chunk. -/
theorem padding_returned : ∃ pre post encoded mask, Preprocessor.init (narrowSettings none) = .ok pre ∧
    Postprocessor.init (narrowSettings none) = .ok post ∧ (narrowSettings none).usedStats.2.Nonneg ∧
    (∃ feature ∈ (narrowSettings none).features, feature.ftype = some .action ∧ feature.shape = some [narrowChunk.width]) ∧
    pre.prepareAction narrowChunk (some narrowState) = .ok (encoded, mask) ∧
    (post.forward encoded (some narrowState)).map Tensor3.width = .ok 2 ∧
    post.forward encoded (some narrowState) ≠ .ok narrowChunk := by
  refine ⟨_, _, _, _, rfl, rfl, fun _ _ => le_refl 0, ⟨_, List.mem_singleton_self _, rfl, rfl⟩, rfl, rfl, ?_⟩
  intro same
  have widths := congrArg (Except.map Tensor3.width) same
  cases widths

end PhysicalAiStudio.Policies.Xr0
