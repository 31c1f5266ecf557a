import PhysicalAiStudio.Policies.Xr0RoundTrip

/-! The state that an exported XR0 graph echoes for the runtime to add back: `policies/xr0/model.py` and
`policies/xr0/policy.py`.

The runtime is not part of the repository: its two steps are parameters. Images and prompt reach both paths alike
and are part of the network here; trimming the chunk to the executed steps comes after both paths.
-/

set_option autoImplicit false

namespace PhysicalAiStudio.Policies.Xr0
open Numeric

def mapEntries (op : ℚ → ℚ) (tensor : Tensor3 ℚ) : Tensor3 ℚ :=
  .generate tensor.batch tensor.steps tensor.width fun sample step channel => op (tensor.get sample step channel)

/-- The network, from the state it is given to one padded chunk for each sample. -/
structure Model where
  maxActionDim : Nat
  /-- `.to(self._dtype)`. -/
  toDtype : ℚ → ℚ
  run : Tensor3 ℚ → Except Error (Tensor3 ℚ)
  batch : ∀ state action, run state = .ok action → action.batch = state.batch
  width : ∀ state action, run state = .ok action → action.width = maxActionDim

def Model.getActionInput (model : Model) (state : Tensor3 ℚ) : Tensor3 ℚ := mapEntries model.toDtype state

def Model.predictActionChunk (model : Model) (state : Tensor3 ℚ) : Except Error (Tensor3 ℚ) :=
  model.run (model.getActionInput state)

/-- The outputs `action` and `state_passthrough` of a graph exported in delta mode. -/
def Model.ingraph (model : Model) (state : Tensor3 ℚ) : Except Error (Tensor3 ℚ × Tensor3 ℚ) := do
  let action ← model.run (model.getActionInput state)
  pure (action, model.getActionInput state)

def predictActionChunk (pre : Preprocessor) (post : Postprocessor) (model : Model) (observation : RawState) :
    Except Error (Tensor3 ℚ) := do
  let state ← pre.prepareState observation
  let actions ← model.predictActionChunk state
  post.forward actions (some observation)

/-! ### The exported path -/

structure PreprocessorSpec where
  maxStateDim : Nat
  normalizeState : Bool
  stateMean : Tensor2 ℚ
  stateStd : Tensor2 ℚ

/-- The parameters of the `xr0_denormalize` step. -/
structure PostprocessorSpec where
  actionMode : ActionMode
  actionMean : Tensor2 ℚ
  actionStd : Tensor2 ℚ
  actionDim : Option Nat

structure Runtime where
  xr0 : PreprocessorSpec → RawState → Except Error (Tensor3 ℚ)
  xr0Denormalize : PostprocessorSpec → Tensor3 ℚ → Tensor3 ℚ → Except Error (Tensor3 ℚ)

def Preprocessor.spec (pre : Preprocessor) : PreprocessorSpec where
  maxStateDim := pre.maxStateDim
  normalizeState := pre.normalizeState
  stateMean := pre.stateMean
  stateStd := pre.stateStd

def Postprocessor.spec (post : Postprocessor) : PostprocessorSpec where
  actionMode := post.actionMode
  actionMean := post.actionMean
  actionStd := post.actionStd
  actionDim := post.actionDim

def exportedChunk (runtime : Runtime) (pre : Preprocessor) (post : Postprocessor) (model : Model)
    (observation : RawState) : Except Error (Tensor3 ℚ) := do
  let state ← runtime.xr0 pre.spec observation
  let (action, statePassthrough) ← model.ingraph state
  runtime.xr0Denormalize post.spec action statePassthrough

structure Runtime.Documented (runtime : Runtime) (pre : Preprocessor) (post : Postprocessor) : Prop where
  prepares : ∀ observation, runtime.xr0 pre.spec observation = pre.prepareState observation
  denormalizes : ∀ action statePassthrough, runtime.xr0Denormalize post.spec action statePassthrough =
    post.forward action (some (.history statePassthrough))

/-! ### What the graph echoes -/

def Postprocessor.width (post : Postprocessor) : Nat :=
  min (post.actionDim.getD post.maxActionDim) post.maxActionDim

/-- A channel of the current frame after padding, normalization and the conversion to the type of the network. -/
def echo (pre : Preprocessor) (toDtype : ℚ → ℚ) (channel : Nat) (value : ℚ) : ℚ :=
  if channel < pre.maxStateDim then
    toDtype (if pre.normalizeState then
      (value - pre.stateMean.get (pre.stateLen - 1) channel) /
        (pre.stateStd.get (pre.stateLen - 1) channel + actionEps)
    else value)
  else 0

structure Unaltered (pre : Preprocessor) (post : Postprocessor) (toDtype : ℚ → ℚ) (observation : RawState) : Prop where
  echoed : pre.normalizeState = true → 0 < pre.stateLen
  channels : 0 < post.chunkSize → ∀ current, observation.current = some current →
    ∀ sample < current.batch, ∀ channel < post.width,
      echo pre toDtype channel (current.get sample 0 channel) = current.get sample 0 channel

theorem broadcast_rows (op : ℚ → ℚ → ℚ) {frame : Tensor3 ℚ} {table : Tensor2 ℚ} (steps : frame.steps = 1)
    (width : table.width = frame.width) :
    frame.broadcast op table.lift = some (.generate frame.batch table.rows frame.width
      fun sample step channel => op (frame.get sample 0 channel) (table.get step channel)) := by
  have batches : extent frame.batch table.lift.batch = some frame.batch := extent_one_right _
  have lengths : extent frame.steps table.lift.steps = some table.rows := by
    rw [steps]
    exact extent_one_left _
  have widths : extent frame.width table.lift.width = some frame.width := by
    rw [show table.lift.width = table.width from rfl, width, extent_self]
  rw [Tensor3.broadcast_eq batches lengths widths]
  refine congrArg some (Tensor3.generate_congr fun sample step channel inside => ?_)
  have inTable : step < table.rows ∧ channel < table.width := ⟨inside.2.1, width ▸ inside.2.2⟩
  rw [get_lift inTable, steps, axis_one, axis_inside inside.1, axis_inside inside.2.2]

theorem normalizeAction_rows {frame : Tensor3 ℚ} {mean std : Tensor2 ℚ} {stateLen dim : Nat}
    (tables : Tables stateLen dim mean std) (steps : frame.steps = 1) (width : frame.width = dim) :
    normalizeAction frame mean std = some (.generate frame.batch stateLen dim
      fun sample step channel =>
        (frame.get sample 0 channel - mean.get step channel) / (std.get step channel + actionEps)) := by
  unfold normalizeAction
  rw [broadcast_rows _ steps (by rw [tables.meanWidth, width]), Option.bind_eq_bind, Option.bind_some, broadcast_table]
  · congr 1
    apply Tensor3.ext_get
    · rfl
    · exact tables.meanRows
    · exact width
    · intro sample step channel inside
      simp only [Tensor3.Inside, Tensor3.batch_generate, Tensor3.steps_generate, Tensor3.width_generate] at inside
      have inStd : step < std.rows ∧ channel < std.width := by
        rw [tables.stdRows, tables.stdWidth, ← tables.meanRows, ← width]
        exact inside.2
      have inResult : sample < frame.batch ∧ step < stateLen ∧ channel < dim := by
        rw [← tables.meanRows, ← width]
        exact inside
      simp only [Tensor3.get_generate, Tensor3.batch_generate, Tensor3.steps_generate, Tensor3.width_generate]
      rw [if_pos inside, if_pos inside, if_pos inResult, get_scale inStd]
  · show std.rows = mean.rows
    rw [tables.stdRows, tables.meanRows]
  · show std.width = frame.width
    rw [tables.stdWidth, width]

theorem stateTables {settings : Settings} {pre : Preprocessor} (built : Preprocessor.init settings = .ok pre) :
    Tables pre.stateLen pre.maxStateDim pre.stateMean pre.stateStd := by
  unfold Preprocessor.init at built
  simp only [bind, Except.bind, pure, Except.pure] at built
  split at built
  · cases built
  · split at built
    · cases built
    · next tables read =>
      cases built
      exact toChunkStats_tables read

/-- What the runtime reads of the passthrough: its last step. -/
def echoed (pre : Preprocessor) (toDtype : ℚ → ℚ) (current : Tensor3 ℚ) : Tensor3 ℚ :=
  .generate current.batch 1 pre.maxStateDim fun sample _ channel =>
    echo pre toDtype channel (current.get sample 0 channel)

theorem prepareState_last {settings : Settings} {pre : Preprocessor} (built : Preprocessor.init settings = .ok pre)
    {observation : RawState} {current : Tensor3 ℚ} (read : observation.current = some current)
    (toDtype : ℚ → ℚ) : ∃ state, pre.prepareState observation = .ok state ∧ state.batch = current.batch ∧
      (mapEntries toDtype state).last =
        if pre.normalizeState = true ∧ pre.stateLen = 0 then none else some (echoed pre toDtype current) := by
  have tables := stateTables built
  have steps := current_steps read
  unfold Preprocessor.prepareState
  rw [read]
  simp only [orRaise, bind, Except.bind, Tensor3.fit_eq]
  -- Unnormalized the last step is the current state; normalized it is the last step of the window.
  cases normalize : pre.normalizeState with
  | false =>
    refine ⟨_, rfl, rfl, ?_⟩
    simp only [Bool.false_eq_true, false_and, if_false, Tensor3.last, mapEntries, Tensor3.steps_generate, steps]
    congr 1
    apply Tensor3.ext_get
    · rfl
    · rfl
    · rfl
    · intro sample step channel inside
      have within : sample < current.batch ∧ step < 1 ∧ channel < pre.maxStateDim := inside
      have first : sample < current.batch ∧ 0 < 1 ∧ channel < pre.maxStateDim := ⟨within.1, Nat.zero_lt_one, within.2.2⟩
      simp only [echoed, echo, normalize, Tensor3.get_generate, Tensor3.batch_generate, Tensor3.width_generate]
      rw [if_pos within, if_pos first, if_pos first, if_pos within, if_pos within.2.2]
      rfl
  | true =>
    have frame := normalizeAction_rows tables
      (show (Tensor3.generate current.batch current.steps pre.maxStateDim current.get).steps = 1 from steps) rfl
    rw [frame]
    refine ⟨_, rfl, rfl, ?_⟩
    cases length : pre.stateLen with
    | zero =>
      simp only [true_and, if_true]
      rfl
    | succ before =>
      simp only [true_and, Nat.succ_ne_zero, if_false, Tensor3.last, mapEntries, Tensor3.steps_generate]
      congr 1
      apply Tensor3.ext_get
      · rfl
      · rfl
      · rfl
      · intro sample step channel inside
        have within : sample < current.batch ∧ step < 1 ∧ channel < pre.maxStateDim := inside
        have first : sample < current.batch ∧ 0 < current.steps ∧ channel < pre.maxStateDim :=
          ⟨within.1, by rw [steps]; exact Nat.zero_lt_one, within.2.2⟩
        have last : sample < current.batch ∧ before < before + 1 ∧ channel < pre.maxStateDim :=
          ⟨within.1, Nat.lt_succ_self before, within.2.2⟩
        simp only [echoed, echo, normalize, length, Tensor3.get_generate, Tensor3.batch_generate,
          Tensor3.width_generate]
        rw [if_pos within, if_pos last, if_pos last, if_pos first, if_pos within, if_pos within.2.2]
        rfl

/-! ### Both paths -/

def rawUnits (post : Postprocessor) (action : Tensor3 ℚ) : Tensor3 ℚ :=
  .generate action.batch action.steps action.width fun sample step channel =>
    action.get sample step channel * (post.actionStd.get step channel + actionEps) + post.actionMean.get step channel

/-- In delta mode the postprocessor adds a state that covers the batch, and drops the padding. -/
theorem forward_delta {post : Postprocessor} (mode : post.actionMode = .delta) {action : Tensor3 ℚ}
    (fits : Fits action post.actionMean post.actionStd) (steps : action.steps = post.chunkSize)
    {state : RawState} {current : Tensor3 ℚ} (read : state.current = some current) (covers : Covers current action)
    (width : action.width = post.maxActionDim) :
    post.forward action (some state) =
      .ok ((overlaid (· + ·) (rawUnits post action) current).narrow (post.actionDim.getD post.maxActionDim)) := by
  have same : Covers current (rawUnits post action) := ⟨covers.1, covers.2⟩
  have combined := onOverlap_eq (· + ·) same
  unfold rawUnits at combined
  unfold Postprocessor.forward Postprocessor.absoluteAction
  rw [if_neg (not_not.mpr steps), mode]
  simp only [denormalizeAction_eq fits, orRaise, bind, Except.bind, read, combined]
  cases post.actionDim with
  | some actionDim => rfl
  | none =>
    have whole : (overlaid (· + ·) (rawUnits post action) current).width = post.maxActionDim := width
    rw [Option.getD_none, ← whole, Tensor3.narrow_width]
    rfl

theorem forward_delta_covers {post : Postprocessor} (mode : post.actionMode = .delta) {action : Tensor3 ℚ}
    (fits : Fits action post.actionMean post.actionStd) {state : RawState} {chunk : Tensor3 ℚ}
    (done : post.forward action (some state) = .ok chunk) :
    ∃ current, state.current = some current ∧ Covers current action := by
  unfold Postprocessor.forward Postprocessor.absoluteAction at done
  split at done
  · cases done
  · rw [mode] at done
    cases read : state.current with
    | none =>
      simp only [denormalizeAction_eq fits, orRaise, bind, Except.bind, read, reduceCtorEq] at done
    | some current =>
      refine ⟨current, rfl, ?_⟩
      simp only [denormalizeAction_eq fits, orRaise.eq_2, bind, Except.bind, read] at done
      split at done
      · cases done
      · next combined =>
        have covers := onOverlap_covers (current_steps read) (orRaise_ok combined)
        exact ⟨covers.1, covers.2⟩

theorem stateOffset_eq {current : Tensor3 ℚ} {sample : Nat} (inside : sample < current.batch) (channel : Nat) :
    stateOffset current sample channel = current.get sample 0 channel := by
  unfold stateOffset
  rw [axis_inside inside]
  split
  · rfl
  · next past => exact (Tensor3.get_outside fun within => past within.2.2).symm

theorem get_echoed {pre : Preprocessor} {toDtype : ℚ → ℚ} {current : Tensor3 ℚ} {sample : Nat}
    (inside : sample < current.batch) (channel : Nat) :
    (echoed pre toDtype current).get sample 0 channel = echo pre toDtype channel (current.get sample 0 channel) := by
  unfold echoed
  rw [Tensor3.get_generate]
  split
  · rfl
  · next past =>
    unfold echo
    rw [if_neg fun before => past ⟨inside, Nat.zero_lt_one, before⟩]

/-- Two states give one chunk exactly when they agree on the channels that the chunk has. -/
theorem narrow_overlaid_iff {raw first second : Tensor3 ℚ} {width : Nat} (batch : first.batch = raw.batch)
    (same : second.batch = raw.batch) :
    (overlaid (· + ·) raw first).narrow width = (overlaid (· + ·) raw second).narrow width ↔
      (0 < raw.steps → ∀ sample < raw.batch, ∀ channel < min width raw.width,
        first.get sample 0 channel = second.get sample 0 channel) := by
  have left := overlaid_shifted (· + ·) 1 (by intro a s; ring) raw first
  have right := overlaid_shifted (· + ·) 1 (by intro a s; ring) raw second
  constructor
  · intro equal positive sample inBatch channel inWidth
    have inside : raw.Inside sample 0 channel := ⟨inBatch, positive, by omega⟩
    have entry := congrArg (fun tensor => tensor.get sample 0 channel) equal
    simp only [Tensor3.get_narrow (show channel < width by omega)] at entry
    rw [left.entries sample 0 channel inside, right.entries sample 0 channel inside,
      stateOffset_eq (by rw [batch]; exact inBatch), stateOffset_eq (by rw [same]; exact inBatch)] at entry
    linarith
  · intro agree
    apply Tensor3.ext_get
    · rfl
    · rfl
    · rfl
    · intro sample step channel inside
      have within : sample < raw.batch ∧ step < raw.steps ∧ channel < min width raw.width := inside
      have inRaw : raw.Inside sample step channel := ⟨within.1, within.2.1, by omega⟩
      rw [Tensor3.get_narrow (by omega), Tensor3.get_narrow (by omega), left.entries sample step channel inRaw,
        right.entries sample step channel inRaw, stateOffset_eq (by rw [batch]; exact within.1),
        stateOffset_eq (by rw [same]; exact within.1), agree (by omega) sample within.1 channel within.2.2]

theorem exportedChunk_eq {runtime : Runtime} {pre : Preprocessor} {post : Postprocessor}
    (documented : runtime.Documented pre post) {model : Model} {observation : RawState} {state action : Tensor3 ℚ}
    (prepared : pre.prepareState observation = .ok state) (ran : model.run (model.getActionInput state) = .ok action) :
    exportedChunk runtime pre post model observation =
      post.forward action (some (.history (model.getActionInput state))) := by
  unfold exportedChunk Model.ingraph
  rw [documented.prepares, prepared]
  simp only [bind, Except.bind, ran, pure, Except.pure, documented.denormalizes]

theorem predictActionChunk_ok {pre : Preprocessor} {post : Postprocessor} {model : Model} {observation : RawState}
    {chunk : Tensor3 ℚ} (done : predictActionChunk pre post model observation = .ok chunk) :
    ∃ state action, pre.prepareState observation = .ok state ∧ model.run (model.getActionInput state) = .ok action ∧
      post.forward action (some observation) = .ok chunk := by
  unfold predictActionChunk Model.predictActionChunk at done
  cases prepared : pre.prepareState observation with
  | error raised => simp only [prepared, bind, Except.bind, reduceCtorEq] at done
  | ok state =>
    cases ran : model.run (model.getActionInput state) with
    | error raised => simp only [prepared, ran, bind, Except.bind, reduceCtorEq] at done
    | ok action =>
      simp only [prepared, ran, bind, Except.bind] at done
      exact ⟨state, action, rfl, ran, done⟩

theorem forward_steps {post : Postprocessor} {action chunk : Tensor3 ℚ} {state : Option RawState}
    (done : post.forward action state = .ok chunk) : action.steps = post.chunkSize := by
  unfold Postprocessor.forward at done
  split at done
  · cases done
  · next lengths => exact not_not.mp lengths

theorem exportedChunk_agrees_iff {settings : Settings} {pre : Preprocessor} {post : Postprocessor}
    (first : Preprocessor.init settings = .ok pre) (second : Postprocessor.init settings = .ok post)
    (delta : settings.actionMode = .delta) {model : Model} (padded : model.maxActionDim = settings.maxActionDim)
    {runtime : Runtime} (documented : runtime.Documented pre post) {observation : RawState} {chunk : Tensor3 ℚ}
    (inProcess : predictActionChunk pre post model observation = .ok chunk) :
    exportedChunk runtime pre post model observation = .ok chunk ↔ Unaltered pre post model.toDtype observation := by
  have pair := paired first second
  have mode : post.actionMode = .delta := by rw [pair.postMode, delta]
  obtain ⟨state, action, prepared, ran, done⟩ := predictActionChunk_ok inProcess
  rw [exportedChunk_eq documented prepared ran]
  have steps := forward_steps done
  have width : action.width = post.maxActionDim := by rw [model.width _ _ ran, padded, pair.postMax]
  have fits : Fits action post.actionMean post.actionStd := by
    rw [pair.mean, pair.std]
    apply fits_of_tables pair.tables
    · rw [steps, pair.postChunk]
    · rw [width, pair.postMax]
  obtain ⟨current, read, covers⟩ := forward_delta_covers mode fits done
  obtain ⟨found, again, batch, last⟩ := prepareState_last first read model.toDtype
  rw [prepared] at again
  cases again
  -- There is one prediction for each state, so both paths read the state of the same sample.
  have actionBatch : current.batch = action.batch := by rw [model.batch _ _ ran, ← batch]; rfl
  rw [forward_delta mode fits steps read covers width] at done
  cases done
  by_cases dropped : pre.normalizeState = true ∧ pre.stateLen = 0
  · -- Without a row of state statistics nothing is echoed, and the runtime has no state to add.
    rw [if_pos dropped] at last
    constructor
    · intro same
      obtain ⟨other, found, -⟩ := forward_delta_covers mode fits same
      have missing : (mapEntries model.toDtype state).last = some other := found
      rw [last] at missing
      cases missing
    · intro unaltered
      have rows := unaltered.echoed dropped.1
      omega
  · rw [if_neg dropped] at last
    have echoCovers : Covers (echoed pre model.toDtype current) action := ⟨rfl, Or.inl actionBatch⟩
    have passed : RawState.current (.history (model.getActionInput state)) = some (echoed pre model.toDtype current) := last
    have echoBatch : (echoed pre model.toDtype current).batch = (rawUnits post action).batch := actionBatch
    rw [forward_delta mode fits steps passed echoCovers width, Except.ok.injEq,
      narrow_overlaid_iff echoBatch actionBatch]
    have returned : min (post.actionDim.getD post.maxActionDim) (rawUnits post action).width = post.width := by
      rw [show (rawUnits post action).width = action.width from rfl, width]
      rfl
    rw [returned, show (rawUnits post action).steps = action.steps from rfl, steps,
      show (rawUnits post action).batch = action.batch from rfl, ← actionBatch]
    constructor
    · intro agree
      constructor
      · intro normalized
        have rows : pre.stateLen ≠ 0 := fun zero => dropped ⟨normalized, zero⟩
        omega
      · intro positive other same sample inBatch channel inWidth
        rw [read] at same
        cases same
        rw [← get_echoed inBatch]
        exact agree positive sample inBatch channel inWidth
    · intro unaltered positive sample inBatch channel inWidth
      rw [get_echoed inBatch]
      exact unaltered.channels positive current read sample inBatch channel inWidth

/-! ### One channel -/

/-- A policy in delta mode with one channel; its state statistics are used when `normalizeState` is set. -/
def singleChannel (normalizeState : Bool) : Settings where
  maxStateDim := 1
  maxActionDim := 1
  features := []
  chunkSize := 1
  stateLen := 1
  normalizeState := normalizeState
  stateMean := some (.table (.generate 1 1 fun _ _ => 1))
  stateStd := some (.table (.generate 1 1 fun _ _ => 1))
  actionMode := .delta
  actionMean := none
  actionStd := none

def still : Model where
  maxActionDim := 1
  toDtype := id
  run state := .ok (.generate state.batch 1 1 fun _ _ _ => 0)
  batch _ _ ran := by
    cases ran
    rfl
  width _ _ ran := by
    cases ran
    rfl

def documentedRuntime (pre : Preprocessor) (post : Postprocessor) : Runtime where
  xr0 spec observation :=
    { pre with maxStateDim := spec.maxStateDim, normalizeState := spec.normalizeState,
               stateMean := spec.stateMean, stateStd := spec.stateStd }.prepareState observation
  xr0Denormalize spec action statePassthrough :=
    { post with actionMode := spec.actionMode, actionMean := spec.actionMean, actionStd := spec.actionStd,
                actionDim := spec.actionDim }.forward action (some (.history statePassthrough))

theorem documentedRuntime_documented (pre : Preprocessor) (post : Postprocessor) :
    (documentedRuntime pre post).Documented pre post where
  prepares _ := rfl
  denormalizes _ _ := rfl

def atTwo : RawState := .frame (.generate 1 1 fun _ _ => 2)

theorem raw_state_echoed : ∃ pre post chunk, Preprocessor.init (singleChannel false) = .ok pre ∧
    Postprocessor.init (singleChannel false) = .ok post ∧ predictActionChunk pre post still atTwo = .ok chunk ∧
    exportedChunk (documentedRuntime pre post) pre post still atTwo = .ok chunk := by
  refine ⟨_, _, _, rfl, rfl, rfl, ?_⟩
  have mode : (singleChannel false).actionMode = .delta := rfl
  have padded : still.maxActionDim = (singleChannel false).maxActionDim := rfl
  apply (exportedChunk_agrees_iff rfl rfl mode padded (documentedRuntime_documented _ _) rfl).mpr
  constructor
  · intro normalized
    cases normalized
  · intro _ current read sample inBatch channel inWidth
    cases read
    have only : channel < 1 := inWidth
    exact if_pos only

/-- With state normalization the runtime adds the normalized state: 2 comes back as (2 - 1) / (1 + eps). -/
theorem normalized_state_echoed : ∃ pre post chunk exported, Preprocessor.init (singleChannel true) = .ok pre ∧
    Postprocessor.init (singleChannel true) = .ok post ∧
    predictActionChunk pre post still atTwo = .ok chunk ∧
    exportedChunk (documentedRuntime pre post) pre post still atTwo = .ok exported ∧
    chunk.get 0 0 0 = 2 ∧ exported.get 0 0 0 = 1000000 / 1000001 := by
  refine ⟨_, _, _, _, rfl, rfl, rfl, rfl, ?_, ?_⟩
  · decide +kernel
  · decide +kernel

end PhysicalAiStudio.Policies.Xr0
