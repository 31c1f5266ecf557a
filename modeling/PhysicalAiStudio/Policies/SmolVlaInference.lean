import PhysicalAiStudio.Policies.SmolVlaCache

/-! The actions SmolVLA samples with its cache, against the velocity field it is trained on. -/

set_option autoImplicit false

namespace PhysicalAiStudio.Policies.SmolVla

open PhysicalAiStudio.Collections PhysicalAiStudio.Numeric PhysicalAiStudio.Strings VlmWithExpert FlowMatching

variable {Scalar Score Image : Type}

/-! ### The prefix and the suffix -/

theorem length_flatMap_congr {Part Item Other : Type} {parts : List Part} {one : Part → List Item}
    {other : Part → List Other} (each : ∀ part ∈ parts, (one part).length = (other part).length) :
    (parts.flatMap one).length = (parts.flatMap other).length := by
  rw [List.length_flatMap, List.length_flatMap, List.map_congr_left each]

theorem length_padTensor_congr {Item Other : Type} (length : Int) (pad : Item) (pad' : Other) {row : List Item}
    {row' : List Other} (same : row.length = row'.length) : (padTensor length pad row).length = (padTensor length pad' row').length := by
  rw [padTensor, padTensor, List.length_append, List.length_append, List.length_replicate, List.length_replicate, same]

/-- A prefix with a mask for every token, and a token that is not padding. -/
structure Prefix.Shaped (ahead : Prefix Scalar) : Prop where
  pads : ahead.padMasks.length = ahead.embs.length
  atts : ahead.attMasks.length = ahead.embs.length
  seen : true ∈ ahead.padMasks

theorem prefixParts_shaped (model : FlowMatching Scalar Score Image) {observation : Observation Scalar Image}
    (masked : observation.langMasks.length = observation.langTokens.length) (states : List (Vec Scalar)) :
    ∀ part ∈ model.prefixParts observation states,
      part.padMasks.length = part.embs.length ∧ part.attMasks.length = part.embs.length := by
  have special : ∀ tokens, (model.specialTokens tokens).padMasks.length = (model.specialTokens tokens).embs.length ∧
      (model.specialTokens tokens).attMasks.length = (model.specialTokens tokens).embs.length := by
    intro tokens
    unfold specialTokens
    split
    · exact ⟨by rw [List.length_map, List.length_map], by rw [List.length_map, List.length_map]⟩
    · exact ⟨rfl, rfl⟩
  intro part inside
  rw [prefixParts, List.mem_append, List.mem_flatMap, List.mem_cons, List.mem_singleton] at inside
  obtain ⟨view, _, member⟩ | rfl | rfl := inside
  · rw [List.mem_cons, List.mem_cons, List.mem_singleton] at member
    obtain rfl | rfl | rfl := member
    · exact special _
    · exact ⟨by rw [imageTokens, List.length_map, List.length_map], by rw [imageTokens, List.length_map, List.length_map]⟩
    · exact special _
  · exact ⟨by rw [List.length_map, masked], by rw [List.length_map, List.length_map]⟩
  · exact ⟨by rw [List.length_map, List.length_map], by rw [List.length_map, List.length_map]⟩

theorem embedPrefix_shaped (model : FlowMatching Scalar Score Image) {observation : Observation Scalar Image}
    (masked : observation.langMasks.length = observation.langTokens.length) {state : RobotState Scalar}
    (given : observation.state = some state) (observed : states state ≠ []) :
    ∃ ahead, model.embedPrefix observation = .ok ahead ∧ ahead.Shaped := by
  have parts := prefixParts_shaped model masked (states state)
  rw [embedPrefix, given]
  refine ⟨_, rfl, ?_, ?_, ?_⟩
  · exact length_padTensor_congr _ _ _ (length_flatMap_congr fun part inside => (parts part inside).1)
  · exact length_padTensor_congr _ _ _ (length_flatMap_congr fun part inside => (parts part inside).2)
  · refine List.mem_append_left _ (List.mem_flatMap.mpr
      ⟨_, List.mem_append_right _ (List.mem_cons_of_mem _ List.mem_cons_self), ?_⟩)
    obtain ⟨first, member⟩ := List.exists_mem_of_ne_nil _ observed
    exact List.mem_map.mpr ⟨first, member, rfl⟩

def Prefix.tokens (ahead : Prefix Scalar) : Tokens := ahead.padMasks.zip (cumsum ahead.attMasks)

def actionTokens (count : Nat) : Tokens := (List.replicate count true).zip (cumsum (List.replicate count 1))

theorem Prefix.Shaped.flags {ahead : Prefix Scalar} (shaped : ahead.Shaped) :
    ahead.tokens.map Prod.fst = ahead.padMasks :=
  List.map_fst_zip (by rw [length_cumsum, shaped.pads, shaped.atts])

theorem Prefix.Shaped.tokens_length {ahead : Prefix Scalar} (shaped : ahead.Shaped) :
    ahead.tokens.length = ahead.embs.length := by
  rw [Prefix.tokens, List.length_zip, length_cumsum, shaped.pads, shaped.atts, Nat.min_self]

@[simp] theorem length_actionTokens (count : Nat) : (actionTokens count).length = count := by
  rw [actionTokens, List.length_zip, length_cumsum, List.length_replicate, List.length_replicate, Nat.min_self]

theorem joint_masks {ahead : Prefix Scalar} (shaped : ahead.Shaped) (count : Nat) :
    makeAtt2dMasks (ahead.padMasks ++ List.replicate count true) (ahead.attMasks ++ List.replicate count 1) =
      .ok (jointMask ahead.tokens (actionTokens count)) := by
  have long : ahead.padMasks.length = ahead.attMasks.length := shaped.pads.trans shaped.atts.symm
  have opens : ∀ first ∈ (List.replicate count 1).head?, 0 < first := by
    intro first member
    rw [List.eq_of_mem_replicate (List.mem_of_mem_head? member)]
    exact Nat.one_pos
  rw [makeAtt2dMasks, if_pos (by rw [List.length_append, List.length_append, long, List.length_replicate,
    List.length_replicate]), blockMask_cat long (fun flag member => List.eq_of_mem_replicate member) opens, jointMask,
    blindMask, cachedMask, shaped.flags]
  rfl

theorem fill_masks {ahead : Prefix Scalar} (shaped : ahead.Shaped) :
    makeAtt2dMasks ahead.padMasks ahead.attMasks = .ok (blockMask ahead.tokens) :=
  if_pos (shaped.pads.trans shaped.atts.symm)

theorem action_masks (count : Nat) :
    makeAtt2dMasks (List.replicate count true) (List.replicate count 1) = .ok (blockMask (actionTokens count)) :=
  if_pos (by rw [List.length_replicate, List.length_replicate])

theorem beside_start {ahead : Prefix Scalar} (shaped : ahead.Shaped) {suffix : List (Vec Scalar)} {count : Nat}
    (long : suffix.length = count) (positive : 0 < count) :
    Beside ahead.tokens (actionTokens count) (positionsOf ahead.padMasks) ahead.embs ahead.embs suffix where
  same := Agree.refl _ (by rw [List.length_map, shaped.tokens_length])
  positions := by rw [length_positionsOf, shaped.tokens_length, shaped.pads]
  valid := fun token member => List.eq_of_mem_replicate (List.of_mem_zip member).1
  count := by rw [length_actionTokens, long]
  positive := long ▸ positive
  seen := by
    rw [shaped.flags]
    exact shaped.seen

theorem joint_positions (padMasks : List Bool) (count : Nat) :
    positionsOf (padMasks ++ List.replicate count true) =
      positionsOf padMasks ++ ramp (validTokens padMasks) count := by
  rw [positionsOf_append, positionsOf_valid, map_add_ramp, Int.add_zero]

theorem cached_positions (padMasks : List Bool) (count : Nat) :
    (positionsOf (List.replicate count true)).map ((validTokens padMasks : Int) + ·) = ramp (validTokens padMasks) count := by
  rw [positionsOf_valid, map_add_ramp, Int.add_zero]

theorem startAt_zero (model : VlmWithExpert Scalar Score) (offset : Int) : startAt model offset 0 = offset := rfl

/-! ### The order of the layers -/

def Paired (model : VlmWithExpert Scalar Score) : Prop :=
  ∀ layerIdx < model.numVlmLayers, model.selfAttends layerIdx = true → (model.expertLayer layerIdx).isSome = true

/-- No self-attention layer comes after a layer at which the expert reads the prefix across. -/
def Ordered (model : VlmWithExpert Scalar Score) : Prop :=
  ∀ before layerIdx, before < layerIdx → layerIdx < model.numVlmLayers → model.selfAttends layerIdx = true →
    expertCrosses model (model.expertLayer before) before = false

theorem Ordered.startAt {model : VlmWithExpert Scalar Score} (ordered : Ordered model) (offset : Int) {layerIdx : Nat}
    (inside : layerIdx < model.numVlmLayers) (attends : model.selfAttends layerIdx = true) :
    SmolVla.startAt model offset layerIdx = offset := by
  have none : ((List.range layerIdx).any fun before => expertCrosses model (model.expertLayer before) before) = false := by
    rw [List.any_eq_false]
    intro before member
    exact Bool.eq_false_iff.mp (ordered before layerIdx (List.mem_range.mp member) inside attends)
  rw [SmolVla.startAt, none]
  rfl

theorem expertLayer_isSome {net : VlmWithExpert Scalar Score} (beside : net.expertLayers.length = net.vlmLayers.length)
    {layerIdx : Nat} (inside : layerIdx < net.numVlmLayers) : (net.expertLayer layerIdx).isSome = true := by
  have within : layerIdx < net.vlmLayers.length := inside
  have one : net.multipleOf = 1 := by
    rw [multipleOf, beside]
    exact Nat.div_self (by omega)
  have every : ¬ (0 < net.multipleOf ∧ 0 < layerIdx ∧ layerIdx % net.multipleOf ≠ 0) := by
    rw [one, Nat.mod_one]
    exact fun none => none.2.2 rfl
  rw [expertLayer, if_neg every, one, if_pos Nat.one_pos, Nat.div_one]
  rw [List.getElem?_eq_getElem (by omega)]
  rfl

theorem ordered_iff {net : VlmWithExpert Scalar Score} (cross : "cross".toList <:+: net.attentionMode)
    (beside : net.expertLayers.length = net.vlmLayers.length) :
    Ordered net ↔ ¬ (1 < net.selfAttnEveryNLayers ∧ net.selfAttnEveryNLayers < net.numVlmLayers) := by
  have attends : ∀ layerIdx : Nat, net.selfAttends layerIdx = true ↔
      0 < net.selfAttnEveryNLayers ∧ (layerIdx : Int) % net.selfAttnEveryNLayers = 0 := by
    intro layerIdx
    rw [selfAttends, decide_eq_true cross, Bool.not_true, Bool.false_or, Bool.and_eq_true, decide_eq_true_iff,
      decide_eq_true_iff]
  constructor
  · rintro ordered ⟨often, early⟩
    -- The layer at the interval attends to itself again, after layer 1 has crossed.
    have recurs : net.selfAttends net.selfAttnEveryNLayers.toNat = true := by
      rw [attends, Int.toNat_of_nonneg (by omega)]
      exact ⟨by omega, Int.emod_self⟩
    have none := ordered 1 net.selfAttnEveryNLayers.toNat (by omega) (by omega) recurs
    have first : net.selfAttends 1 = false := by
      rw [Bool.eq_false_iff]
      intro here
      have rest := ((attends 1).mp here).2
      rw [Int.emod_eq_of_lt (by omega) (by omega)] at rest
      cases rest
    rw [expertCrosses, first, expertLayer_isSome beside (by omega)] at none
    cases none
  · intro rare before layerIdx early inside recurs
    obtain ⟨some_positive, multiple⟩ := (attends layerIdx).mp recurs
    obtain one | often := Int.lt_or_eq_of_le (Int.add_one_le_of_lt some_positive)
    · have bound : net.selfAttnEveryNLayers ≤ layerIdx :=
        Int.le_of_dvd (by omega) (Int.dvd_of_emod_eq_zero multiple)
      exact absurd ⟨by omega, by omega⟩ rare
    · have each : net.selfAttends before = true := by
        rw [attends, ← often]
        exact ⟨by omega, Int.emod_one _⟩
      rw [expertCrosses, each]
      rfl

/-! ### A small model -/

/-- A layer whose queries are all zero, so that every visible key has the same weight. -/
def evenLayer : Layer ℚ := ⟨id, fun _ => [0], id, id, id, id, id⟩

/-- The mean of the values with a score, and of all values where none has one. -/
def meanOf (entries : List (Option ℚ × Vec ℚ)) : Vec ℚ :=
  let rows := if (entries.filter (·.1.isSome)).isEmpty then entries else entries.filter (·.1.isSome)
  [(rows.map (·.2.headD 0)).sum / rows.length]

def evenNet (layers : Nat) : VlmWithExpert ℚ (Option ℚ) where
  vlmLayers := List.replicate layers evenLayer
  expertLayers := List.replicate layers evenLayer
  vlmNorm := id
  expertNorm := id
  headDim := 1
  numAttentionHeads := 1
  numKeyValueHeads := 1
  attentionMode := "cross_attn".toList
  selfAttnEveryNLayers := 2
  add := List.zipWith (· + ·)
  rope := fun head _ => head
  score := fun query key => some (List.zipWith (· * ·) query key).sum
  bigNeg := none
  mix := meanOf
  divides := by rw [List.length_replicate]

def evenModel (layers : Nat) : FlowMatching ℚ (Option ℚ) Unit where
  vlmWithExpert := evenNet layers
  embedImage := fun _ => [[1], [2]]
  embedLanguageToken := fun token => [(token : ℚ)]
  scaled := id
  stateProj := id
  zeroEmbedding := [0]
  embedAction := fun action timestep _ => action.map (· + timestep)
  actionOutProj := id
  addImageSpecialTokens := false
  globalImageStartToken := []
  imageEndToken := []
  prefixLength := -1
  chunkSize := 2
  numSteps := 10
  useCache := true
  snapflowEnabled := false
  snapflowNumInferenceSteps := 1
  advance := fun step action velocity => action.zipWith (fun x v => x + step * v) velocity

def oneView : Observation ℚ Unit := ⟨[()], [true], [5, 0], [true, false], some (.single [3])⟩

theorem meanOf_masks : Masking none meanOf where
  drops before value after some_read := by
    have kept : (before ++ (none, value) :: after).filter (fun entry : Option ℚ × Vec ℚ => entry.1.isSome) =
        (before ++ after).filter (fun entry => entry.1.isSome) := by
      rw [List.filter_append, List.filter_cons_of_neg Bool.false_ne_true, List.filter_append]
    have filled : ((before ++ after).filter (fun entry : Option ℚ × Vec ℚ => entry.1.isSome)).isEmpty = false := by
      obtain ⟨entry, inside, scored⟩ := some_read
      rw [List.isEmpty_eq_false_iff_exists_mem]
      exact ⟨entry, List.mem_filter.mpr ⟨inside, Option.isSome_iff_ne_none.mpr scored⟩⟩
    rw [meanOf, meanOf, kept, filled]
    rfl

theorem evenNet_softmax (layers : Nat) : SoftmaxMasks (evenNet layers) := ⟨meanOf_masks, fun _ _ => Option.some_ne_none _⟩

theorem evenNet_paired (layers : Nat) : Paired (evenNet layers) := fun _ inside _ =>
  expertLayer_isSome rfl inside

/-! ### The velocity of one step -/

theorem velocity_of_suffix (model : FlowMatching Scalar Score Image) (first first' : Option (List (Vec Scalar)))
    (suffix : List (Vec Scalar)) : ∃ velocity, model.velocity [first, some suffix] = .ok velocity ∧
      model.velocity [first', some suffix] = .ok velocity := ⟨_, rfl, rfl⟩

section
variable {model : FlowMatching Scalar Score Image} {ahead : Prefix Scalar}

theorem fillCache_of_runs (caching : model.useCache = true) (shaped : ahead.Shaped) {behindTokens : Tokens} {offset : Int}
    {suffix next next' after : List (Vec Scalar)} {past : Option (Cache Scalar)}
    (ran : Runs model.vlmWithExpert ahead.tokens behindTokens (positionsOf ahead.padMasks) offset
      model.vlmWithExpert.vlmLayers 0 ahead.embs ahead.embs suffix next next' after none past) :
    model.fillCache ahead = .ok past := by
  rw [fillCache, fill_masks shaped, caching]
  change ((model.vlmWithExpert.forwardLayers _ true true (layersFrom model.vlmWithExpert _ 0) 0 _ >>= fun final =>
    pure _) >>= fun result => pure _) = _
  rw [ran.fill]
  rfl

theorem runs_of_suffix (softmax : SoftmaxMasks model.vlmWithExpert) (positive : 0 < model.chunkSize)
    (paired : Paired model.vlmWithExpert) (shaped : ahead.Shaped) {suffix : List (Vec Scalar)}
    (long : suffix.length = model.chunkSize) :
    ∃ next next' after kept, Runs model.vlmWithExpert ahead.tokens (actionTokens model.chunkSize)
      (positionsOf ahead.padMasks) (validTokens ahead.padMasks) model.vlmWithExpert.vlmLayers 0 ahead.embs ahead.embs
      suffix next next' after none kept := by
  refine runs softmax _ _ (beside_start shaped long positive) (fun index _ inside => paired index ?_) none
  rwa [Nat.zero_add] at inside

/-- The cached step computes the velocity of the joint pass, over the cache that the prefix fills. -/
theorem denoiseStep_joint (softmax : SoftmaxMasks model.vlmWithExpert) (caching : model.useCache = true)
    (positive : 0 < model.chunkSize) (paired : Paired model.vlmWithExpert) (ordered : Ordered model.vlmWithExpert)
    (shaped : ahead.Shaped) :
    ∃ past, model.fillCache ahead = .ok past ∧
      ∀ xT timestep targetTime, xT.length = model.chunkSize →
        ∃ velocity, model.denoiseStep ahead.padMasks past xT timestep targetTime = .ok velocity ∧
          model.predictVelocity ahead xT timestep targetTime = .ok velocity := by
  obtain ⟨_, _, _, past, filled⟩ := runs_of_suffix softmax positive paired shaped
    (List.length_replicate : (List.replicate model.chunkSize ([] : Vec Scalar)).length = _)
  refine ⟨past, fillCache_of_runs caching shaped filled, fun xT timestep targetTime long => ?_⟩
  have suffixLong : (model.embedSuffix xT timestep targetTime).embs.length = model.chunkSize :=
    (List.length_map _).trans long
  have pads : (model.embedSuffix xT timestep targetTime).padMasks = List.replicate model.chunkSize true := by
    rw [embedSuffix, List.map_const', long]
  obtain ⟨next, next', after, kept, ran⟩ := runs_of_suffix softmax positive paired shaped suffixLong
  -- the cache does not depend on the actions it was filled before
  have same : kept = past := by
    have both := ran.fill.symm.trans filled.fill
    simp only [Except.ok.injEq, Hidden.mk.injEq] at both
    exact both.2.2
  subst same
  obtain ⟨last, cached⟩ := ran.cached (fun index _ inside attends => ordered.startAt _ (by rwa [Nat.zero_add] at inside) attends)
    kept (fun _ _ _ => rfl)
  obtain ⟨velocity, alone, beside⟩ := velocity_of_suffix model none
    (some (next.map model.vlmWithExpert.vlmNorm)) (after.map model.vlmWithExpert.expertNorm)
  refine ⟨velocity, ?_, ?_⟩
  · rw [denoiseStep, pads]
    have masks := action_masks model.chunkSize
    have positions := cached_positions ahead.padMasks model.chunkSize
    change (makeAtt2dMasks (List.replicate model.chunkSize true) (List.replicate model.chunkSize 1) >>= fun masks => _) = _
    rw [masks, caching]
    change ((model.vlmWithExpert.forwardLayers ((blockMask (actionTokens model.chunkSize)).map (ahead.padMasks ++ ·)) true
      false (layersFrom model.vlmWithExpert _ 0) 0 ⟨_, (positionsOf (List.replicate model.chunkSize true)).map
        ((validTokens ahead.padMasks : Int) + ·), kept⟩ >>= fun final => pure _) >>= fun result => _) = _
    rw [positions]
    rw [length_actionTokens, cachedMask, shaped.flags] at cached
    rw [cached]
    exact alone
  · rw [predictVelocity, pads]
    have joint := ran.joint
    rw [length_actionTokens, startAt_zero, ← joint_positions] at joint
    change (makeAtt2dMasks _ (ahead.attMasks ++ List.replicate model.chunkSize 1) >>= fun masks => _) = _
    rw [joint_masks shaped]
    change ((model.vlmWithExpert.forwardLayers _ false false (layersFrom model.vlmWithExpert _ 0) 0 _ >>= fun final =>
      pure _) >>= fun result => _) = _
    rw [joint]
    exact beside

/-! ### The denoising loop -/

theorem length_moved {step : ℚ} {xT vT next : List (Vec Scalar)} (moved : model.moved step xT vT = .ok next) :
    next.length = xT.length := by
  unfold FlowMatching.moved at moved
  split at moved
  · next same =>
    cases moved
    rw [List.length_zipWith, same, Nat.min_self]
  · cases moved

/-- Two velocity fields that agree on the chunks of one length are integrated alike. -/
theorem denoisingLoop_congr {field field' : List (Vec Scalar) → ℚ → Option ℚ → Except Fault (List (Vec Scalar))}
    {count : Nat} (same : ∀ xT timestep targetTime, xT.length = count → field xT timestep targetTime = field' xT timestep targetTime)
    (rtcCorrect : Option (RtcCorrect Scalar)) (step : ℚ) (indices : List Nat) {xT : List (Vec Scalar)}
    (long : xT.length = count) :
    model.denoisingLoop field rtcCorrect step indices xT = model.denoisingLoop field' rtcCorrect step indices xT := by
  induction indices generalizing xT with
  | nil => rfl
  | cons index rest ih =>
    rw [denoisingLoop, denoisingLoop, same _ _ _ long]
    refine bind_congr fun vT => ?_
    cases moved : model.moved step xT (corrected rtcCorrect xT vT (1 + index * step)) with
    | error fault => rfl
    | ok next => exact ih ((length_moved moved).trans long)

theorem sampleActions_joint (softmax : SoftmaxMasks model.vlmWithExpert) (caching : model.useCache = true)
    (positive : 0 < model.chunkSize) (paired : Paired model.vlmWithExpert) (ordered : Ordered model.vlmWithExpert)
    {observation : Observation Scalar Image} (masked : observation.langMasks.length = observation.langTokens.length)
    {state : RobotState Scalar} (given : observation.state = some state) (observed : states state ≠ [])
    (noise : List (Vec Scalar)) (long : noise.length = model.chunkSize) (rtcCorrect : Option (RtcCorrect Scalar)) :
    ∃ ahead past, model.embedPrefix observation = .ok ahead ∧ model.fillCache ahead = .ok past ∧
      (∀ xT timestep targetTime, xT.length = model.chunkSize →
        ∃ velocity, model.denoiseStep ahead.padMasks past xT timestep targetTime = .ok velocity ∧
          model.predictVelocity ahead xT timestep targetTime = .ok velocity) ∧
      model.sampleActions observation noise rtcCorrect = model.integrate (model.predictVelocity ahead) rtcCorrect noise := by
  obtain ⟨ahead, embedded, shaped⟩ := embedPrefix_shaped model masked given observed
  obtain ⟨past, filled, agrees⟩ := denoiseStep_joint softmax caching positive paired ordered shaped
  refine ⟨ahead, past, embedded, filled, agrees, ?_⟩
  have same : ∀ xT timestep targetTime, xT.length = model.chunkSize →
      model.denoiseStep ahead.padMasks past xT timestep targetTime = model.predictVelocity ahead xT timestep targetTime := by
    intro xT timestep targetTime here
    obtain ⟨velocity, alone, beside⟩ := agrees xT timestep targetTime here
    exact alone.trans beside.symm
  have loops : model.integrate (model.denoiseStep ahead.padMasks past) rtcCorrect noise =
      model.integrate (model.predictVelocity ahead) rtcCorrect noise := by
    unfold integrate
    split
    · rfl
    · exact denoisingLoop_congr same rtcCorrect _ _ long
  rw [sampleActions, embedded]
  change (model.fillCache ahead >>= fun past => _) = _
  rw [filled]
  exact loops

/-- Two layers, of which the second reads across. -/
theorem sampleActions_joint_even :
    ∃ ahead past, (evenModel 2).embedPrefix oneView = .ok ahead ∧ (evenModel 2).fillCache ahead = .ok past ∧
      (∀ xT timestep targetTime, xT.length = 2 →
        ∃ velocity, (evenModel 2).denoiseStep ahead.padMasks past xT timestep targetTime = .ok velocity ∧
          (evenModel 2).predictVelocity ahead xT timestep targetTime = .ok velocity) ∧
      (evenModel 2).sampleActions oneView [[1], [0]] none =
        (evenModel 2).integrate ((evenModel 2).predictVelocity ahead) none [[1], [0]] := by
  have ordered : Ordered (evenNet 2) := (ordered_iff (by decide) rfl).mpr (by decide)
  have observed : states (RobotState.single ([3] : Vec ℚ)) ≠ [] := List.cons_ne_nil _ _
  exact sampleActions_joint (evenNet_softmax 2) rfl (by decide) (evenNet_paired 2) ordered rfl rfl observed
    [[1], [0]] rfl none

/-! ### The positions the two passes use -/

example : ¬ Ordered (evenNet 3) := fun ordered => (ordered_iff (by decide) rfl).mp ordered (by decide)

end

end PhysicalAiStudio.Policies.SmolVla
