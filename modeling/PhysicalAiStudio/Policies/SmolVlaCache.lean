import PhysicalAiStudio.Policies.SmolVlaModel
import Mathlib.Data.List.MinMax

/-! The cached inference of SmolVLA against its training pass.

Both give the valid tokens of the prefix the same vectors, layer by layer: the prefix does not read the
actions, and its padding is read by no valid token. So the cache holds, where it is read, the keys and
values of the joint pass, and the action expert computes the same. The positions of the two passes agree
until a self-attention layer follows a cross-attention layer: from there on the joint pass counts the
actions from zero.
-/

set_option autoImplicit false

namespace PhysicalAiStudio.Policies.SmolVla

open PhysicalAiStudio.Collections PhysicalAiStudio.Numeric PhysicalAiStudio.Strings VlmWithExpert

variable {Scalar Score Image : Type}

/-! ### Positions -/

def ramp (start : Int) (count : Nat) : List Int := (List.range count).map fun index : Nat => start + (index : Int)

@[simp] theorem length_ramp (start : Int) (count : Nat) : (ramp start count).length = count := by
  rw [ramp, List.length_map, List.length_range]

theorem ramp_succ (start : Int) (count : Nat) : ramp start (count + 1) = start :: ramp (start + 1) count := by
  rw [ramp, List.range_succ_eq_map, List.map_cons, List.map_map, ramp]
  refine List.cons_eq_cons.mpr ⟨Int.add_zero start, List.map_congr_left fun index _ => ?_⟩
  change start + ((index + 1 : Nat) : Int) = start + 1 + index
  omega

theorem map_add_ramp (amount start : Int) (count : Nat) : (ramp start count).map (amount + ·) = ramp (amount + start) count := by
  rw [ramp, List.map_map, ramp]
  exact List.map_congr_left fun index _ => (Int.add_assoc amount start index).symm

theorem fromZero_ramp (start : Int) {count : Nat} (positive : 0 < count) : fromZero (ramp start count) = .ok (ramp 0 count) := by
  have least : (ramp start count).min? = some start := by
    rw [List.min?_eq_some_iff]
    refine ⟨List.mem_map.mpr ⟨0, List.mem_range.mpr positive, Int.add_zero start⟩, fun position member => ?_⟩
    rw [ramp, List.mem_map] at member
    obtain ⟨index, _, rfl⟩ := member
    omega
  rw [fromZero, least]
  have shifted : (ramp start count).map (· - start) = ramp 0 count := by
    rw [ramp, List.map_map, ramp]
    refine List.map_congr_left fun index _ => ?_
    change start + (index : Int) - start = 0 + index
    omega
  exact congrArg Except.ok shifted

theorem runningSums_ones (total count : Nat) :
    (runningSums total (List.replicate count 1)).map (fun sum : Nat => (sum : Int) - 1) = ramp total count := by
  induction count generalizing total with
  | zero => rfl
  | succ count ih =>
    rw [List.replicate_succ, runningSums, List.map_cons, ih, ramp_succ]
    congr 1
    omega

theorem positionsOf_valid (count : Nat) : positionsOf (List.replicate count true) = ramp 0 count := by
  rw [positionsOf, List.map_replicate]
  exact runningSums_ones 0 count

/-- The number of valid tokens, which is where the positions of the actions start. -/
def validTokens (padMasks : List Bool) : Nat := (padMasks.map Bool.toNat).sum

theorem positionsOf_append (first second : List Bool) :
    positionsOf (first ++ second) = positionsOf first ++ (positionsOf second).map ((validTokens first : Int) + ·) := by
  rw [positionsOf, List.map_append, cumsum_append, List.map_append, List.map_map, positionsOf, positionsOf, List.map_map]
  congr 1
  refine List.map_congr_left fun sum _ => ?_
  change ((validTokens first + sum : Nat) : Int) - 1 = validTokens first + ((sum : Int) - 1)
  omega

@[simp] theorem length_positionsOf (padMasks : List Bool) : (positionsOf padMasks).length = padMasks.length := by
  rw [positionsOf, List.length_map, length_cumsum, List.length_map]

/-! ### One row of attention -/

variable {model : VlmWithExpert Scalar Score}

/-- The softmax gives a masked score no weight beside another one. -/
structure SoftmaxMasks (model : VlmWithExpert Scalar Score) : Prop where
  masking : Masking model.bigNeg model.mix
  unmasked : ∀ query key, model.score query key ≠ model.bigNeg

theorem filter_zip_map {Key Value Other : Type} (row : List Bool) (keys : List Key) (values : List Value)
    (change : Value → Other) :
    (row.zip (keys.zip (values.map change))).filter Prod.fst =
      ((row.zip (keys.zip values)).filter Prod.fst).map (Prod.map id (Prod.map id change)) := by
  rw [List.zip_map_right, List.zip_map_right, List.filter_map]
  rfl

theorem attend_congr (softmax : SoftmaxMasks model) {row row' : List Bool}
    {keys keys' values values' : States Scalar} (query : List (Vec Scalar))
    (read : ∃ entry ∈ row.zip (keys.zip values), entry.1 = true)
    (same : (row.zip (keys.zip values)).filter Prod.fst = (row'.zip (keys'.zip values')).filter Prod.fst) :
    model.attend query row keys values = model.attend query row' keys' values' := by
  rw [VlmWithExpert.attend, VlmWithExpert.attend]
  refine List.flatMap_congr fun head _ => ?_
  refine mix_congr softmax.masking (fun key => softmax.unmasked _ _) ?_ ?_
  · obtain ⟨entry, inside, seen⟩ := read
    refine ⟨Prod.map id (Prod.map id fun value => (model.expandHeads value).getD head []) entry, ?_, seen⟩
    rw [List.zip_map_right, List.zip_map_right]
    exact List.mem_map.mpr ⟨entry, inside, rfl⟩
  · rw [filter_zip_map, filter_zip_map, same]

theorem read_of_mem {Key Value : Type} {row : List Bool} {keys : List Key} {values : List Value} (seen : true ∈ row)
    (long : row.length ≤ keys.length) (long' : row.length ≤ values.length) :
    ∃ entry ∈ row.zip (keys.zip values), entry.1 = true := by
  have shown : (row.zip (keys.zip values)).map Prod.fst = row :=
    List.map_fst_zip (by rw [List.length_zip]; omega)
  rw [← shown, List.mem_map] at seen
  exact seen

theorem filter_zip_blind {Item : Type} {row : List Bool} {items : List Item} (long : row.length = items.length)
    (count : Nat) (more : List Item) :
    ((row ++ List.replicate count false).zip (items ++ more)).filter Prod.fst = (row.zip items).filter Prod.fst := by
  rw [List.zip_append long, List.filter_append]
  have blind : ((List.replicate count false).zip more).filter Prod.fst = [] := by
    rw [List.filter_eq_nil_iff]
    intro entry inside seen
    have first := List.eq_of_mem_replicate (List.of_mem_zip inside).1
    rw [first] at seen
    cases seen
  rw [blind, List.append_nil]

/-- The valid tokens of the prefix come out the same, with the actions beside them and without. -/
theorem attendRows_prefix (softmax : SoftmaxMasks model) {tokens : Tokens} {queries queries' keys keys' values values' :
      States Scalar} (count : Nat) (keysBehind valuesBehind : States Scalar)
    (sameQueries : Agree (tokens.map Prod.fst) queries queries') (sameKeys : Agree (tokens.map Prod.fst) keys keys')
    (sameValues : Agree (tokens.map Prod.fst) values values') :
    Agree (tokens.map Prod.fst)
      (model.attendRows ((blockMask tokens).map (· ++ List.replicate count false)) queries (keys ++ keysBehind)
        (values ++ valuesBehind))
      (model.attendRows (blockMask tokens) queries' keys' values') := by
  have entries := sameKeys.zip sameValues
  have long : keys.length = tokens.length := sameKeys.length_left.trans (List.length_map _)
  have long' : values.length = tokens.length := sameValues.length_left.trans (List.length_map _)
  rw [attendRows, attendRows, List.zipWith_map_right]
  refine sameQueries.zipWith ?_
  rw [blockMask, List.forall₂_map_left_iff, List.forall₂_map_right_iff, List.forall₂_same]
  intro reader inside valid query
  have seen := readers_self inside valid
  have wide : (readers tokens reader).length = (keys.zip values).length := by
    rw [length_readers, List.length_zip, long, long', Nat.min_self]
  refine (attend_congr softmax query ?_ ?_).symm
  · refine read_of_mem seen ?_ ?_
    · rw [length_readers, sameKeys.length_right, List.length_map]
    · rw [length_readers, sameValues.length_right, List.length_map]
  · rw [List.zip_append (by rw [long, long']), filter_zip_blind wide]
    refine (entries.filter_eq ?_).symm
    rw [List.forall₂_map_right_iff]
    exact readers_valid tokens reader

theorem zipWith_congr_right {Query Row Result : Type} {one other : Query → Row → Result} {rows : List Row}
    (each : ∀ row ∈ rows, ∀ query, one query row = other query row) (queries : List Query) :
    queries.zipWith one rows = queries.zipWith other rows := by
  induction queries generalizing rows with
  | nil => rfl
  | cons query queries ih =>
    cases rows with
    | nil => rfl
    | cons row rows =>
      rw [List.zipWith_cons_cons, List.zipWith_cons_cons, each row List.mem_cons_self,
        ih fun row inside => each row (List.mem_cons_of_mem _ inside)]

/-- An action reads the same of two prefixes that agree where they are valid. -/
theorem attendRows_suffix (softmax : SoftmaxMasks model) {flags : List Bool} {rows : List (List Bool)}
    {keys keys' values values' keysBehind valuesBehind : States Scalar} (queries : States Scalar)
    (sameKeys : Agree flags keys keys') (sameValues : Agree flags values values')
    (wide : ∀ row ∈ rows, row.length = keysBehind.length ∧ row.length = valuesBehind.length ∧ true ∈ flags ++ row) :
    model.attendRows (rows.map (flags ++ ·)) queries (keys ++ keysBehind) (values ++ valuesBehind) =
      model.attendRows (rows.map (flags ++ ·)) queries (keys' ++ keysBehind) (values' ++ valuesBehind) := by
  have entries := sameKeys.zip sameValues
  have long : keys.length = values.length := sameKeys.length_left.trans sameValues.length_left.symm
  have long' : keys'.length = values'.length := sameKeys.length_right.trans sameValues.length_right.symm
  rw [attendRows, attendRows, List.zipWith_map_right, List.zipWith_map_right]
  refine zipWith_congr_right (fun row inside query => ?_) queries
  obtain ⟨keysWide, valuesWide, seen⟩ := wide row inside
  refine attend_congr softmax query (read_of_mem seen ?_ ?_) ?_
  · rw [List.length_append, List.length_append, sameKeys.length_left, keysWide]
  · rw [List.length_append, List.length_append, sameValues.length_left, valuesWide]
  · rw [List.zip_append long, List.zip_append long', List.zip_append, List.zip_append, List.filter_append,
      List.filter_append, entries.filter_eq]
    · exact List.forall₂_same.mpr fun _ _ valid => valid
    · rw [entries.length_right]
    · rw [entries.length_left]

/-! ### A self-attention layer -/

variable {layer expert : Layer Scalar} {other : Option (Layer Scalar)} {embs embs' suffix : List (Vec Scalar)}
  {ahead behind : List Int}

theorem length_project (model : VlmWithExpert Scalar Score) (layer : Layer Scalar) (tokens : List (Vec Scalar)) :
    (model.project layer tokens).queryStates.length = tokens.length ∧
      (model.project layer tokens).keyStates.length = tokens.length ∧
      (model.project layer tokens).valueStates.length = tokens.length :=
  ⟨List.length_map _, List.length_map _, List.length_map _⟩

theorem length_rotate {states : States Scalar} {positions : List Int} (long : states.length = positions.length) :
    (model.rotate states positions).length = states.length := by
  rw [rotate, List.length_zipWith, ← long, Nat.min_self]

theorem applyRope_ok {states : States Scalar} {positions : List Int} (long : states.length = positions.length) :
    model.applyRope states positions = .ok (model.rotate states positions) := if_pos long

theorem rotate_append {states : States Scalar} {positions : List Int} (long : states.length = positions.length)
    (more : States Scalar) (further : List Int) :
    model.rotate (states ++ more) (positions ++ further) = model.rotate states positions ++ model.rotate more further :=
  List.zipWith_append long

def keysAt (model : VlmWithExpert Scalar Score) (layer : Layer Scalar) (tokens : List (Vec Scalar)) (positions : List Int) :
    States Scalar :=
  model.rotate (model.project layer tokens).keyStates positions

def queriesAt (model : VlmWithExpert Scalar Score) (layer : Layer Scalar) (tokens : List (Vec Scalar))
    (positions : List Int) : States Scalar :=
  model.rotate (model.project layer tokens).queryStates positions

def valuesOf (model : VlmWithExpert Scalar Score) (layer : Layer Scalar) (tokens : List (Vec Scalar)) : States Scalar :=
  (model.project layer tokens).valueStates

def entryAt (model : VlmWithExpert Scalar Score) (layer : Layer Scalar) (tokens : List (Vec Scalar)) (positions : List Int) :
    Entry Scalar :=
  ⟨keysAt model layer tokens positions, valuesOf model layer tokens⟩

def attended (model : VlmWithExpert Scalar Score) (layer : Layer Scalar) (rows : List (List Bool)) (tokens : List (Vec Scalar))
    (positions : List Int) (keys values : States Scalar) : List (Vec Scalar) :=
  (model.attendRows rows (queriesAt model layer tokens positions) keys values).zipWith (model.feedToken layer) tokens

theorem length_keysAt {tokens : List (Vec Scalar)} {positions : List Int} (long : tokens.length = positions.length) :
    (keysAt model layer tokens positions).length = tokens.length := by
  rw [keysAt, length_rotate ((length_project model layer tokens).2.1.trans long), (length_project model layer tokens).2.1]

theorem length_queriesAt {tokens : List (Vec Scalar)} {positions : List Int} (long : tokens.length = positions.length) :
    (queriesAt model layer tokens positions).length = tokens.length := by
  rw [queriesAt, length_rotate ((length_project model layer tokens).1.trans long), (length_project model layer tokens).1]

theorem length_valuesOf (tokens : List (Vec Scalar)) : (valuesOf model layer tokens).length = tokens.length :=
  (length_project model layer tokens).2.2

/-- A self-attention layer, once its tokens are projected and its cache is read. -/
theorem forwardAttnLayer_eq {layers : List (Option (Layer Scalar))} {inputs : InputsEmbeds Scalar} {layerIdx : Nat}
    {positions : List Int} {rows : List (List Bool)} {useCache fillKvCache : Bool} {past past' : Option (Cache Scalar)}
    {projected : Projected Scalar} {entry : Entry Scalar} (projects : model.projectAll layers inputs = .ok projected)
    (queries : projected.queryStates.length = positions.length) (keys : projected.keyStates.length = positions.length)
    (caches : selfCache layerIdx useCache fillKvCache past
      ⟨model.rotate projected.keyStates positions, projected.valueStates⟩ = .ok (entry, past'))
    (tall : rows.length = positions.length) (wide : ∀ row ∈ rows, row.length = entry.keyStates.length) :
    model.forwardAttnLayer layers inputs layerIdx positions rows useCache fillKvCache past =
      .ok ([some (model.attendRows rows (model.rotate projected.queryStates positions) entry.keyStates
        entry.valueStates)], past') := by
  have whole : ¬ projected.queryStates.length < positions.length := by omega
  have shaped : rows.length = (model.rotate projected.queryStates positions).length ∧
      ∀ row ∈ rows, row.length = entry.keyStates.length := by
    rw [length_rotate queries, queries]
    exact ⟨tall, wide⟩
  simp only [forwardAttnLayer, projects, bind, Except.bind, decide_eq_false whole, Bool.false_eq_true, ↓reduceIte,
    applyRope_ok queries, applyRope_ok keys, caches, eagerAttentionForward, if_pos shaped, pure, Except.pure]

theorem forwardAttnLayer_joint (layerIdx : Nat) {rows : List (List Bool)} (long : embs.length = ahead.length)
    (long' : suffix.length = behind.length) (tall : rows.length = embs.length + suffix.length)
    (wide : ∀ row ∈ rows, row.length = embs.length + suffix.length) :
    model.forwardAttnLayer [some layer, some expert] [some embs, some suffix] layerIdx (ahead ++ behind) rows false false
        none =
      .ok ([some (model.attendRows rows (queriesAt model layer embs ahead ++ queriesAt model expert suffix behind)
        (keysAt model layer embs ahead ++ keysAt model expert suffix behind)
        (valuesOf model layer embs ++ valuesOf model expert suffix))], none) := by
  have projects : model.projectAll [some layer, some expert] [some embs, some suffix] =
      .ok ⟨(model.project layer embs).queryStates ++ (model.project expert suffix).queryStates,
        (model.project layer embs).keyStates ++ (model.project expert suffix).keyStates,
        valuesOf model layer embs ++ valuesOf model expert suffix⟩ := by
    simp [projectAll, catProjected, valuesOf]
  obtain ⟨queries, keys, values⟩ := length_project model layer embs
  obtain ⟨queries', keys', values'⟩ := length_project model expert suffix
  have caches : selfCache layerIdx false false none
      ⟨model.rotate ((model.project layer embs).keyStates ++ (model.project expert suffix).keyStates) (ahead ++ behind),
        valuesOf model layer embs ++ valuesOf model expert suffix⟩ =
      .ok (⟨keysAt model layer embs ahead ++ keysAt model expert suffix behind,
        valuesOf model layer embs ++ valuesOf model expert suffix⟩, none) := by
    rw [rotate_append (keys.trans long)]
    rfl
  rw [forwardAttnLayer_eq projects _ _ caches, rotate_append (queries.trans long)]
  · rfl
  · rw [tall, List.length_append, long, long']
  · rw [List.length_append, length_keysAt long, length_keysAt long']
    exact wide
  · rw [List.length_append, List.length_append]
    omega
  · rw [List.length_append, List.length_append]
    omega

theorem attendRows_append {rows more : List (List Bool)} {queries further keys values : States Scalar}
    (long : queries.length = rows.length) :
    model.attendRows (rows ++ more) (queries ++ further) keys values =
      model.attendRows rows queries keys values ++ model.attendRows more further keys values :=
  List.zipWith_append long

theorem forwardAttnLayer_fill (layerIdx : Nat) {rows : List (List Bool)} (past : Option (Cache Scalar))
    (long : embs.length = ahead.length) (tall : rows.length = embs.length) (wide : ∀ row ∈ rows, row.length = embs.length) :
    model.forwardAttnLayer [some layer, other] [some embs, none] layerIdx ahead rows true true past =
      .ok ([some (model.attendRows rows (queriesAt model layer embs ahead) (keysAt model layer embs ahead)
          (valuesOf model layer embs))],
        some ((past.getD ∅).set layerIdx (entryAt model layer embs ahead))) := by
  have projects : model.projectAll [some layer, other] [some embs, none] = .ok (model.project layer embs) := by
    simp [projectAll, catProjected]
  obtain ⟨queries, keys, values⟩ := length_project model layer embs
  have caches : selfCache layerIdx true true past (entryAt model layer embs ahead) =
      .ok ((entryAt model layer embs ahead),
        some ((past.getD ∅).set layerIdx (entryAt model layer embs ahead))) := rfl
  refine forwardAttnLayer_eq projects (queries.trans long) (keys.trans long) caches (tall.trans long) ?_
  intro row inside
  exact (wide row inside).trans (length_keysAt long).symm

theorem forwardAttnLayer_cached (layerIdx : Nat) {rows : List (List Bool)} {past : Option (Cache Scalar)}
    {entry : Entry Scalar} (held : (past.getD ∅).get? layerIdx = some entry) (long : suffix.length = behind.length)
    (tall : rows.length = suffix.length) (wide : ∀ row ∈ rows, row.length = entry.keyStates.length + suffix.length) :
    model.forwardAttnLayer [other, some expert] [none, some suffix] layerIdx behind rows true false past =
      .ok ([some (model.attendRows rows (queriesAt model expert suffix behind)
          (entry.keyStates ++ keysAt model expert suffix behind) (entry.valueStates ++ valuesOf model expert suffix))],
        some (past.getD ∅)) := by
  have projects : model.projectAll [other, some expert] [none, some suffix] = .ok (model.project expert suffix) := by
    simp [projectAll, catProjected]
  obtain ⟨queries, keys, values⟩ := length_project model expert suffix
  have caches : selfCache layerIdx true false past ⟨keysAt model expert suffix behind, valuesOf model expert suffix⟩ =
      .ok (⟨entry.keyStates ++ keysAt model expert suffix behind, entry.valueStates ++ valuesOf model expert suffix⟩,
        some (past.getD ∅)) := by
    simp only [selfCache, Bool.false_eq_true, ↓reduceIte, held]
  refine forwardAttnLayer_eq projects (queries.trans long) (keys.trans long) caches (tall.trans long) ?_
  intro row inside
  rw [wide row inside, List.length_append, length_keysAt long]

/-! ### A cross-attention layer -/

def crossed (model : VlmWithExpert Scalar Score) (proj : Vec Scalar → Vec Scalar) (states : States Scalar) : States Scalar :=
  states.map fun token => model.heads (proj token.flatten)

def crossAttend (model : VlmWithExpert Scalar Score) (expert : Layer Scalar) (suffix : List (Vec Scalar)) (flags : List Bool)
    (entry : Entry Scalar) : List (Vec Scalar) :=
  model.attendRows (List.replicate suffix.length flags) (queriesAt model expert suffix (ramp 0 suffix.length))
    (crossed model expert.kProj entry.keyStates) (crossed model expert.vProj entry.valueStates)

theorem crossExpert_ok {rows : List (List Bool)} {flags : List Bool} {entry : Entry Scalar} {first : Option (List (Vec Scalar))}
    (start : Int) (positive : 0 < suffix.length)
    (view : (rows.drop (rows.length - suffix.length)).map (·.take entry.keyStates.length) =
      List.replicate suffix.length flags)
    (wide : flags.length = entry.keyStates.length) :
    model.crossExpert [other, some expert] [first, some suffix] rows (ramp start suffix.length) entry =
      .ok (some (crossAttend model expert suffix flags entry), ramp 0 suffix.length) := by
  have long : (model.project expert suffix).queryStates.length = (ramp 0 suffix.length).length := by
    rw [(length_project model expert suffix).1, length_ramp]
  have shaped : (List.replicate suffix.length flags).length =
      (model.rotate (model.project expert suffix).queryStates (ramp 0 suffix.length)).length ∧
      ∀ row ∈ List.replicate suffix.length flags, row.length = entry.keyStates.length := by
    refine ⟨?_, fun row inside => ?_⟩
    · rw [List.length_replicate, length_rotate long, (length_project model expert suffix).1]
    · rw [List.eq_of_mem_replicate inside, wide]
  simp only [crossExpert, List.getElem?_cons_succ, List.getElem?_cons_zero, Option.join_some, fromZero_ramp start positive,
    bind, Except.bind, applyRope_ok long, List.length_map, view, eagerAttentionForward, if_pos shaped, pure, Except.pure]
  rfl

theorem crossPrefix_joint {rows : List (List Bool)} {square : List (List Bool)} (long : embs.length = ahead.length)
    (view : (rows.take embs.length).map (·.take embs.length) = square) (tall : square.length = embs.length)
    (wide : ∀ row ∈ square, row.length = embs.length) :
    model.crossPrefix [some layer, other] [some embs, some suffix] (ahead ++ behind) rows none =
      .ok ⟨[some (model.attendRows square (queriesAt model layer embs ahead) (keysAt model layer embs ahead)
          (valuesOf model layer embs))],
        some (entryAt model layer embs ahead), behind, ahead⟩ := by
  have queries : (model.project layer embs).queryStates.length = ahead.length := (length_project model layer embs).1.trans long
  have keys : (model.project layer embs).keyStates.length = ahead.length := (length_project model layer embs).2.1.trans long
  have shaped : square.length = (model.rotate (model.project layer embs).queryStates ahead).length ∧
      ∀ row ∈ square, row.length = (model.rotate (model.project layer embs).keyStates ahead).length := by
    rw [length_rotate queries, queries, length_rotate keys, keys, ← long]
    exact ⟨tall, wide⟩
  have front : (ahead ++ behind).take embs.length = ahead := by rw [long, List.take_left]
  have back : (ahead ++ behind).drop embs.length = behind := by rw [long, List.drop_left]
  have alone : ([some embs, some suffix] : InputsEmbeds Scalar).length = 2 ∧
      ((none : Option (Cache Scalar)).getD ∅).entries = [] := ⟨rfl, rfl⟩
  rw [crossPrefix, if_pos alone]
  simp only [List.head?_cons, Option.join_some, front, back, view, bind, Except.bind, applyRope_ok queries,
    applyRope_ok keys, eagerAttentionForward, if_pos shaped, pure, Except.pure]
  rfl

/-- The actions after a layer that reads the prefix: they pass a layer the expert does not have. -/
def crossFed (model : VlmWithExpert Scalar Score) (expert : Option (Layer Scalar)) (suffix : List (Vec Scalar))
    (flags : List Bool) (entry : Entry Scalar) : List (Vec Scalar) :=
  match expert with
  | none => suffix
  | some expert => (crossAttend model expert suffix flags entry).zipWith (model.feedToken expert) suffix

def startAfter (crosses : Bool) (start : Int) : Int := if crosses then 0 else start

theorem feedForward_ok {attOut hidden : List (Vec Scalar)} (long : attOut.length = hidden.length) :
    model.feedForward layer attOut hidden = .ok (attOut.zipWith (model.feedToken layer) hidden) := if_pos long

/-- The expert's part of a cross-attention layer: its output, and where the positions start after it. -/
theorem crossExpert_eq {rows : List (List Bool)} {flags : List Bool} {entry : Entry Scalar}
    {first : Option (List (Vec Scalar))} {front : Option (Layer Scalar)} (start : Int) (positive : 0 < suffix.length)
    (view : (rows.drop (rows.length - suffix.length)).map (·.take entry.keyStates.length) =
      List.replicate suffix.length flags)
    (wide : flags.length = entry.keyStates.length) :
    model.crossExpert [front, other] [first, some suffix] rows (ramp start suffix.length) entry =
      .ok (other.map fun expert => crossAttend model expert suffix flags entry,
        ramp (startAfter other.isSome start) suffix.length) := by
  cases other with
  | none => rfl
  | some expert => exact crossExpert_ok start positive view wide

theorem length_crossAttend (model : VlmWithExpert Scalar Score) (expert : Layer Scalar) (suffix : List (Vec Scalar))
    (flags : List Bool) (entry : Entry Scalar) : (crossAttend model expert suffix flags entry).length = suffix.length := by
  rw [crossAttend, attendRows, List.length_zipWith, length_queriesAt (length_ramp 0 _).symm, List.length_replicate,
    Nat.min_self]

/-! The parts of a layer's output: both in one row, both apart, the prefix alone and the actions alone. -/

theorem feedAll_row {attOut attOut' : List (Vec Scalar)} (long : attOut.length = embs.length)
    (long' : attOut'.length = suffix.length) :
    model.feedAll [some (attOut ++ attOut')] 0 0 [(some embs, some layer), (some suffix, some expert)] =
      .ok [some (attOut.zipWith (model.feedToken layer) embs), some (attOut'.zipWith (model.feedToken expert) suffix)] := by
  have front : (attOut ++ attOut').take embs.length = attOut := by rw [← long, List.take_left]
  have back : ((attOut ++ attOut').take (embs.length + suffix.length)).drop embs.length = attOut' := by
    rw [List.take_of_length_le (by rw [List.length_append]; omega), ← long, List.drop_left]
  simp [feedAll, bind, Except.bind, front, back, feedForward_ok long, feedForward_ok long', pure, Except.pure]

theorem feedAll_apart {attOut : List (Vec Scalar)} {flags : List Bool} {entry : Entry Scalar}
    (long : attOut.length = embs.length) :
    model.feedAll [some attOut, other.map fun expert => crossAttend model expert suffix flags entry] 0 0
        [(some embs, some layer), (some suffix, other)] =
      .ok [some (attOut.zipWith (model.feedToken layer) embs), some (crossFed model other suffix flags entry)] := by
  have front : attOut.take embs.length = attOut := List.take_of_length_le (Nat.le_of_eq long)
  cases other with
  | none => simp [feedAll, bind, Except.bind, front, feedForward_ok long, pure, Except.pure, crossFed]
  | some expert =>
    have long' := length_crossAttend model expert suffix flags entry
    have back : (crossAttend model expert suffix flags entry).take suffix.length = crossAttend model expert suffix flags entry :=
      List.take_of_length_le (Nat.le_of_eq long')
    simp [feedAll, bind, Except.bind, front, back, feedForward_ok long, feedForward_ok long', pure, Except.pure, crossFed]

theorem feedAll_front {attOut : List (Vec Scalar)} (long : attOut.length = embs.length) :
    model.feedAll [some attOut] 0 0 [(some embs, some layer), (none, other)] =
      .ok [some (attOut.zipWith (model.feedToken layer) embs), none] := by
  have front : attOut.take embs.length = attOut := List.take_of_length_le (Nat.le_of_eq long)
  simp [feedAll, bind, Except.bind, front, feedForward_ok long, pure, Except.pure]

theorem feedAll_behind {attOut : List (Vec Scalar)} (long : attOut.length = suffix.length) :
    model.feedAll [some attOut] 0 0 [(none, other), (some suffix, some expert)] =
      .ok [none, some (attOut.zipWith (model.feedToken expert) suffix)] := by
  have whole : attOut.take suffix.length = attOut := List.take_of_length_le (Nat.le_of_eq long)
  simp [feedAll, bind, Except.bind, whole, feedForward_ok long, pure, Except.pure]

theorem feedAll_crossed {front : Option (Layer Scalar)} (flags : List Bool) (entry : Entry Scalar) :
    model.feedAll [other.map fun expert => crossAttend model expert suffix flags entry] 0 0
        [(none, front), (some suffix, other)] =
      .ok [none, some (crossFed model other suffix flags entry)] := by
  cases other with
  | none => rfl
  | some expert => exact feedAll_behind (length_crossAttend model expert suffix flags entry)

theorem forwardLayer_joint_cross {layerIdx : Nat} (crosses : model.selfAttends layerIdx = false)
    {rows square : List (List Bool)} {flags : List Bool} (start : Int) (positive : 0 < suffix.length)
    (long : embs.length = ahead.length)
    (view : (rows.take embs.length).map (·.take embs.length) = square) (tall : square.length = embs.length)
    (wide : ∀ row ∈ square, row.length = embs.length)
    (behindView : (rows.drop (rows.length - suffix.length)).map (·.take embs.length) = List.replicate suffix.length flags)
    (behindWide : flags.length = embs.length) :
    model.forwardLayer rows false false [some layer, other] layerIdx
        ⟨[some embs, some suffix], ahead ++ ramp start suffix.length, none⟩ =
      .ok ⟨[some (attended model layer square embs ahead (keysAt model layer embs ahead) (valuesOf model layer embs)),
          some (crossFed model other suffix flags (entryAt model layer embs ahead))],
        ahead ++ ramp (startAfter other.isSome start) suffix.length, none⟩ := by
  have keys : (keysAt model layer embs ahead).length = embs.length := length_keysAt long
  have fed : (model.attendRows square (queriesAt model layer embs ahead) (keysAt model layer embs ahead)
      (valuesOf model layer embs)).length = embs.length := by
    rw [attendRows, List.length_zipWith, length_queriesAt long, tall, Nat.min_self]
  have reads : model.crossExpert [some layer, other] [some embs, some suffix] rows (ramp start suffix.length)
      (entryAt model layer embs ahead) =
      .ok (other.map fun expert => crossAttend model expert suffix flags (entryAt model layer embs ahead),
        ramp (startAfter other.isSome start) suffix.length) :=
    crossExpert_eq start positive (keys.symm ▸ behindView) (behindWide.trans keys.symm)
  have runs : model.forwardCrossAttnLayer [some layer, other] [some embs, some suffix] layerIdx
      (ahead ++ ramp start suffix.length) rows false false none =
      .ok ([some (model.attendRows square (queriesAt model layer embs ahead) (keysAt model layer embs ahead)
            (valuesOf model layer embs)),
          other.map fun expert => crossAttend model expert suffix flags
            (entryAt model layer embs ahead)],
        ahead ++ ramp (startAfter other.isSome start) suffix.length, none) := by
    simp only [forwardCrossAttnLayer, List.length_cons, List.length_nil, Nat.zero_add, Nat.reduceAdd, true_or, ↓reduceIte,
      bind, Except.bind, crossPrefix_joint long view tall wide, crossCache, Bool.false_eq_true, reads, List.isEmpty_cons,
      pure, Except.pure, List.cons_append, List.nil_append]
  simp only [forwardLayer, crosses, Bool.false_or, Bool.false_eq_true, ↓reduceIte, runs, bind, Except.bind,
    List.zip_cons_cons, List.zip_nil_left, feedAll_apart fed, pure, Except.pure, attended]

theorem forwardLayer_joint_self {layerIdx : Nat} (attends : model.selfAttends layerIdx = true)
    {rows behindRows : List (List Bool)} (start : Int) (long : embs.length = ahead.length)
    (tall : rows.length = embs.length) (tall' : behindRows.length = suffix.length)
    (wide : ∀ row ∈ rows ++ behindRows, row.length = embs.length + suffix.length) :
    model.forwardLayer (rows ++ behindRows) false false [some layer, some expert] layerIdx
        ⟨[some embs, some suffix], ahead ++ ramp start suffix.length, none⟩ =
      .ok ⟨[some (attended model layer rows embs ahead
            (keysAt model layer embs ahead ++ keysAt model expert suffix (ramp start suffix.length))
            (valuesOf model layer embs ++ valuesOf model expert suffix)),
          some (attended model expert behindRows suffix (ramp start suffix.length)
            (keysAt model layer embs ahead ++ keysAt model expert suffix (ramp start suffix.length))
            (valuesOf model layer embs ++ valuesOf model expert suffix))],
        ahead ++ ramp start suffix.length, none⟩ := by
  have long' : suffix.length = (ramp start suffix.length).length := (length_ramp start _).symm
  have runs : model.forwardAttnLayer [some layer, some expert] [some embs, some suffix] layerIdx
      (ahead ++ ramp start suffix.length) (rows ++ behindRows) false false none = _ :=
    forwardAttnLayer_joint layerIdx long long' (by rw [List.length_append, tall, tall']) wide
  have fed : (model.attendRows rows (queriesAt model layer embs ahead)
      (keysAt model layer embs ahead ++ keysAt model expert suffix (ramp start suffix.length))
      (valuesOf model layer embs ++ valuesOf model expert suffix)).length = embs.length := by
    rw [attendRows, List.length_zipWith, length_queriesAt long, tall, Nat.min_self]
  have fed' : (model.attendRows behindRows (queriesAt model expert suffix (ramp start suffix.length))
      (keysAt model layer embs ahead ++ keysAt model expert suffix (ramp start suffix.length))
      (valuesOf model layer embs ++ valuesOf model expert suffix)).length = suffix.length := by
    rw [attendRows, List.length_zipWith, length_queriesAt long', tall', Nat.min_self]
  rw [attendRows_append ((length_queriesAt long).trans tall.symm)] at runs
  simp only [forwardLayer, attends, Bool.false_or, ↓reduceIte, runs, bind, Except.bind, List.zip_cons_cons,
    List.zip_nil_left, feedAll_row fed fed', pure, Except.pure, attended]

theorem forwardLayer_fill {layerIdx : Nat} {rows : List (List Bool)} (past : Option (Cache Scalar))
    (long : embs.length = ahead.length) (tall : rows.length = embs.length) (wide : ∀ row ∈ rows, row.length = embs.length) :
    model.forwardLayer rows true true [some layer, other] layerIdx ⟨[some embs, none], ahead, past⟩ =
      .ok ⟨[some (attended model layer rows embs ahead (keysAt model layer embs ahead) (valuesOf model layer embs)), none], ahead,
        some ((past.getD ∅).set layerIdx (entryAt model layer embs ahead))⟩ := by
  have fed : (model.attendRows rows (queriesAt model layer embs ahead) (keysAt model layer embs ahead)
      (valuesOf model layer embs)).length = embs.length := by
    rw [attendRows, List.length_zipWith, length_queriesAt long, tall, Nat.min_self]
  simp only [forwardLayer, Bool.true_or, ↓reduceIte, forwardAttnLayer_fill layerIdx past long tall wide, bind, Except.bind,
    List.zip_cons_cons, List.zip_nil_left, feedAll_front fed, pure, Except.pure, attended]

theorem forwardLayer_cached_self {layerIdx : Nat} (attends : model.selfAttends layerIdx = true) {rows : List (List Bool)}
    {past : Option (Cache Scalar)} {entry : Entry Scalar} (held : (past.getD ∅).get? layerIdx = some entry)
    (long : suffix.length = behind.length) (tall : rows.length = suffix.length)
    (wide : ∀ row ∈ rows, row.length = entry.keyStates.length + suffix.length) :
    model.forwardLayer rows true false [other, some expert] layerIdx ⟨[none, some suffix], behind, past⟩ =
      .ok ⟨[none, some (attended model expert rows suffix behind (entry.keyStates ++ keysAt model expert suffix behind)
          (entry.valueStates ++ valuesOf model expert suffix))], behind,
        some (past.getD ∅)⟩ := by
  have fed : (model.attendRows rows (queriesAt model expert suffix behind)
      (entry.keyStates ++ keysAt model expert suffix behind)
      (entry.valueStates ++ valuesOf model expert suffix)).length = suffix.length := by
    rw [attendRows, List.length_zipWith, length_queriesAt long, tall, Nat.min_self]
  simp only [forwardLayer, attends, Bool.or_true, ↓reduceIte, forwardAttnLayer_cached layerIdx held long tall wide, bind,
    Except.bind, List.zip_cons_cons, List.zip_nil_left, feedAll_behind fed, pure, Except.pure, attended]

theorem forwardLayer_cached_cross {layerIdx : Nat} (crosses : model.selfAttends layerIdx = false)
    {front : Option (Layer Scalar)} {rows : List (List Bool)} {flags : List Bool} {past : Option (Cache Scalar)}
    {entry : Entry Scalar} (held : (past.getD ∅).get? layerIdx = some entry) (start : Int) (positive : 0 < suffix.length)
    (view : (rows.drop (rows.length - suffix.length)).map (·.take entry.keyStates.length) =
      List.replicate suffix.length flags)
    (wide : flags.length = entry.keyStates.length) :
    model.forwardLayer rows true false [front, other] layerIdx ⟨[none, some suffix], ramp start suffix.length, past⟩ =
      .ok ⟨[none, some (crossFed model other suffix flags entry)], ramp start suffix.length, some (past.getD ∅)⟩ := by
  have reads : model.crossPrefix [front, other] [none, some suffix] (ramp start suffix.length) rows past =
      .ok ⟨[], none, ramp start suffix.length, []⟩ := by
    have filled : ¬ (([none, some suffix] : InputsEmbeds Scalar).length = 2 ∧ (past.getD ∅).entries = []) := by
      rintro ⟨_, empty⟩
      have none_held : (past.getD ∅).get? layerIdx = none := by
        rw [Dict.get?, AList.lookup, empty]
        rfl
      rw [none_held] at held
      cases held
    rw [crossPrefix, if_neg filled]
  have after : model.crossExpert [front, other] [none, some suffix] rows (ramp start suffix.length) entry =
      .ok (other.map fun expert => crossAttend model expert suffix flags entry,
        ramp (startAfter other.isSome start) suffix.length) := crossExpert_eq start positive view wide
  have runs : model.forwardCrossAttnLayer [front, other] [none, some suffix] layerIdx (ramp start suffix.length) rows true
      false past =
      .ok ([other.map fun expert => crossAttend model expert suffix flags entry], ramp start suffix.length,
        some (past.getD ∅)) := by
    simp only [forwardCrossAttnLayer, List.length_cons, List.length_nil, Nat.zero_add, Nat.reduceAdd, true_or, ↓reduceIte,
      bind, Except.bind, reads, crossCache, Bool.false_eq_true, held, after, List.isEmpty_nil, pure, Except.pure,
      List.nil_append]
  simp only [forwardLayer, crosses, Bool.false_or, Bool.false_eq_true, ↓reduceIte, runs, bind, Except.bind,
    List.zip_cons_cons, List.zip_nil_left, feedAll_crossed flags entry, pure, Except.pure]

/-! ### One layer of the three passes -/

/-- The prefix does not see the actions. -/
def blindMask (tokens behindTokens : Tokens) : List (List Bool) :=
  (blockMask tokens).map (· ++ List.replicate behindTokens.length false)

def cachedMask (tokens behindTokens : Tokens) : List (List Bool) :=
  (blockMask behindTokens).map (tokens.map Prod.fst ++ ·)

def jointMask (tokens behindTokens : Tokens) : List (List Bool) :=
  blindMask tokens behindTokens ++ cachedMask tokens behindTokens

/-- Whether the expert reads the prefix through a cross-attention layer. -/
def expertCrosses (model : VlmWithExpert Scalar Score) (other : Option (Layer Scalar)) (layerIdx : Nat) : Bool :=
  !model.selfAttends layerIdx && other.isSome

theorem agree_queriesAt (model : VlmWithExpert Scalar Score) (layer : Layer Scalar) {flags : List Bool} (same : Agree flags embs embs') (long : ahead.length = flags.length) :
    Agree flags (queriesAt model layer embs ahead) (queriesAt model layer embs' ahead) :=
  (same.map _).zipWith_right _ long

theorem agree_keysAt (model : VlmWithExpert Scalar Score) (layer : Layer Scalar) {flags : List Bool} (same : Agree flags embs embs') (long : ahead.length = flags.length) :
    Agree flags (keysAt model layer embs ahead) (keysAt model layer embs' ahead) :=
  (same.map _).zipWith_right _ long

theorem agree_valuesOf (model : VlmWithExpert Scalar Score) (layer : Layer Scalar) {flags : List Bool} (same : Agree flags embs embs') :
    Agree flags (valuesOf model layer embs) (valuesOf model layer embs') := same.map _

/-- What the expert reads across does not depend on the padding of the prefix. -/
theorem crossFed_congr (softmax : SoftmaxMasks model) {flags : List Bool} (seen : true ∈ flags)
    (same : Agree flags embs embs') (long : ahead.length = flags.length) :
    crossFed model other suffix flags (entryAt model layer embs ahead) =
      crossFed model other suffix flags (entryAt model layer embs' ahead) := by
  cases other with
  | none => rfl
  | some expert =>
    have sameKeys : Agree flags (crossed model expert.kProj (keysAt model layer embs ahead))
        (crossed model expert.kProj (keysAt model layer embs' ahead)) := (agree_keysAt model layer same long).map _
    have sameValues : Agree flags (crossed model expert.vProj (valuesOf model layer embs))
        (crossed model expert.vProj (valuesOf model layer embs')) := (agree_valuesOf model layer same).map _
    have blank : ∀ row ∈ List.replicate suffix.length ([] : List Bool),
        row.length = ([] : States Scalar).length ∧ row.length = ([] : States Scalar).length ∧ true ∈ flags ++ row := by
      intro row inside
      rw [List.eq_of_mem_replicate inside, List.append_nil]
      exact ⟨rfl, rfl, seen⟩
    have reads := attendRows_suffix softmax (queriesAt model expert suffix (ramp 0 suffix.length)) sameKeys sameValues blank
    simp only [List.map_replicate, List.append_nil] at reads
    exact congrArg (List.zipWith (model.feedToken expert) · suffix) reads

/-- The shapes and the agreement the passes keep from layer to layer. -/
structure Beside (tokens behindTokens : Tokens) (ahead : List Int) (embs embs' suffix : List (Vec Scalar)) : Prop where
  same : Agree (tokens.map Prod.fst) embs embs'
  positions : ahead.length = tokens.length
  valid : ∀ token ∈ behindTokens, token.1 = true
  count : behindTokens.length = suffix.length
  positive : 0 < suffix.length
  seen : true ∈ tokens.map Prod.fst

namespace Beside

variable {tokens behindTokens : Tokens}

theorem long (beside : Beside tokens behindTokens ahead embs embs' suffix) : embs.length = tokens.length :=
  beside.same.length_left.trans (List.length_map _)

theorem long' (beside : Beside tokens behindTokens ahead embs embs' suffix) : embs'.length = tokens.length :=
  beside.same.length_right.trans (List.length_map _)

theorem flagsLong (beside : Beside tokens behindTokens ahead embs embs' suffix) :
    ahead.length = (tokens.map Prod.fst).length := beside.positions.trans (List.length_map _).symm

theorem wide_joint (beside : Beside tokens behindTokens ahead embs embs' suffix) :
    ∀ row ∈ jointMask tokens behindTokens, row.length = embs.length + suffix.length := by
  intro row inside
  rw [jointMask, List.mem_append, blindMask, cachedMask, List.mem_map, List.mem_map] at inside
  obtain ⟨row, early, rfl⟩ | ⟨row, late, rfl⟩ := inside
  · rw [List.length_append, width_blockMask early, List.length_replicate, beside.long, beside.count]
  · rw [List.length_append, width_blockMask late, List.length_map, beside.long, beside.count]

theorem wide_cached (beside : Beside tokens behindTokens ahead embs embs' suffix) :
    ∀ row ∈ cachedMask tokens behindTokens, row.length = embs'.length + suffix.length := by
  intro row inside
  rw [cachedMask, List.mem_map] at inside
  obtain ⟨row, late, rfl⟩ := inside
  rw [List.length_append, width_blockMask late, List.length_map, beside.long', beside.count]

/-- The square of the mask over the prefix, and the rows through which the actions see it. -/
theorem view_joint (beside : Beside tokens behindTokens ahead embs embs' suffix) :
    ((jointMask tokens behindTokens).take embs.length).map (·.take embs.length) = blockMask tokens := by
  have front : (jointMask tokens behindTokens).take embs.length = blindMask tokens behindTokens := by
    rw [jointMask, beside.long, List.take_left']
    rw [blindMask, List.length_map, length_blockMask]
  rw [front, blindMask, List.map_map]
  conv_rhs => rw [← List.map_id (blockMask tokens)]
  refine List.map_congr_left fun row inside => ?_
  rw [Function.comp_apply, beside.long, List.take_left' (width_blockMask inside), id]

theorem view_rows (beside : Beside tokens behindTokens ahead embs embs' suffix) (rows : List (List Bool))
    {count : Nat} (wide : count = tokens.length) :
    ((rows ++ cachedMask tokens behindTokens).drop ((rows ++ cachedMask tokens behindTokens).length - suffix.length)).map
        (·.take count) = List.replicate suffix.length (tokens.map Prod.fst) := by
  have tall : (cachedMask tokens behindTokens).length = suffix.length := by
    rw [cachedMask, List.length_map, length_blockMask, beside.count]
  have back : (rows ++ cachedMask tokens behindTokens).drop
      ((rows ++ cachedMask tokens behindTokens).length - suffix.length) = cachedMask tokens behindTokens := by
    rw [List.length_append, tall, Nat.add_sub_cancel, List.drop_left]
  rw [back, List.eq_replicate_iff, List.length_map, tall]
  refine ⟨rfl, fun view inside => ?_⟩
  rw [cachedMask, List.map_map, List.mem_map] at inside
  obtain ⟨row, _, rfl⟩ := inside
  rw [Function.comp_apply, List.take_left' (by rw [List.length_map, wide])]

end Beside

theorem Beside.next {tokens behindTokens : Tokens} {next next' after : List (Vec Scalar)}
    (beside : Beside tokens behindTokens ahead embs embs' suffix) (same : Agree (tokens.map Prod.fst) next next')
    (count : after.length = suffix.length) : Beside tokens behindTokens ahead next next' after where
  same := same
  positions := beside.positions
  valid := beside.valid
  count := beside.count.trans count.symm
  positive := by rw [count]; exact beside.positive
  seen := beside.seen

theorem length_crossFed (model : VlmWithExpert Scalar Score) (other : Option (Layer Scalar)) (suffix : List (Vec Scalar))
    (flags : List Bool) (entry : Entry Scalar) : (crossFed model other suffix flags entry).length = suffix.length := by
  cases other with
  | none => rfl
  | some expert => rw [crossFed, List.length_zipWith, length_crossAttend, Nat.min_self]

structure LayerRuns (model : VlmWithExpert Scalar Score) (tokens behindTokens : Tokens) (ahead : List Int)
    (layers : List (Option (Layer Scalar))) (layerIdx : Nat) (start : Int) (embs embs' suffix next next' after : List (Vec Scalar))
    (crosses : Bool) (entry : Entry Scalar) : Prop where
  beside : Beside tokens behindTokens ahead next next' after
  joint : model.forwardLayer (jointMask tokens behindTokens) false false layers layerIdx
      ⟨[some embs, some suffix], ahead ++ ramp start behindTokens.length, none⟩ =
    .ok ⟨[some next, some after], ahead ++ ramp (startAfter crosses start) behindTokens.length, none⟩
  fill : ∀ past, model.forwardLayer (blockMask tokens) true true layers layerIdx ⟨[some embs', none], ahead, past⟩ =
    .ok ⟨[some next', none], ahead, some ((past.getD ∅).set layerIdx entry)⟩
  cached : ∀ (offset : Int) (past : Option (Cache Scalar)), (model.selfAttends layerIdx = true → start = offset) →
    (past.getD ∅).get? layerIdx = some entry →
    model.forwardLayer (cachedMask tokens behindTokens) true false layers layerIdx
        ⟨[none, some suffix], ramp offset behindTokens.length, past⟩ =
      .ok ⟨[none, some after], ramp offset behindTokens.length, some (past.getD ∅)⟩

theorem length_attended (model : VlmWithExpert Scalar Score) (layer : Layer Scalar) {rows : List (List Bool)}
    {tokens : List (Vec Scalar)} {positions : List Int} (keys values : States Scalar)
    (long : tokens.length = positions.length) (tall : rows.length = tokens.length) :
    (attended model layer rows tokens positions keys values).length = tokens.length := by
  rw [attended, List.length_zipWith, attendRows, List.length_zipWith, length_queriesAt long, tall, Nat.min_self, Nat.min_self]

theorem Beside.tall {tokens behindTokens : Tokens} (beside : Beside tokens behindTokens ahead embs embs' suffix) :
    (cachedMask tokens behindTokens).length = suffix.length := by
  rw [cachedMask, List.length_map, length_blockMask, beside.count]

/-- The actions come out the same against the cache as beside the prefix. -/
theorem attended_cached (softmax : SoftmaxMasks model) {tokens behindTokens : Tokens}
    (beside : Beside tokens behindTokens ahead embs embs' suffix) (layer expert : Layer Scalar) (start : Int) :
    attended model expert (cachedMask tokens behindTokens) suffix (ramp start suffix.length)
        (keysAt model layer embs ahead ++ keysAt model expert suffix (ramp start suffix.length))
        (valuesOf model layer embs ++ valuesOf model expert suffix) =
      attended model expert (cachedMask tokens behindTokens) suffix (ramp start suffix.length)
        (keysAt model layer embs' ahead ++ keysAt model expert suffix (ramp start suffix.length))
        (valuesOf model layer embs' ++ valuesOf model expert suffix) := by
  refine congrArg (List.zipWith (model.feedToken expert) · suffix) ?_
  refine attendRows_suffix softmax _ (agree_keysAt model layer beside.same beside.flagsLong) (agree_valuesOf model layer beside.same)
    fun row inside => ?_
  have width : row.length = suffix.length := (width_blockMask inside).trans beside.count
  refine ⟨?_, ?_, List.mem_append_left _ beside.seen⟩
  · rw [width, length_keysAt (length_ramp _ _).symm]
  · rw [width, length_valuesOf]

theorem layerRuns_self (softmax : SoftmaxMasks model) {tokens behindTokens : Tokens}
    (beside : Beside tokens behindTokens ahead embs embs' suffix) (layer expert : Layer Scalar) {layerIdx : Nat}
    (start : Int) (attends : model.selfAttends layerIdx = true) :
    ∃ next next' after, LayerRuns model tokens behindTokens ahead [some layer, some expert] layerIdx start embs embs' suffix
      next next' after false (entryAt model layer embs' ahead) := by
  have long : embs.length = ahead.length := beside.long.trans beside.positions.symm
  have long' : embs'.length = ahead.length := beside.long'.trans beside.positions.symm
  have square : (blockMask tokens).length = embs'.length := (length_blockMask tokens).trans beside.long'.symm
  have tall : (blindMask tokens behindTokens).length = embs.length := by
    rw [blindMask, List.length_map, length_blockMask, beside.long]
  have sameRows := attendRows_prefix softmax behindTokens.length
    (keysAt model expert suffix (ramp start suffix.length)) (valuesOf model expert suffix)
    (agree_queriesAt model layer beside.same beside.flagsLong)
    (agree_keysAt model layer beside.same beside.flagsLong) (agree_valuesOf model layer beside.same)
  refine ⟨attended model layer (blindMask tokens behindTokens) embs ahead
      (keysAt model layer embs ahead ++ keysAt model expert suffix (ramp start suffix.length))
      (valuesOf model layer embs ++ valuesOf model expert suffix),
    attended model layer (blockMask tokens) embs' ahead (keysAt model layer embs' ahead) (valuesOf model layer embs'),
    attended model expert (cachedMask tokens behindTokens) suffix (ramp start suffix.length)
      (keysAt model layer embs ahead ++ keysAt model expert suffix (ramp start suffix.length))
      (valuesOf model layer embs ++ valuesOf model expert suffix), ⟨?_, ?_, fun past => ?_, fun offset past counts held => ?_⟩⟩
  · exact beside.next (sameRows.combine _ beside.same)
      (length_attended model expert _ _ (length_ramp _ _).symm beside.tall)
  · rw [beside.count]
    exact forwardLayer_joint_self attends start long tall beside.tall beside.wide_joint
  · exact forwardLayer_fill past long' square fun row inside => (width_blockMask inside).trans beside.long'.symm
  · obtain rfl := counts attends
    have rowsWide : ∀ row ∈ cachedMask tokens behindTokens,
        row.length = (entryAt model layer embs' ahead).keyStates.length + suffix.length := by
      rw [entryAt, length_keysAt long']
      exact beside.wide_cached
    rw [beside.count, attended_cached softmax beside]
    exact forwardLayer_cached_self attends held (length_ramp _ _).symm beside.tall rowsWide

theorem layerRuns_cross (softmax : SoftmaxMasks model) {tokens behindTokens : Tokens}
    (beside : Beside tokens behindTokens ahead embs embs' suffix) (layer : Layer Scalar) (other : Option (Layer Scalar))
    {layerIdx : Nat} (start : Int) (crosses : model.selfAttends layerIdx = false) :
    ∃ next next' after, LayerRuns model tokens behindTokens ahead [some layer, other] layerIdx start embs embs' suffix
      next next' after other.isSome (entryAt model layer embs' ahead) := by
  have long : embs.length = ahead.length := beside.long.trans beside.positions.symm
  have long' : embs'.length = ahead.length := beside.long'.trans beside.positions.symm
  have square : (blockMask tokens).length = embs'.length := (length_blockMask tokens).trans beside.long'.symm
  have sameRows := attendRows_prefix softmax 0 [] [] (agree_queriesAt model layer beside.same
    beside.flagsLong) (agree_keysAt model layer beside.same beside.flagsLong)
    (agree_valuesOf model layer beside.same)
  simp only [List.replicate_zero, List.append_nil, List.map_id'] at sameRows
  refine ⟨attended model layer (blockMask tokens) embs ahead (keysAt model layer embs ahead) (valuesOf model layer embs),
    attended model layer (blockMask tokens) embs' ahead (keysAt model layer embs' ahead) (valuesOf model layer embs'),
    crossFed model other suffix (tokens.map Prod.fst) (entryAt model layer embs ahead),
    ⟨?_, ?_, fun past => ?_, fun offset past _ held => ?_⟩⟩
  · exact beside.next (sameRows.combine _ beside.same) (length_crossFed model other suffix _ _)
  · rw [beside.count]
    refine forwardLayer_joint_cross crosses start beside.positive long beside.view_joint ?_ ?_
      (beside.view_rows _ beside.long) ?_
    · rw [length_blockMask, beside.long]
    · exact fun row inside => (width_blockMask inside).trans beside.long.symm
    · rw [List.length_map, beside.long]
  · exact forwardLayer_fill past long' square fun row inside => (width_blockMask inside).trans beside.long'.symm
  · have keys : (entryAt model layer embs' ahead).keyStates.length = tokens.length :=
      (length_keysAt long').trans beside.long'
    rw [beside.count, crossFed_congr softmax beside.seen beside.same beside.flagsLong]
    exact forwardLayer_cached_cross crosses held offset beside.positive (beside.view_rows [] keys)
      ((List.length_map _).trans keys.symm)

theorem layerRuns (softmax : SoftmaxMasks model) {tokens behindTokens : Tokens}
    (beside : Beside tokens behindTokens ahead embs embs' suffix) (layer : Layer Scalar) (other : Option (Layer Scalar))
    (layerIdx : Nat) (start : Int) (paired : model.selfAttends layerIdx = true → other.isSome = true) :
    ∃ next next' after, LayerRuns model tokens behindTokens ahead [some layer, other] layerIdx start embs embs' suffix next
      next' after (expertCrosses model other layerIdx) (entryAt model layer embs' ahead) := by
  cases attends : model.selfAttends layerIdx with
  | true =>
    obtain ⟨expert, rfl⟩ := Option.isSome_iff_exists.mp (paired attends)
    have stays : expertCrosses model (some expert) layerIdx = false := by
      rw [expertCrosses, attends]
      rfl
    rw [stays]
    exact layerRuns_self softmax beside layer expert start attends
  | false =>
    have moves : expertCrosses model other layerIdx = other.isSome := by
      rw [expertCrosses, attends]
      exact Bool.true_and _
    rw [moves]
    exact layerRuns_cross softmax beside layer other start attends

/-! ### All layers -/

def startAt (model : VlmWithExpert Scalar Score) (offset : Int) (layerIdx : Nat) : Int :=
  startAfter ((List.range layerIdx).any fun before => expertCrosses model (model.expertLayer before) before) offset

theorem startAt_succ (offset : Int) (layerIdx : Nat) :
    startAt model offset (layerIdx + 1) =
      startAfter (expertCrosses model (model.expertLayer layerIdx) layerIdx) (startAt model offset layerIdx) := by
  rw [startAt, startAt, List.range_succ, List.any_append, List.any_cons, List.any_nil, Bool.or_false]
  cases (List.range layerIdx).any fun before => expertCrosses model (model.expertLayer before) before <;>
    cases expertCrosses model (model.expertLayer layerIdx) layerIdx <;> rfl

def layersFrom (model : VlmWithExpert Scalar Score) (layers : List (Layer Scalar)) (layerIdx : Nat) :
    List (List (Option (Layer Scalar))) :=
  (layers.zipIdx layerIdx).map fun layer => [some layer.1, model.expertLayer layer.2]

structure Runs (model : VlmWithExpert Scalar Score) (tokens behindTokens : Tokens) (ahead : List Int) (offset : Int)
    (layers : List (Layer Scalar)) (layerIdx : Nat) (embs embs' suffix next next' after : List (Vec Scalar))
    (past kept : Option (Cache Scalar)) : Prop where
  beside : Beside tokens behindTokens ahead next next' after
  joint : model.forwardLayers (jointMask tokens behindTokens) false false (layersFrom model layers layerIdx) layerIdx
      ⟨[some embs, some suffix], ahead ++ ramp (startAt model offset layerIdx) behindTokens.length, none⟩ =
    .ok ⟨[some next, some after],
      ahead ++ ramp (startAt model offset (layerIdx + layers.length)) behindTokens.length, none⟩
  fill : model.forwardLayers (blockMask tokens) true true (layersFrom model layers layerIdx) layerIdx
      ⟨[some embs', none], ahead, past⟩ = .ok ⟨[some next', none], ahead, kept⟩
  earlier : ∀ before < layerIdx, (kept.getD ∅).get? before = (past.getD ∅).get? before
  cached : (∀ index, layerIdx ≤ index → index < layerIdx + layers.length → model.selfAttends index = true →
      startAt model offset index = offset) →
    ∀ given : Option (Cache Scalar), (∀ index, layerIdx ≤ index → index < layerIdx + layers.length →
      (given.getD ∅).get? index = (kept.getD ∅).get? index) →
    ∃ last, model.forwardLayers (cachedMask tokens behindTokens) true false (layersFrom model layers layerIdx) layerIdx
        ⟨[none, some suffix], ramp offset behindTokens.length, given⟩ =
      .ok ⟨[none, some after], ramp offset behindTokens.length, last⟩

theorem runs (softmax : SoftmaxMasks model) {tokens behindTokens : Tokens} (offset : Int) (layers : List (Layer Scalar))
    {layerIdx : Nat} (beside : Beside tokens behindTokens ahead embs embs' suffix)
    (paired : ∀ index, layerIdx ≤ index → index < layerIdx + layers.length → model.selfAttends index = true →
      (model.expertLayer index).isSome = true) (past : Option (Cache Scalar)) :
    ∃ next next' after kept,
      Runs model tokens behindTokens ahead offset layers layerIdx embs embs' suffix next next' after past kept := by
  induction layers generalizing layerIdx embs embs' suffix past with
  | nil => exact ⟨embs, embs', suffix, past, beside, rfl, rfl, fun _ _ => rfl, fun _ given _ => ⟨given, rfl⟩⟩
  | cons layer rest ih =>
    have inside : ∀ index, layerIdx + 1 ≤ index → index < layerIdx + 1 + rest.length →
        layerIdx ≤ index ∧ index < layerIdx + (layer :: rest).length := by
      intro index low high
      rw [List.length_cons]
      omega
    have first : layerIdx < layerIdx + (layer :: rest).length := by
      rw [List.length_cons]
      omega
    -- One layer in the three runs; the layers after it are the hypothesis, with this layer in the cache.
    obtain ⟨next, next', after, step⟩ := layerRuns softmax beside layer (model.expertLayer layerIdx) layerIdx
      (startAt model offset layerIdx) (paired layerIdx (Nat.le_refl _) first)
    obtain ⟨last, last', final, kept, later⟩ := ih step.beside
      (fun index low high => paired index (inside index low high).1 (inside index low high).2)
      (some ((past.getD ∅).set layerIdx (entryAt model layer embs' ahead)))
    refine ⟨last, last', final, kept, later.beside, ?_, ?_, fun before low => ?_, fun agreed given held => ?_⟩
    · have whole : layerIdx + (layer :: rest).length = layerIdx + 1 + rest.length := by
        rw [List.length_cons]
        omega
      have joint := later.joint
      rw [startAt_succ] at joint
      change ((model.forwardLayer _ false false [some layer, model.expertLayer layerIdx] layerIdx _) >>= fun next =>
        model.forwardLayers _ false false (layersFrom model rest (layerIdx + 1)) (layerIdx + 1) next) = _
      rw [step.joint, whole]
      exact joint
    · change ((model.forwardLayer _ true true [some layer, model.expertLayer layerIdx] layerIdx _) >>= fun next =>
        model.forwardLayers _ true true (layersFrom model rest (layerIdx + 1)) (layerIdx + 1) next) = _
      rw [step.fill]
      exact later.fill
    · rw [later.earlier before (Nat.lt_succ_of_lt low)]
      exact Dict.get?_set_ne _ _ (Nat.ne_of_lt low)
    · have here : (given.getD ∅).get? layerIdx = some (entryAt model layer embs' ahead) := by
        rw [held layerIdx (Nat.le_refl _) first, later.earlier layerIdx (Nat.lt_succ_self _)]
        rw [Option.getD_some, Dict.get?_set, if_pos rfl]
      obtain ⟨left, ran⟩ := later.cached
        (fun index low high => agreed index (inside index low high).1 (inside index low high).2) (some (given.getD ∅))
        (fun index low high => held index (inside index low high).1 (inside index low high).2)
      refine ⟨left, ?_⟩
      change ((model.forwardLayer _ true false [some layer, model.expertLayer layerIdx] layerIdx _) >>= fun next =>
        model.forwardLayers _ true false (layersFrom model rest (layerIdx + 1)) (layerIdx + 1) next) = _
      rw [step.cached offset given (agreed layerIdx (Nat.le_refl _) first) here]
      exact ran

end PhysicalAiStudio.Policies.SmolVla
