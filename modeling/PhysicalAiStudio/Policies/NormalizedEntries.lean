import PhysicalAiStudio.Policies.Normalization

/-! Which entries of a batch the feature normalization transforms, and how often. -/

set_option autoImplicit false

namespace PhysicalAiStudio.Policies.Normalization
open Collections Strings

variable {T : Type} [TensorOps T]

/-- The features that the entry under a name was transformed for, in order. -/
def Pass.writesOf (pass : Pass T) (key : Text) : List Text :=
  (pass.writes.filter fun write => write.1 = key).map Prod.snd

/-- The feature that an entry denotes: the one of its name, else the only one that matches it. -/
def denotes (features : Dict Text (Feature T)) (key : Text) : Option (Text × Feature T) :=
  match features.get? key with
  | some ft => some (key, ft)
  | none =>
    match features.items.filter fun feature => Matches feature.1 key with
    | [feature] => some feature
    | _ => none

/-- The feature that an entry is to be transformed for; `None` and the entries of features left alone have none. -/
def toTransform (features : Dict Text (Feature T)) (normMap : Dict FeatureType NormalizationType) (key : Text)
    (value : Option T) : Option (Text × Feature T) :=
  value.bind fun _ => (denotes features key).filter fun feature => normMode normMap feature.2 ≠ .identity

/-- Each entry was transformed once, for the feature it denotes and by that feature's statistics and mode, or is as it was. -/
def Normalized (normMap : Dict FeatureType NormalizationType) (t : FeatureNormalizeTransform T) (eager : Bool)
    (batch : Dict Text (Option T)) (result : Pass T) : Prop :=
  ∀ key value, batch.get? key = some value →
    match toTransform t.features normMap key value with
    | none => result.writesOf key = [] ∧ result.batch.get? key = some value
    | some feature =>
      result.writesOf key = [feature.1] ∧
        ∃ given buffer outcome, value = some given ∧ t.buffersLookup.get? feature.1 = some buffer ∧
          transformed eager (normMode normMap feature.2) buffer t.inverse given = .ok (some outcome) ∧
          result.batch.get? key = some (some (masked buffer given outcome))

/-- Every feature that matches an entry has a type in the map, and is the one that the entry denotes if it would transform it. -/
def EachDenoted (features : Dict Text (Feature T)) (normMap : Dict FeatureType NormalizationType)
    (batch : Dict Text (Option T)) : Prop :=
  ∀ key value, batch.get? key = some value → ∀ feature ∈ features.items, Matches feature.1 key →
    (∃ mode, feature.2.ftype.bind normMap.get? = some mode) ∧
      (value ≠ none → normMode normMap feature.2 ≠ .identity → denotes features key = some feature)

/-! ### One visit -/

def Touches (normMap : Dict FeatureType NormalizationType) (key : Text) (value : Option T) (feature : Text × Feature T) :
    Prop :=
  Matches feature.1 key ∧ value.isSome ∧ normMode normMap feature.2 ≠ .identity

instance (normMap : Dict FeatureType NormalizationType) (key : Text) (value : Option T) (feature : Text × Feature T) :
    Decidable (Touches normMap key value feature) :=
  inferInstanceAs (Decidable (_ ∧ _ ∧ _))

def FeatureNormalizeTransform.outcome (t : FeatureNormalizeTransform T) (eager : Bool)
    (normMap : Dict FeatureType NormalizationType) (feature : Text × Feature T) (value : T) : T :=
  let buffer := (t.buffersLookup.get? feature.1).getD {}
  match transformed eager (normMode normMap feature.2) buffer t.inverse value with
  | .ok (some result) => masked buffer value result
  | _ => value

/-- What the constructor promises a pass over one feature. -/
structure Served (t : FeatureNormalizeTransform T) (eager : Bool) (normMap : Dict FeatureType NormalizationType)
    (feature : Text × Feature T) : Prop where
  modes : t.normMap.get? (strFtype feature.2) = feature.2.ftype.bind normMap.get?
  buffer : normMode normMap feature.2 ≠ .identity → ∀ value, ∃ buffer result,
    t.buffersLookup.get? feature.1 = some buffer ∧
      transformed eager (normMode normMap feature.2) buffer t.inverse value = .ok (some result)

theorem served_of_create {features : Dict Text (Feature T)} {normMap : Dict FeatureType NormalizationType}
    {inverse eager : Bool} {t : FeatureNormalizeTransform T} (made : create features normMap inverse = .ok t)
    (finite : t.Finite eager) {feature : Text × Feature T} (listed : feature ∈ features.items) :
    Served t eager normMap feature where
  modes := by
    obtain ⟨buffers, _, made⟩ := bind_ok made
    cases made
    exact lookup_strFtype normMap feature.2
  buffer := by
    intro normalized value
    obtain ⟨buffer, stored, serves⟩ := create_serves made listed normalized
    obtain ⟨result, ran⟩ := transformed_ok normalized serves (finite _ _ stored) value
    exact ⟨buffer, result, stored, ran⟩

structure Visited (t : FeatureNormalizeTransform T) (eager : Bool) (normMap : Dict FeatureType NormalizationType)
    (feature : Text × Feature T) (key : Text) (value : Option T) (pass next : Pass T) : Prop where
  others : ∀ other, other ≠ key →
    next.batch.get? other = pass.batch.get? other ∧ next.writesOf other = pass.writesOf other
  entry : next.batch.get? key =
    some (if Touches normMap key value feature then value.map (t.outcome eager normMap feature) else value)
  written : next.writesOf key =
    pass.writesOf key ++ if Touches normMap key value feature then [feature.1] else []

theorem visited_same {t : FeatureNormalizeTransform T} {eager : Bool} {normMap : Dict FeatureType NormalizationType}
    {feature : Text × Feature T} {key : Text} {value : Option T} {pass : Pass T}
    (held : pass.batch.get? key = some value) (untouched : ¬Touches normMap key value feature) :
    Visited t eager normMap feature key value pass pass where
  others := fun _ _ => ⟨rfl, rfl⟩
  entry := by rw [if_neg untouched, held]
  written := by rw [if_neg untouched, List.append_nil]

theorem visit_visited {t : FeatureNormalizeTransform T} {eager : Bool} {normMap : Dict FeatureType NormalizationType}
    {feature : Text × Feature T} {key : Text} {value : Option T} {pass : Pass T}
    (served : Served t eager normMap feature) (held : pass.batch.get? key = some value)
    (known : Matches feature.1 key → ∃ mode, feature.2.ftype.bind normMap.get? = some mode) :
    ∃ next, t.visit eager feature pass key = .ok next ∧ Visited t eager normMap feature key value pass next := by
  unfold FeatureNormalizeTransform.visit
  by_cases matching : Matches feature.1 key
  · obtain ⟨mode, listed⟩ := known matching
    have modeOf : normMode normMap feature.2 = mode := by rw [normMode, listed, Option.getD_some]
    simp only [if_pos matching, served.modes, listed, applyNormalization, held]
    cases value with
    | none =>
      have untouched : ¬Touches normMap key (none : Option T) feature := fun touches => absurd touches.2.1 (by simp)
      exact ⟨pass, rfl, visited_same held untouched⟩
    | some given =>
      -- An entry is touched when it matches, is given and is not under identity.
      by_cases identity : mode = .identity
      · subst identity
        have untouched : ¬Touches normMap key (some given) feature := fun touches => touches.2.2 modeOf
        exact ⟨pass, rfl, visited_same held untouched⟩
      · have normalized : normMode normMap feature.2 ≠ .identity := by rwa [modeOf]
        have touches : Touches normMap key (some given) feature := ⟨matching, rfl, normalized⟩
        obtain ⟨buffer, result, stored, ran⟩ := served.buffer normalized given
        rw [modeOf] at ran
        have outcome : t.outcome eager normMap feature given = masked buffer given result := by
          simp only [FeatureNormalizeTransform.outcome, stored, Option.getD_some, modeOf, ran]
        simp only [stored, Option.getD_some, ran, bind, Except.bind]
        refine ⟨_, rfl, ?_, ?_, ?_⟩
        · intro other apart
          refine ⟨Dict.get?_set_ne pass.batch _ apart, ?_⟩
          simp [Pass.writesOf, List.filter_append, Ne.symm apart]
        · rw [if_pos touches, Option.map_some, outcome]
          exact Dict.get?_set_self pass.batch key _
        · rw [if_pos touches]
          simp [Pass.writesOf, List.filter_append]
  · rw [if_neg matching]
    exact ⟨pass, rfl, visited_same held fun touches => matching touches.1⟩

/-! ### The loops -/

theorem keys_visited {t : FeatureNormalizeTransform T} {eager : Bool} {normMap : Dict FeatureType NormalizationType}
    {feature : Text × Feature T} (served : Served t eager normMap feature) {keys : List Text} (nodup : keys.Nodup)
    {pass : Pass T} (present : ∀ key ∈ keys, ∃ value, pass.batch.get? key = some value)
    (known : ∀ key ∈ keys, Matches feature.1 key → ∃ mode, feature.2.ftype.bind normMap.get? = some mode) :
    ∃ next, keys.foldlM (t.visit eager feature) pass = .ok next ∧
      (∀ key ∉ keys, next.batch.get? key = pass.batch.get? key ∧ next.writesOf key = pass.writesOf key) ∧
      ∀ key ∈ keys, ∀ value, pass.batch.get? key = some value →
        next.batch.get? key =
          some (if Touches normMap key value feature then value.map (t.outcome eager normMap feature) else value) ∧
        next.writesOf key = pass.writesOf key ++ if Touches normMap key value feature then [feature.1] else [] := by
  induction keys generalizing pass with
  | nil => exact ⟨pass, rfl, fun _ _ => ⟨rfl, rfl⟩, fun _ listed => absurd listed List.not_mem_nil⟩
  | cons key rest ih =>
    obtain ⟨fresh, nodup⟩ := List.nodup_cons.mp nodup
    obtain ⟨value, held⟩ := present key List.mem_cons_self
    obtain ⟨between, ran, visited⟩ := visit_visited served held (known key List.mem_cons_self)
    -- The keys differ, so a later visit leaves this entry alone.
    have apart : ∀ other ∈ rest, other ≠ key := fun other listed same => fresh (same ▸ listed)
    have later : ∀ other ∈ rest, ∃ value, between.batch.get? other = some value := by
      intro other listed
      rw [(visited.others other (apart other listed)).1]
      exact present other (List.mem_cons_of_mem key listed)
    obtain ⟨next, rested, kept, reached⟩ :=
      ih nodup later fun other listed => known other (List.mem_cons_of_mem key listed)
    refine ⟨next, ?_, ?_, ?_⟩
    · rw [List.foldlM_cons, ran]
      exact rested
    · intro other absent
      rw [List.mem_cons, not_or] at absent
      obtain ⟨sameEntry, sameWrites⟩ := kept other absent.2
      obtain ⟨firstEntry, firstWrites⟩ := visited.others other absent.1
      exact ⟨sameEntry.trans firstEntry, sameWrites.trans firstWrites⟩
    · intro other listed old before
      rcases List.mem_cons.mp listed with here | there
      · subst here
        cases Option.some.inj (before.symm.trans held)
        exact ⟨(kept other fresh).1.trans visited.entry, (kept other fresh).2.trans visited.written⟩
      · obtain ⟨firstEntry, firstWrites⟩ := visited.others other (apart other there)
        have reachedOther := reached other there old (firstEntry.trans before)
        rw [firstWrites] at reachedOther
        exact reachedOther

theorem touches_after {t : FeatureNormalizeTransform T} {eager : Bool} {normMap : Dict FeatureType NormalizationType}
    {feature : Text × Feature T} {key : Text} {value : Option T} (other : Text × Feature T) :
    Touches normMap key (if Touches normMap key value feature then value.map (t.outcome eager normMap feature) else value)
      other ↔ Touches normMap key value other := by
  split
  · simp only [Touches, Option.isSome_map]
  · rfl

def passed (t : FeatureNormalizeTransform T) (eager : Bool) (normMap : Dict FeatureType NormalizationType) (key : Text)
    (features : List (Text × Feature T)) (value : Option T) : Option T :=
  value.map fun given =>
    (features.filter fun feature => Touches normMap key value feature).foldl
      (fun given feature => t.outcome eager normMap feature given) given

theorem passed_cons {t : FeatureNormalizeTransform T} {eager : Bool} {normMap : Dict FeatureType NormalizationType}
    {key : Text} {feature : Text × Feature T} {rest : List (Text × Feature T)} {value : Option T} :
    passed t eager normMap key rest
        (if Touches normMap key value feature then value.map (t.outcome eager normMap feature) else value) =
      passed t eager normMap key (feature :: rest) value := by
  unfold passed
  simp only [touches_after]
  by_cases touches : Touches normMap key value feature
  · have first : ((feature :: rest).filter fun feature => Touches normMap key value feature) =
        feature :: rest.filter fun feature => Touches normMap key value feature :=
      List.filter_cons_of_pos (decide_eq_true touches)
    rw [if_pos touches, first, Option.map_map]
    rfl
  · simp [touches]

theorem features_visited {t : FeatureNormalizeTransform T} {eager : Bool} {normMap : Dict FeatureType NormalizationType}
    {features : List (Text × Feature T)} (served : ∀ feature ∈ features, Served t eager normMap feature)
    {keys : List Text} (nodup : keys.Nodup) {pass : Pass T}
    (present : ∀ key ∈ keys, ∃ value, pass.batch.get? key = some value)
    (known : ∀ feature ∈ features, ∀ key ∈ keys, Matches feature.1 key →
      ∃ mode, feature.2.ftype.bind normMap.get? = some mode) :
    ∃ next, features.foldlM (fun pass feature => keys.foldlM (t.visit eager feature) pass) pass = .ok next ∧
      ∀ key ∈ keys, ∀ value, pass.batch.get? key = some value →
        next.batch.get? key = some (passed t eager normMap key features value) ∧
        next.writesOf key =
          pass.writesOf key ++ (features.filter fun feature => Touches normMap key value feature).map Prod.fst := by
  induction features generalizing pass with
  | nil =>
    refine ⟨pass, rfl, ?_⟩
    intro key _ value held
    cases value <;> simp [passed, held]
  | cons feature rest ih =>
    obtain ⟨between, ran, _, reached⟩ := keys_visited (served feature List.mem_cons_self) nodup present
      (known feature List.mem_cons_self)
    have later : ∀ key ∈ keys, ∃ value, between.batch.get? key = some value := by
      intro key listed
      obtain ⟨value, held⟩ := present key listed
      exact ⟨_, (reached key listed value held).1⟩
    obtain ⟨next, rested, after⟩ := ih (fun other listed => served other (List.mem_cons_of_mem feature listed)) later
      (fun other listed => known other (List.mem_cons_of_mem feature listed))
    refine ⟨next, ?_, ?_⟩
    · rw [List.foldlM_cons, ran]
      exact rested
    · intro key listed value held
      obtain ⟨entry, written⟩ := reached key listed value held
      obtain ⟨lastEntry, lastWritten⟩ := after key listed _ entry
      refine ⟨lastEntry.trans (congrArg some passed_cons), ?_⟩
      rw [lastWritten, written, List.append_assoc]
      simp only [touches_after]
      by_cases touches : Touches normMap key value feature <;> simp [touches]

/-- A pass that returns has found a mode for every feature that matches an entry. -/
theorem foldlM_visited {ε σ α : Type} {f : σ → α → Except ε σ} {items : List α} {start result : σ}
    (ran : items.foldlM f start = .ok result) {item : α} (listed : item ∈ items) :
    ∃ before after, f before item = .ok after := by
  induction items generalizing start with
  | nil => cases listed
  | cons first rest ih =>
    rw [List.foldlM_cons] at ran
    obtain ⟨next, stepped, later⟩ := bind_ok ran
    rcases List.mem_cons.mp listed with here | there
    · subst here
      exact ⟨start, next, stepped⟩
    · exact ih later there

/-! ### Entries and the features they denote -/

omit [TensorOps T] in
theorem denotes_listed {features : Dict Text (Feature T)} {key : Text} {feature : Text × Feature T}
    (denoted : denotes features key = some feature) : feature ∈ features.items ∧ Matches feature.1 key := by
  unfold denotes at denoted
  split at denoted
  next ft found =>
    cases denoted
    exact ⟨Dict.mem_items.mpr found, Or.inl rfl⟩
  next =>
    split at denoted
    next only found =>
      cases denoted
      have listed : feature ∈ features.items.filter fun feature => Matches feature.1 key := by simp [found]
      simpa using listed
    next => cases denoted

omit [TensorOps T] in
theorem items_determined {features : Dict Text (Feature T)} {a b : Text × Feature T} (listedA : a ∈ features.items)
    (listedB : b ∈ features.items) (same : a.1 = b.1) : a = b := by
  obtain ⟨name, first⟩ := a
  obtain ⟨other, second⟩ := b
  cases same
  have stored := (Dict.mem_items.mp listedA).symm.trans (Dict.mem_items.mp listedB)
  cases Option.some.inj stored
  rfl

omit [TensorOps T] in
theorem touching_eq {features : Dict Text (Feature T)} {normMap : Dict FeatureType NormalizationType} {key : Text}
    {value : Option T}
    (denoted : ∀ feature ∈ features.items, Matches feature.1 key → value ≠ none →
      normMode normMap feature.2 ≠ .identity → denotes features key = some feature) :
    (features.items.filter fun feature => Touches normMap key value feature) =
      (toTransform features normMap key value).toList := by
  have nodup : (features.items.filter fun feature => Touches normMap key value feature).Nodup :=
    (List.Nodup.of_map _ features.items_keys_nodup).filter _
  -- A feature that touches the key is the denoted one, and the denoted one touches it.
  have sameMembers : ∀ feature, feature ∈ (features.items.filter fun feature => Touches normMap key value feature) ↔
      toTransform features normMap key value = some feature := by
    intro feature
    simp only [List.mem_filter, decide_eq_true_eq, toTransform, Option.bind_eq_some_iff, Option.filter_eq_some_iff]
    constructor
    · intro touching
      obtain ⟨listed, matching, given, normalized⟩ := touching
      obtain ⟨found, rfl⟩ := Option.isSome_iff_exists.mp given
      exact ⟨found, rfl, denoted feature listed matching (by simp) normalized, normalized⟩
    · intro chosen
      obtain ⟨found, rfl, chosen, normalized⟩ := chosen
      obtain ⟨listed, matching⟩ := denotes_listed chosen
      exact ⟨listed, matching, rfl, normalized⟩
  cases chosen : toTransform features normMap key value with
  | none =>
    rw [Option.toList_none, List.eq_nil_iff_forall_not_mem]
    intro feature member
    rw [sameMembers, chosen] at member
    cases member
  | some feature =>
    have only : ∀ other ∈ (features.items.filter fun feature => Touches normMap key value feature), other = feature := by
      intro other member
      rw [sameMembers, chosen] at member
      exact (Option.some.inj member).symm
    have member := (sameMembers feature).mpr chosen
    exact List.perm_singleton.mp ((List.perm_ext_iff_of_nodup nodup (List.nodup_singleton feature)).mpr fun other => by
      rw [List.mem_singleton]
      exact ⟨only other, fun same => same ▸ member⟩)

theorem create_fields {features : Dict Text (Feature T)} {normMap : Dict FeatureType NormalizationType} {inverse : Bool}
    {t : FeatureNormalizeTransform T} (made : create features normMap inverse = .ok t) :
    t.features = features ∧ t.normMap = normMap.mapKeys FeatureType.str ∧ t.inverse = inverse := by
  obtain ⟨buffers, _, made⟩ := bind_ok made
  cases made
  exact ⟨rfl, rfl, rfl⟩

omit [TensorOps T] in
theorem present_of_keys {batch : Dict Text (Option T)} {key : Text} (listed : key ∈ batch.keys) :
    ∃ value, batch.get? key = some value :=
  Dict.mem_iff_get?.mp (AList.mem_keys.mpr listed)

omit [TensorOps T] in
theorem keys_of_get? {batch : Dict Text (Option T)} {key : Text} {value : Option T} (held : batch.get? key = some value) :
    key ∈ batch.keys :=
  AList.mem_keys.mp (Dict.mem_iff_get?.mpr ⟨value, held⟩)

theorem known_of_forward {features : Dict Text (Feature T)} {normMap : Dict FeatureType NormalizationType}
    {inverse eager : Bool} {t : FeatureNormalizeTransform T} (made : create features normMap inverse = .ok t)
    {batch : Dict Text (Option T)} {result : Pass T} (ran : t.forward eager batch = .ok result) {key : Text}
    (present : key ∈ batch.keys) {feature : Text × Feature T} (listed : feature ∈ features.items)
    (matching : Matches feature.1 key) : ∃ mode, feature.2.ftype.bind normMap.get? = some mode := by
  obtain ⟨sameFeatures, sameMap, _⟩ := create_fields made
  unfold FeatureNormalizeTransform.forward at ran
  rw [sameFeatures] at ran
  obtain ⟨before, after, looped⟩ := foldlM_visited ran listed
  obtain ⟨start, next, visited⟩ := foldlM_visited looped present
  unfold FeatureNormalizeTransform.visit at visited
  rw [if_pos matching, sameMap, lookup_strFtype] at visited
  cases found : feature.2.ftype.bind normMap.get? with
  | some mode => exact ⟨mode, rfl⟩
  | none =>
    rw [found] at visited
    cases visited

theorem forward_visited {features : Dict Text (Feature T)} {normMap : Dict FeatureType NormalizationType}
    {inverse eager : Bool} {t : FeatureNormalizeTransform T} (made : create features normMap inverse = .ok t)
    (finite : t.Finite eager) {batch : Dict Text (Option T)}
    (known : ∀ feature ∈ features.items, ∀ key ∈ batch.keys, Matches feature.1 key →
      ∃ mode, feature.2.ftype.bind normMap.get? = some mode) :
    ∃ result, t.forward eager batch = .ok result ∧
      ∀ key value, batch.get? key = some value →
        result.batch.get? key = some (passed t eager normMap key features.items value) ∧
        result.writesOf key =
          (features.items.filter fun feature => Touches normMap key value feature).map Prod.fst := by
  obtain ⟨result, ran, reached⟩ := features_visited (fun feature listed => served_of_create made finite listed)
    batch.keys_nodup (show ∀ key ∈ batch.keys, ∃ value, (Pass.mk batch []).batch.get? key = some value from
      fun key listed => present_of_keys listed) known
  refine ⟨result, ?_, fun key value held => reached key (keys_of_get? held) value held⟩
  unfold FeatureNormalizeTransform.forward
  rw [(create_fields made).1]
  exact ran

/-- Both transforms of one configuration go over a batch and transform each entry once, for the feature it denotes,
exactly when every feature that matches an entry has a type in the map and none but the denoted one transforms it. -/
theorem forward_normalizes_iff {features : Dict Text (Feature T)} {normMap : Dict FeatureType NormalizationType}
    {transform : Bool → FeatureNormalizeTransform T} {eager : Bool}
    (made : ∀ inverse, create features normMap inverse = .ok (transform inverse))
    (finite : ∀ inverse, (transform inverse).Finite eager) (batch : Dict Text (Option T)) :
    (∀ inverse, ∃ result, (transform inverse).forward eager batch = .ok result ∧
      Normalized normMap (transform inverse) eager batch result) ↔ EachDenoted features normMap batch := by
  constructor
  · intro faithful key value held feature listed matching
    obtain ⟨result, ran, normalized⟩ := faithful false
    have known := fun feature listed key present => @known_of_forward _ _ _ _ _ _ _ (made false) _ _ ran key present
      feature listed
    refine ⟨known feature listed key (keys_of_get? held) matching, ?_⟩
    intro given normalizes
    obtain ⟨same, reran, reached⟩ := forward_visited (made false) (finite false) known
    cases reran.symm.trans ran
    obtain ⟨_, written⟩ := reached key value held
    have touches : Touches normMap key value feature :=
      ⟨matching, Option.isSome_iff_ne_none.mpr given, normalizes⟩
    -- The feature writes to the key, and a normalized key is written by the denoted one only.
    have recorded : feature.1 ∈ result.writesOf key := by
      rw [written]
      exact List.mem_map_of_mem (List.mem_filter.mpr ⟨listed, decide_eq_true touches⟩)
    have spec := normalized key value held
    rw [(create_fields (made false)).1] at spec
    cases chosen : toTransform features normMap key value with
    | none =>
      rw [chosen] at spec
      rw [spec.1] at recorded
      cases recorded
    | some denoted =>
      rw [chosen] at spec
      rw [spec.1, List.mem_singleton] at recorded
      simp only [toTransform, Option.bind_eq_some_iff, Option.filter_eq_some_iff] at chosen
      obtain ⟨_, _, found, _⟩ := chosen
      rw [found, items_determined listed (denotes_listed found).1 recorded]
  · intro condition inverse
    have known : ∀ feature ∈ features.items, ∀ key ∈ batch.keys, Matches feature.1 key →
        ∃ mode, feature.2.ftype.bind normMap.get? = some mode := by
      intro feature listed key present matching
      obtain ⟨value, held⟩ := present_of_keys present
      exact (condition key value held feature listed matching).1
    obtain ⟨result, ran, reached⟩ := forward_visited (made inverse) (finite inverse) known
    refine ⟨result, ran, ?_⟩
    intro key value held
    obtain ⟨entry, written⟩ := reached key value held
    have touching := @touching_eq _ _ normMap _ _ fun feature listed matching given normalizes =>
      (condition key value held feature listed matching).2 given normalizes
    rw [touching] at written
    rw [passed, touching] at entry
    rw [(create_fields (made inverse)).1]
    cases chosen : toTransform features normMap key value with
    | none =>
      rw [chosen] at entry written
      refine ⟨written, entry.trans ?_⟩
      cases value <;> rfl
    | some feature =>
      rw [chosen] at entry written
      simp only [toTransform, Option.bind_eq_some_iff, Option.filter_eq_some_iff, decide_eq_true_eq] at chosen
      obtain ⟨given, rfl, found, normalizes⟩ := chosen
      have served := served_of_create (made inverse) (finite inverse) (denotes_listed found).1
      obtain ⟨buffer, outcome, stored, transforms⟩ := served.buffer normalizes given
      refine ⟨written, given, buffer, outcome, rfl, stored, transforms, entry.trans ?_⟩
      simp only [Option.map_some, Option.toList_some, List.foldl_cons, List.foldl_nil,
        FeatureNormalizeTransform.outcome, stored, Option.getD_some, transforms]

/-! ### A tensor of one number -/

instance : TensorOps ℚ where
  scalar q := q
  anyInf _ := false
  isZero q := if q = 0 then 1 else 0
  select mask a b := if mask = 0 then b else a
  view shape q := if shape.prod = 1 then some q else none

def meanStdFeature (type : FeatureType) (mean std : ℚ) : Feature ℚ where
  normalizationData := some {
    mean := .array mean
    std := .array std
    min := .other "<class 'NoneType'>".toList
    max := .other "<class 'NoneType'>".toList
    q01 := .other "<class 'NoneType'>".toList
    q99 := .other "<class 'NoneType'>".toList
    mask := none }
  ftype := some type
  shape := some [1]

def stateKey : Text := "observation.state".toList

def stateMap : Dict FeatureType NormalizationType := (∅ : Dict _ _).set .state .meanStd

def stateBuffer : Buffer ℚ := { mean := some 1, std := some 2 }

def stateTransform (inverse : Bool) : FeatureNormalizeTransform ℚ where
  features := (∅ : Dict _ _).set stateKey (meanStdFeature .state 1 2)
  normMap := stateMap.mapKeys FeatureType.str
  inverse := inverse
  buffersLookup := (∅ : Dict _ _).set stateKey stateBuffer

def stateBatch : Dict Text (Option ℚ) := ((∅ : Dict _ _).set stateKey (some 3)).set "task".toList none

theorem state_normalized_once :
    ∃ result, (stateTransform false).forward true stateBatch = .ok result ∧
      Normalized stateMap (stateTransform false) true stateBatch result := by
  have denoted : EachDenoted ((∅ : Dict _ _).set stateKey (meanStdFeature .state 1 2)) stateMap stateBatch := by
    intro key value held feature listed matching
    cases List.mem_singleton.mp listed
    refine ⟨⟨.meanStd, rfl⟩, fun given _ => ?_⟩
    by_cases same : key = stateKey
    · subst same
      rfl
    · rw [stateBatch, Dict.get?_set] at held
      split at held
      · exact absurd (Option.some.inj held).symm given
      · rw [Dict.get?_set_ne _ _ same] at held
        cases held
  exact (forward_normalizes_iff (fun inverse => by cases inverse <;> rfl)
    (fun _ _ _ _ _ _ => rfl) stateBatch).mpr denoted false

def twoStates : Dict Text (Feature ℚ) :=
  ((∅ : Dict _ _).set stateKey (meanStdFeature .state 1 2)).set "state".toList (meanStdFeature .state 1 2)

def twoStatesTransform (inverse : Bool) : FeatureNormalizeTransform ℚ where
  features := twoStates
  normMap := stateMap.mapKeys FeatureType.str
  inverse := inverse
  buffersLookup := ((∅ : Dict _ _).set stateKey stateBuffer).set "state".toList stateBuffer

def envFeatures : Dict Text (Feature ℚ) := (∅ : Dict _ _).set stateKey (meanStdFeature .env 1 2)

def envTransform (inverse : Bool) : FeatureNormalizeTransform ℚ where
  features := envFeatures
  normMap := stateMap.mapKeys FeatureType.str
  inverse := inverse
  buffersLookup := ∅

/-- The entry of the full name is transformed for both features; the entry of a type without a mode raises. -/
theorem state_normalized_twice :
    (create twoStates stateMap false = .ok (twoStatesTransform false) ∧
      ¬∃ result, (twoStatesTransform false).forward true stateBatch = .ok result ∧
        Normalized stateMap (twoStatesTransform false) true stateBatch result) ∧
    create envFeatures stateMap false = .ok (envTransform false) ∧
      (envTransform false).forward true stateBatch = .error (.keyError "ENV".toList) := by
  refine ⟨⟨rfl, ?_⟩, rfl, rfl⟩
  intro faithful
  obtain ⟨result, ran, normalized⟩ := faithful
  have twice : result.writesOf stateKey = [stateKey, "state".toList] := by
    cases ran
    rfl
  have chosen : toTransform (twoStatesTransform false).features stateMap stateKey (some 3) =
      some (stateKey, meanStdFeature .state 1 2) := rfl
  have once := normalized stateKey (some 3) rfl
  rw [chosen, twice] at once
  exact absurd once.1 (by decide)

end PhysicalAiStudio.Policies.Normalization
