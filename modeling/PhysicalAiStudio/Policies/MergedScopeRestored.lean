import PhysicalAiStudio.Policies.MergedScope

/-! What the scope of the merged adapters leaves of the network. -/

set_option autoImplicit false

namespace PhysicalAiStudio.Policies.MergedScope
open Collections

variable {Module Name Param Adapter Value : Type}

/-! ### The tuner layers -/

section
variable [DecidableEq Module]

theorem mem_namedChildren {child : Module × Name → Option Module} {parent : Module} {names : List Name}
    {memo : List Module} {entry : Name × Module} (member : entry ∈ namedChildren child parent names memo) :
    child (parent, entry.1) = some entry.2 := by
  induction names generalizing memo with
  | nil => cases member
  | cons name names ih =>
      rw [namedChildren] at member
      split at member
      next => exact ih member
      next module there =>
        split at member
        next => exact ih member
        next =>
          rcases List.mem_cons.mp member with same | later
          · rw [same]
            exact there
          · exact ih later

theorem namedChildren_sublist (child : Module × Name → Option Module) (parent : Module) (names : List Name)
    (memo : List Module) : ((namedChildren child parent names memo).map Prod.fst).Sublist names := by
  induction names generalizing memo with
  | nil => exact List.Sublist.refl _
  | cons name names ih =>
      rw [namedChildren]
      split
      next => exact (ih memo).cons name
      next module there =>
        split
        next => exact (ih memo).cons name
        next => exact (ih (module :: memo)).cons_cons name

variable (net : Network Module Name Param Adapter Value) (state : State Module Name Param Adapter Value)

theorem mem_iterTunerLayers {layer : Layer Module Name} (member : layer ∈ net.iterTunerLayers state) :
    state.child layer.place = some layer.child ∧ net.isTuner layer.child = true := by
  obtain ⟨parent, -, inside⟩ := List.mem_flatMap.mp member
  obtain ⟨entry, kept, same⟩ := List.mem_map.mp inside
  obtain ⟨listed, tuner⟩ := List.mem_filter.mp kept
  subst same
  exact ⟨mem_namedChildren listed, tuner⟩

theorem places_nodup : ((net.iterTunerLayers state).map Layer.place).Nodup := by
  rw [Network.iterTunerLayers, List.map_flatMap, List.nodup_flatMap]
  constructor
  · intro parent _
    rw [List.map_map]
    have distinct : ((namedChildren state.child parent (net.attributes parent) []).map Prod.fst).Nodup :=
      (net.attributes_nodup parent).sublist (namedChildren_sublist _ _ _ _)
    have kept := (distinct.of_map _).filter fun entry => net.isTuner entry.2
    apply kept.map_on
    intro first firstMember second secondMember same
    have names : first.1 = second.1 := congrArg Prod.snd same
    exact List.inj_on_of_nodup_map distinct (List.mem_of_mem_filter firstMember)
      (List.mem_of_mem_filter secondMember) names
  · apply (net.modules_nodup state.child).imp
    intro first second different
    apply List.disjoint_left.mpr
    intro place inFirst inSecond
    simp only [List.map_map, List.mem_map] at inFirst inSecond
    obtain ⟨one, -, here⟩ := inFirst
    obtain ⟨other, -, there⟩ := inSecond
    have same : first = second := congrArg Prod.fst (here.trans there.symm)
    exact different same

end

/-! ### Entering -/

section
variable [DecidableEq Module] [DecidableEq Name] (net : Network Module Name Param Adapter Value)

def Network.snapshots (net : Network Module Name Param Adapter Value) (tensors : Tensors Module Param Adapter Value) :
    List (Layer Module Name) → List (List (Param × Value))
  | [] => []
  | layer :: layers => net.snapshot layer tensors :: net.snapshots (net.merge layer.child tensors) layers

/-- A place where no layer stands keeps its module, whether a layer raises or not. -/
theorem enter_elsewhere (raises : Layer Module Name → Option Stage) (layers : List (Layer Module Name))
    (state : State Module Name Param Adapter Value) {place : Module × Name}
    (elsewhere : place ∉ layers.map Layer.place) :
    (net.enter raises layers state).1.child place = state.child place := by
  induction layers generalizing state with
  | nil => rfl
  | cons layer layers ih =>
      rw [List.map_cons, List.mem_cons, not_or] at elsewhere
      simp only [Network.enter]
      split
      next => rfl
      next => rfl
      next => rfl
      next =>
        rw [ih _ elsewhere.2]
        exact Function.update_of_ne elsewhere.1 _ _

theorem enter_raised (raises : Layer Module Name → Option Stage) (layers : List (Layer Module Name))
    (state : State Module Name Param Adapter Value) {layer : Layer Module Name} (member : layer ∈ layers)
    (fault : raises layer ≠ none) : (net.enter raises layers state).2 = none := by
  induction layers generalizing state with
  | nil => cases member
  | cons first layers ih =>
      simp only [Network.enter]
      split
      next => rfl
      next => rfl
      next => rfl
      next calm =>
        rcases List.mem_cons.mp member with same | later
        · rw [same] at fault
          exact absurd calm fault
        · rw [ih _ later]
          rfl

theorem enter_completes (raises : Layer Module Name → Option Stage) (layers : List (Layer Module Name))
    (state : State Module Name Param Adapter Value) (calm : ∀ layer ∈ layers, raises layer = none) :
    net.enter raises layers state =
      ({ child := writeAll state.child
          (layers.map fun layer => (layer.place, some (net.getBaseLayer layer.child)))
         tensors := net.mergedBy layers state.tensors },
        some (net.snapshots state.tensors layers)) := by
  induction layers generalizing state with
  | nil => rfl
  | cons layer layers ih =>
      have later : ∀ other ∈ layers, raises other = none := fun other member =>
        calm other (List.mem_cons_of_mem _ member)
      simp only [Network.enter, calm layer List.mem_cons_self, ih _ later]
      rfl

end

/-! ### Leaving -/

section
variable [DecidableEq Module] [DecidableEq Name] [DecidableEq Param]

def Step.attaches {Saved : Type} : Step Module Name Param Saved → Option ((Module × Name) × Option Module)
  | .setattr layer => some (layer.place, some layer.child)
  | _ => none

def Step.clears {Saved : Type} : Step Module Name Param Saved → Option (Module × List Adapter)
  | .clear child => some (child, [])
  | _ => none

def Step.fill {Saved : Type} (compute : Param → Saved → Value) :
    Step Module Name Param Saved → Step Module Name Param Value
  | .setattr layer => .setattr layer
  | .copy param saved => .copy param (compute param saved)
  | .clear child => .clear child

theorem perform_all (steps : List (Step Module Name Param Value)) (state : State Module Name Param Adapter Value) :
    steps.foldl Step.perform state =
      { child := writeAll state.child (steps.filterMap Step.attaches)
        tensors :=
          { weight := writeAll state.tensors.weight (steps.filterMap Step.copies)
            mergedAdapters := writeAll state.tensors.mergedAdapters (steps.filterMap Step.clears) } } := by
  induction steps generalizing state with
  | nil => rfl
  | cons step steps ih =>
      rw [List.foldl_cons, ih]
      cases step <;> rfl

variable {Saved : Type} (compute : Param → Saved → Value)

omit [DecidableEq Module] [DecidableEq Name] [DecidableEq Param] in
theorem attaches_fill (steps : List (Step Module Name Param Saved)) :
    (steps.map (Step.fill compute)).filterMap Step.attaches = steps.filterMap Step.attaches := by
  rw [List.filterMap_map]
  apply List.filterMap_congr
  intro step _
  cases step <;> rfl

omit [DecidableEq Module] [DecidableEq Name] [DecidableEq Param] in
theorem clears_fill (steps : List (Step Module Name Param Saved)) :
    (steps.map (Step.fill compute)).filterMap (@Step.clears Module Name Param Adapter Value) =
      steps.filterMap (@Step.clears Module Name Param Adapter Saved) := by
  rw [List.filterMap_map]
  apply List.filterMap_congr
  intro step _
  cases step <;> rfl

omit [DecidableEq Module] [DecidableEq Name] [DecidableEq Param] in
theorem copies_fill (steps : List (Step Module Name Param Saved)) :
    (steps.map (Step.fill compute)).filterMap Step.copies =
      (steps.filterMap Step.copies).map fun entry => (entry.1, compute entry.1 entry.2) := by
  rw [List.filterMap_map, List.map_filterMap]
  apply List.filterMap_congr
  intro step _
  cases step <;> rfl

end

section
variable (net : Network Module Name Param Adapter Value)

theorem mergedBy_append (layers : List (Layer Module Name)) (layer : Layer Module Name)
    (tensors : Tensors Module Param Adapter Value) :
    net.mergedBy (layers ++ [layer]) tensors = net.merge layer.child (net.mergedBy layers tensors) := by
  rw [Network.mergedBy, List.foldl_append]
  rfl

/-- The restoring loop copies, of every parameter, what it was after the layers merged before. -/
theorem restore_snapshots (earlier layers : List (Layer Module Name)) (tensors : Tensors Module Param Adapter Value) :
    (layers.zip (net.snapshots (net.mergedBy earlier tensors) layers)).flatMap restore =
      (net.restoring earlier layers).map
        (Step.fill fun param merged => (net.mergedBy merged tensors).weight param) := by
  induction layers generalizing earlier with
  | nil => rfl
  | cons layer layers ih =>
      rw [Network.snapshots, List.zip_cons_cons, List.flatMap_cons, ← mergedBy_append, ih, Network.restoring,
        List.map_append]
      congr 1
      simp [restore, Network.snapshot, Step.fill, List.map_map, Function.comp_def]

theorem performed_map {First Second : Type} (raises : Option Nat) (change : First → Second) (steps : List First) :
    performed raises (steps.map change) = (performed raises steps).map change := by
  cases raises with
  | none => rfl
  | some count => exact List.map_take.symm

theorem performed_subset {α : Type} (raises : Option Nat) (steps : List α) : performed raises steps ⊆ steps := by
  cases raises with
  | none => exact List.Subset.refl _
  | some count => exact List.take_subset _ _

/-- What a statement of the restoring loop is about. -/
def Network.About (layer : Layer Module Name) : Step Module Name Param (List (Layer Module Name)) → Prop
  | .setattr other => other = layer
  | .copy param _ => param ∈ net.parameters (net.getBaseLayer layer.child)
  | .clear child => child = layer.child

theorem mem_restoring {earlier layers : List (Layer Module Name)}
    {step : Step Module Name Param (List (Layer Module Name))} (member : step ∈ net.restoring earlier layers) :
    ∃ layer ∈ layers, net.About layer step := by
  induction layers generalizing earlier with
  | nil => cases member
  | cons first layers ih =>
      rw [Network.restoring] at member
      simp only [List.mem_append, List.mem_cons, List.mem_map, List.not_mem_nil, or_false] at member
      rcases member with ((attached | ⟨param, listed, copied⟩) | cleared) | later
      · subst attached
        exact ⟨first, List.mem_cons_self, rfl⟩
      · subst copied
        exact ⟨first, List.mem_cons_self, listed⟩
      · subst cleared
        exact ⟨first, List.mem_cons_self, rfl⟩
      · obtain ⟨layer, inside, about⟩ := ih later
        exact ⟨layer, List.mem_cons_of_mem _ inside, about⟩

end

/-! ### The three memories after the loop -/

section
variable {net : Network Module Name Param Adapter Value}
  {layers : List (Layer Module Name)} {tensors : Tensors Module Param Adapter Value}
  {steps : List (Step Module Name Param (List (Layer Module Name)))}

theorem mergedBy_weight {param : Param}
    (apart : ∀ layer ∈ layers, param ∉ net.parameters (net.getBaseLayer layer.child)) :
    (net.mergedBy layers tensors).weight param = tensors.weight param := by
  induction layers generalizing tensors with
  | nil => rfl
  | cons layer layers ih =>
      have later : (net.mergedBy layers (net.merge layer.child tensors)).weight param =
          (net.merge layer.child tensors).weight param :=
        ih fun other member => apart other (List.mem_cons_of_mem _ member)
      exact later.trans (net.merge_weight _ _ _ (apart layer List.mem_cons_self))

theorem mergedBy_record {child : Module} (apart : ∀ layer ∈ layers, layer.child ≠ child) :
    (net.mergedBy layers tensors).mergedAdapters child = tensors.mergedAdapters child := by
  induction layers generalizing tensors with
  | nil => rfl
  | cons layer layers ih =>
      have later : (net.mergedBy layers (net.merge layer.child tensors)).mergedAdapters child =
          (net.merge layer.child tensors).mergedAdapters child :=
        ih fun other member => apart other (List.mem_cons_of_mem _ member)
      exact later.trans (net.merge_record _ _ _ (apart layer List.mem_cons_self).symm)

theorem attaches_place {place : Module × Name} :
    place ∈ (steps.filterMap Step.attaches).map Prod.fst ↔
      ∃ layer : Layer Module Name, .setattr layer ∈ steps ∧ layer.place = place := by
  simp only [List.mem_map, List.mem_filterMap]
  constructor
  · rintro ⟨entry, ⟨step, member, attached⟩, here⟩
    cases step with
    | setattr layer =>
        cases attached
        exact ⟨layer, member, here⟩
    | copy param saved => cases attached
    | clear child => cases attached
  · rintro ⟨layer, member, here⟩
    exact ⟨(layer.place, some layer.child), ⟨.setattr layer, member, rfl⟩, here⟩

theorem attaches_value {write : (Module × Name) × Option Module} (member : write ∈ steps.filterMap Step.attaches) :
    ∃ layer : Layer Module Name, .setattr layer ∈ steps ∧ write = (layer.place, some layer.child) := by
  obtain ⟨step, inside, attached⟩ := List.mem_filterMap.mp member
  cases step with
  | setattr layer =>
      cases attached
      exact ⟨layer, inside, rfl⟩
  | copy param saved => cases attached
  | clear child => cases attached

variable [DecidableEq Module] [DecidableEq Name] [DecidableEq Param]
variable (inside : ∀ step ∈ steps, ∃ layer ∈ layers, net.About layer step)
include inside

omit [DecidableEq Param] in
theorem children_back_iff {child : Module × Name → Option Module} (places : (layers.map Layer.place).Nodup)
    (attached : ∀ layer ∈ layers, child layer.place = some layer.child ∧ net.isTuner layer.child = true) :
    writeAll (writeAll child (layers.map fun layer => (layer.place, some (net.getBaseLayer layer.child))))
        (steps.filterMap Step.attaches) = child ↔
      ∀ layer ∈ layers, .setattr layer ∈ steps := by
  have only : ∀ {layer other : Layer Module Name}, layer ∈ layers → .setattr other ∈ steps →
      other.place = layer.place → other = layer := by
    intro layer other member performed same
    obtain ⟨listed, listedMember, about⟩ := inside _ performed
    have here : listed = other := about.symm
    rw [here] at listedMember
    exact List.inj_on_of_nodup_map places listedMember member same
  constructor
  · intro back layer member
    by_contra missing
    have held := congrFun back layer.place
    have untouched : lastWrite (steps.filterMap Step.attaches) layer.place = none := by
      rw [lastWrite_eq_none, attaches_place]
      rintro ⟨other, performed, same⟩
      rw [only member performed same] at performed
      exact missing performed
    have swapped : lastWrite (layers.map fun other => (other.place, some (net.getBaseLayer other.child)))
        layer.place = some (some (net.getBaseLayer layer.child)) := by
      apply lastWrite_of_forall
      · rw [List.map_map]
        exact List.mem_map_of_mem member
      · intro write written same
        obtain ⟨other, otherMember, rfl⟩ := List.mem_map.mp written
        rw [List.inj_on_of_nodup_map places otherMember member same]
    rw [writeAll_apply, untouched, Option.getD_none, writeAll_apply, swapped, Option.getD_some,
      (attached layer member).1] at held
    -- A base layer is no wrapper.
    have plain := net.base_plain layer.child (attached layer member).2
    rw [Option.some.inj held, (attached layer member).2] at plain
    cases plain
  · intro all
    funext place
    rw [writeAll_apply]
    by_cases there : ∃ layer ∈ layers, layer.place = place
    · obtain ⟨layer, member, rfl⟩ := there
      have last : lastWrite (steps.filterMap Step.attaches) layer.place = some (some layer.child) := by
        apply lastWrite_of_forall
        · exact attaches_place.mpr ⟨layer, all layer member, rfl⟩
        · intro write written same
          obtain ⟨other, performed, rfl⟩ := attaches_value written
          rw [only member performed same]
      rw [last, Option.getD_some, (attached layer member).1]
    · have unattached : lastWrite (steps.filterMap Step.attaches) place = none := by
        rw [lastWrite_eq_none, attaches_place]
        rintro ⟨layer, performed, here⟩
        obtain ⟨listed, member, about⟩ := inside _ performed
        have same : listed = layer := about.symm
        exact there ⟨listed, member, same ▸ here⟩
      rw [unattached, Option.getD_none, writeAll_apply]
      have unswapped : lastWrite (layers.map fun layer => (layer.place, some (net.getBaseLayer layer.child)))
          place = none := by
        rw [lastWrite_eq_none, List.map_map, List.mem_map]
        exact there
      rw [unswapped, Option.getD_none]

omit [DecidableEq Module] [DecidableEq Name] in
theorem weights_back_iff :
    writeAll (net.mergedBy layers tensors).weight ((steps.filterMap Step.copies).map fun entry =>
        (entry.1, (net.mergedBy entry.2 tensors).weight entry.1)) = tensors.weight ↔
      ∀ layer ∈ layers, ∀ param ∈ net.parameters (net.getBaseLayer layer.child),
        (net.mergedBy ((lastWrite (steps.filterMap Step.copies) param).getD layers) tensors).weight param =
          tensors.weight param := by
  have value : ∀ param, writeAll (net.mergedBy layers tensors).weight ((steps.filterMap Step.copies).map fun entry =>
      (entry.1, (net.mergedBy entry.2 tensors).weight entry.1)) param =
        (net.mergedBy ((lastWrite (steps.filterMap Step.copies) param).getD layers) tensors).weight param := by
    intro param
    rw [writeAll_apply, lastWrite_map (steps.filterMap Step.copies)
      fun place merged => (net.mergedBy merged tensors).weight place]
    cases lastWrite (steps.filterMap Step.copies) param with
    | none => rfl
    | some merged => rfl
  constructor
  · intro back layer _ param _
    rw [← value, back]
  · intro kept
    funext param
    rw [value]
    -- A parameter of no layer is neither copied nor merged.
    by_cases there : ∃ layer ∈ layers, param ∈ net.parameters (net.getBaseLayer layer.child)
    · obtain ⟨layer, member, listed⟩ := there
      exact kept layer member param listed
    · have uncopied : lastWrite (steps.filterMap Step.copies) param = none := by
        rw [lastWrite_eq_none, List.mem_map]
        rintro ⟨entry, copied, rfl⟩
        obtain ⟨step, performed, same⟩ := List.mem_filterMap.mp copied
        obtain ⟨layer, member, about⟩ := inside step performed
        cases step with
        | setattr other => cases same
        | copy copiedParam saved =>
            cases same
            exact there ⟨layer, member, about⟩
        | clear child => cases same
      rw [uncopied, Option.getD_none]
      exact mergedBy_weight fun layer member listed => there ⟨layer, member, listed⟩

omit [DecidableEq Name] [DecidableEq Param] in
theorem records_back_iff :
    writeAll (net.mergedBy layers tensors).mergedAdapters (steps.filterMap Step.clears) = tensors.mergedAdapters ↔
      (∀ layer ∈ layers, .clear layer.child ∈ steps → tensors.mergedAdapters layer.child = []) ∧
        ∀ layer ∈ layers, .clear layer.child ∉ steps →
          (net.mergedBy layers tensors).mergedAdapters layer.child = tensors.mergedAdapters layer.child := by
  -- A record the exit clears ends up empty, one it does not touch stays as the merge left it.
  have cleared : ∀ {child : Module}, .clear child ∈ steps →
      lastWrite (steps.filterMap (@Step.clears Module Name Param Adapter (List (Layer Module Name)))) child =
        some [] := by
    intro child performed
    apply lastWrite_of_forall
    · exact List.mem_map.mpr ⟨(child, []), List.mem_filterMap.mpr ⟨.clear child, performed, rfl⟩, rfl⟩
    · intro write written _
      obtain ⟨step, _, same⟩ := List.mem_filterMap.mp written
      cases step <;> cases same
      rfl
  have uncleared : ∀ {child : Module}, .clear child ∉ steps →
      lastWrite (steps.filterMap (@Step.clears Module Name Param Adapter (List (Layer Module Name)))) child = none := by
    intro child missing
    rw [lastWrite_eq_none, List.mem_map]
    rintro ⟨write, written, rfl⟩
    obtain ⟨step, performed, same⟩ := List.mem_filterMap.mp written
    cases step <;> cases same
    exact missing performed
  constructor
  · intro back
    constructor
    · intro layer _ performed
      have held := congrFun back layer.child
      rw [writeAll_apply, cleared performed, Option.getD_some] at held
      exact held.symm
    · intro layer _ missing
      have held := congrFun back layer.child
      rw [writeAll_apply, uncleared missing, Option.getD_none] at held
      exact held
  · intro kept
    funext child
    rw [writeAll_apply]
    by_cases there : ∃ layer ∈ layers, layer.child = child
    · obtain ⟨layer, member, rfl⟩ := there
      by_cases performed : .clear layer.child ∈ steps
      · rw [cleared performed, Option.getD_some, kept.1 layer member performed]
      · rw [uncleared performed, Option.getD_none, kept.2 layer member performed]
    · have missing : .clear child ∉ steps := by
        intro performed
        obtain ⟨layer, member, about⟩ := inside _ performed
        have same : child = layer.child := about
        exact there ⟨layer, member, same.symm⟩
      rw [uncleared missing, Option.getD_none]
      exact mergedBy_record fun layer member same => there ⟨layer, member, same⟩

end

/-! ### The scope -/

section
variable [DecidableEq Module] [DecidableEq Name] [DecidableEq Param] {net : Network Module Name Param Adapter Value}
  {layers : List (Layer Module Name)} {state : State Module Name Param Adapter Value}

theorem left_eq_iff (raises : Option Nat) (places : (layers.map Layer.place).Nodup)
    (attached : ∀ layer ∈ layers, state.child layer.place = some layer.child ∧ net.isTuner layer.child = true) :
    (performed raises ((layers.zip (net.snapshots state.tensors layers)).flatMap restore)).foldl Step.perform
        { child := writeAll state.child
            (layers.map fun layer => (layer.place, some (net.getBaseLayer layer.child)))
          tensors := net.mergedBy layers state.tensors } = state ↔
      net.Restores layers state.tensors (performed raises (net.restoring [] layers)) := by
  have filled := restore_snapshots net [] layers state.tensors
  have start : net.mergedBy [] state.tensors = state.tensors := rfl
  rw [start] at filled
  have inside : ∀ step ∈ performed raises (net.restoring [] layers), ∃ layer ∈ layers, net.About layer step :=
    fun step member => mem_restoring net (performed_subset raises _ member)
  rw [filled, performed_map, perform_all, attaches_fill, copies_fill, clears_fill, State.ext_iff, Tensors.ext_iff]
  simp only
  rw [children_back_iff inside places attached, weights_back_iff inside, records_back_iff inside]
  constructor
  · intro back
    exact ⟨back.1, back.2.1, back.2.2.1, back.2.2.2⟩
  · intro restores
    exact ⟨restores.reattached, restores.copied, restores.cleared, restores.uncleared⟩

omit [DecidableEq Param] in
theorem first_swapped {raises : Layer Module Name → Option Stage} {first : Layer Module Name}
    (places : ((first :: layers).map Layer.place).Nodup) (calm : raises first = none) :
    (net.enter raises (first :: layers) state).1.child first.place = some (net.getBaseLayer first.child) := by
  have elsewhere : first.place ∉ layers.map Layer.place := (List.nodup_cons.mp places).1
  simp only [Network.enter, calm]
  rw [enter_elsewhere net raises layers _ elsewhere]
  exact Function.update_self _ _ _

theorem left_unchanged_iff (net : Network Module Name Param Adapter Value)
    (faults : Faults Module Name Param Adapter Value) (state : State Module Name Param Adapter Value) :
    (net.mergedLoraScope faults state).1 = state ↔
      net.LeavesNoTrace faults state.tensors (net.iterTunerLayers state) := by
  have places := places_nodup net state
  have attached : ∀ layer ∈ net.iterTunerLayers state, _ := fun layer => mem_iterTunerLayers net state
  rw [Network.mergedLoraScope]
  revert places attached
  cases net.iterTunerLayers state with
  | nil =>
      intro _ _
      simp [Network.LeavesNoTrace]
  | cons first layers =>
      intro places attached
      cases stage : faults.entering first with
      | some stage' =>
          -- The first layer raises: whatever is done has been done by its merge.
          cases stage' with
          | snapshot => simp [Network.enter, Network.LeavesNoTrace, stage]
          | merge => simp [Network.enter, Network.LeavesNoTrace, stage, State.ext_iff]
          | swap => simp [Network.enter, Network.LeavesNoTrace, stage, State.ext_iff]
      | none =>
          simp only [Network.LeavesNoTrace, stage, List.isEmpty_cons, Bool.false_eq_true, if_false]
          by_cases calm : ∀ layer ∈ layers, faults.entering layer = none
          · have all : ∀ layer ∈ first :: layers, faults.entering layer = none := by
              intro layer member
              rcases List.mem_cons.mp member with same | later
              · rw [same]
                exact stage
              · exact calm layer later
            rw [enter_completes net faults.entering (first :: layers) state all]
            simp only [and_iff_right calm]
            exact left_eq_iff faults.leaving places attached
          · have raised : (net.enter faults.entering (first :: layers) state).2 = none := by
              push Not at calm
              obtain ⟨layer, member, fault⟩ := calm
              exact enter_raised net faults.entering _ state (List.mem_cons_of_mem _ member) fault
            have swapped := @first_swapped Module Name Param Adapter Value _ _ net layers state faults.entering first
              places stage
            constructor
            · intro same
              split at same
              next left entered =>
                rw [entered] at swapped
                simp only at same
                rw [same, (attached first List.mem_cons_self).1] at swapped
                have plain := net.base_plain first.child (attached first List.mem_cons_self).2
                rw [← Option.some.inj swapped, (attached first List.mem_cons_self).2] at plain
                cases plain
              next merged snapshots entered =>
                rw [entered] at raised
                cases raised
            · intro kept
              exact absurd kept.1 calm

omit [DecidableEq Name] [DecidableEq Param] in
theorem promised_iff {before after : State Module Name Param Adapter Value}
    (layers : ∀ layer ∈ net.iterTunerLayers before, before.child layer.place = some layer.child) :
    net.Promised before after ↔ after = before := by
  constructor
  · intro promised
    exact promised.same_function _ id
  · intro same
    subst same
    exact ⟨layers, fun _ _ _ _ => rfl, fun _ _ => rfl, fun _ _ => rfl⟩

end

/-! ### Layers that share nothing -/

section
variable {net : Network Module Name Param Adapter Value}

theorem restoring_complete {earlier layers : List (Layer Module Name)} {layer : Layer Module Name}
    (member : layer ∈ layers) :
    .setattr layer ∈ net.restoring earlier layers ∧ .clear layer.child ∈ net.restoring earlier layers ∧
      ∀ param ∈ net.parameters (net.getBaseLayer layer.child),
        ∃ merged, .copy param merged ∈ net.restoring earlier layers := by
  induction layers generalizing earlier with
  | nil => cases member
  | cons first layers ih =>
      rw [Network.restoring]
      rcases List.mem_cons.mp member with same | later
      · subst same
        refine ⟨by simp, by simp, ?_⟩
        intro param listed
        exact ⟨earlier, by simp [listed]⟩
      · obtain ⟨attached, cleared, copied⟩ := @ih (earlier ++ [first]) later
        refine ⟨List.mem_append_right _ attached, List.mem_append_right _ cleared, ?_⟩
        intro param listed
        obtain ⟨merged, performed⟩ := copied param listed
        exact ⟨merged, List.mem_append_right _ performed⟩

theorem copy_mem_restoring {earlier layers merged : List (Layer Module Name)} {param : Param}
    (member : .copy param merged ∈ net.restoring earlier layers) :
    ∃ before layer after, layers = before ++ layer :: after ∧ merged = earlier ++ before ∧
      param ∈ net.parameters (net.getBaseLayer layer.child) := by
  induction layers generalizing earlier with
  | nil => cases member
  | cons first layers ih =>
      rw [Network.restoring] at member
      simp only [List.mem_append, List.mem_cons, List.mem_map, List.not_mem_nil, or_false] at member
      rcases member with ((attached | ⟨listed, inFirst, copied⟩) | cleared) | later
      · cases attached
      · cases copied
        exact ⟨[], first, layers, rfl, (List.append_nil _).symm, inFirst⟩
      · cases cleared
      · obtain ⟨before, layer, after, split, taken, listed⟩ := ih later
        refine ⟨first :: before, layer, after, ?_, ?_, listed⟩
        · rw [split]
          rfl
        · rw [taken, List.append_assoc]
          rfl

variable [DecidableEq Param]

/-- No parameter has two layers, and no wrapper has been merged: the whole loop puts everything back. -/
theorem restores_of_unshared {layers : List (Layer Module Name)} {tensors : Tensors Module Param Adapter Value}
    (unshared : layers.Pairwise fun first second =>
      List.Disjoint (net.parameters (net.getBaseLayer first.child)) (net.parameters (net.getBaseLayer second.child)))
    (unmerged : ∀ layer ∈ layers, tensors.mergedAdapters layer.child = []) :
    net.Restores layers tensors (net.restoring [] layers) where
  reattached layer member := (restoring_complete member).1
  cleared layer member _ := unmerged layer member
  uncleared layer member missing := absurd (restoring_complete member).2.1 missing
  copied := by
    intro layer member param listed
    cases last : lastWrite ((net.restoring [] layers).filterMap Step.copies) param with
    | none =>
        obtain ⟨merged, performed⟩ := (@restoring_complete _ _ _ _ _ net [] layers layer member).2.2 param listed
        have written : param ∈ ((net.restoring [] layers).filterMap Step.copies).map Prod.fst :=
          List.mem_map.mpr ⟨(param, merged), List.mem_filterMap.mpr ⟨_, performed, rfl⟩, rfl⟩
        exact absurd written (lastWrite_eq_none.mp last)
    | some merged =>
        rw [Option.getD_some]
        obtain ⟨step, performed, same⟩ := List.mem_filterMap.mp (mem_of_lastWrite last)
        cases step with
        | setattr other => cases same
        | clear child => cases same
        | copy copiedParam saved =>
            cases same
            obtain ⟨before, holder, after, split, taken, has⟩ := copy_mem_restoring performed
            rw [List.nil_append] at taken
            subst split taken
            apply mergedBy_weight
            intro other earlier shared
            -- The last copy was taken before this layer, and no earlier one shares the parameter.
            have apart := (List.pairwise_append.mp unshared).2.2 other earlier holder List.mem_cons_self
            exact apart shared has

end

/-- However the scope is left, the network is as it was exactly where no trace is left. -/
theorem merged_lora_scope_restores_iff [DecidableEq Module] [DecidableEq Name] [DecidableEq Param]
    (net : Network Module Name Param Adapter Value) (faults : Faults Module Name Param Adapter Value)
    (state : State Module Name Param Adapter Value) :
    net.Promised state (net.mergedLoraScope faults state).1 ↔
      net.LeavesNoTrace faults state.tensors (net.iterTunerLayers state) := by
  rw [promised_iff fun layer member => (mem_iterTunerLayers net state member).1]
  exact left_unchanged_iff net faults state

def twoAdapters : Network Nat Nat Nat Unit Int where
  modules _ := [0, 1, 2, 3, 4]
  modules_nodup := by intro _; decide
  attributes module := if module = 0 then [0, 1] else []
  attributes_nodup := by
    intro module
    split <;> decide
  isTuner module := module == 1 || module == 2
  getBaseLayer module := module + 2
  base_plain := by
    intro module tuner
    simp only [Bool.or_eq_true, beq_iff_eq] at tuner
    rcases tuner with here | here <;> subst here <;> rfl
  parameters module := [module]
  merge module tensors :=
    { weight := Function.update tensors.weight (module + 2) (tensors.weight (module + 2) + 1)
      mergedAdapters := Function.update tensors.mergedAdapters module (tensors.mergedAdapters module ++ [()]) }
  merge_weight := by
    intro module tensors param outside
    exact Function.update_of_ne (fun same => outside (List.mem_singleton.mpr same)) _ _
  merge_record := by
    intro module tensors other different
    exact Function.update_of_ne different _ _
  interrupted _ tensors := tensors

def twoAdaptersAtRest : State Nat Nat Nat Unit Int where
  child place :=
    if place = (0, 0) then some 1 else if place = (0, 1) then some 2 else none
  tensors := { weight := fun _ => 0, mergedAdapters := fun _ => [] }

/-- Merging the second adapter raises; the first stays merged, out of the tree. -/
theorem second_merge_raises :
    ¬ twoAdapters.Promised twoAdaptersAtRest
      (twoAdapters.mergedLoraScope
        { entering := fun layer => if layer.child = 2 then some .merge else none
          body := fun _ _ => false
          leaving := none } twoAdaptersAtRest).1 := by
  intro promised
  have again := promised.wrapper_again ⟨0, 0, 1⟩ (by decide)
  have swapped : (twoAdapters.mergedLoraScope
      { entering := fun layer => if layer.child = 2 then some .merge else none
        body := fun _ _ => false
        leaving := none } twoAdaptersAtRest).1.child (0, 0) = some 3 := by decide
  rw [show (⟨0, 0, 1⟩ : Layer Nat Nat).place = (0, 0) from rfl, swapped] at again
  cases again

end PhysicalAiStudio.Policies.MergedScope
