import PhysicalAiStudio.Archives.LeRobotDetection

/-! The verdict of the detection and the order of the members.

The loop ends at the first marker of a v2 dataset, and as soon as it has met all three markers of a v3 dataset, so the
order decides only where an archive has both.
-/

set_option autoImplicit false

namespace PhysicalAiStudio.Archives

open Strings

variable {name : Text} {names : List Text} {markers : Markers}

/-! ### Markers -/

theorem isNamed_iff {target : Text} : isNamed target name = true ↔ name = target ∨ '/' :: target <:+ name := by
  rw [isNamed, Bool.or_eq_true, decide_eq_true_eq, List.isSuffixOf_iff_suffix]

theorem isNamed_suffix {target : Text} (named : isNamed target name = true) : target <:+ name := by
  rcases isNamed_iff.mp named with rfl | below
  · exact List.suffix_rfl
  · exact (List.suffix_cons _ _).trans below

theorem getLast?_of_suffix {target : Text} {c : Char} (ends : target <:+ name) (last : target.getLast? = some c) :
    name.getLast? = some c := by
  obtain ⟨before, rfl⟩ := ends
  rw [List.getLast?_append, last]
  rfl

theorem getLast?_of_v2Marker (found : (v2Marker name).isSome = true) : name.getLast? = some 'l' := by
  unfold v2Marker at found
  split at found
  next named => exact getLast?_of_suffix (isNamed_suffix named) (by decide)
  · split at found
    next named => exact getLast?_of_suffix (isNamed_suffix named) (by decide)
    · cases found

def isV3Marker (name : Text) : Bool := isNamed infoName name || isNamed tasksName name || isV3Data name

theorem v2Marker_of_isV3Marker (found : isV3Marker name = true) : v2Marker name = none := by
  have other : name.getLast? ≠ some 'l' := by
    unfold isV3Marker at found
    rw [Bool.or_eq_true, Bool.or_eq_true] at found
    rcases found with (info | tasks) | shard
    · rw [getLast?_of_suffix (isNamed_suffix info) (by decide : infoName.getLast? = some 'n')]
      decide
    · rw [getLast?_of_suffix (isNamed_suffix tasks) (by decide : tasksName.getLast? = some 't')]
      decide
    · have ends : ".parquet".toList <:+ name := by
        unfold isV3Data at shard
        simp only [Bool.and_eq_true, List.isSuffixOf_iff_suffix] at shard
        exact shard.1.2
      rw [getLast?_of_suffix ends (by decide : ".parquet".toList.getLast? = some 't')]
      decide
  by_contra marker
  exact other (getLast?_of_v2Marker (Option.isSome_iff_ne_none.mpr marker))

def Markers.addAll (markers : Markers) (names : List Text) : Markers := names.foldl Markers.add markers

/-- Names have all three markers of a v3 dataset. -/
structure HasV3 (names : List Text) : Prop where
  info : ∃ name ∈ names, isNamed infoName name = true
  tasks : ∃ name ∈ names, isNamed tasksName name = true
  data : ∃ name ∈ names, isV3Data name = true

def HasV2 (names : List Text) : Prop := ∃ name ∈ names, (v2Marker name).isSome = true

instance (names : List Text) : Decidable (HasV2 names) :=
  inferInstanceAs (Decidable (∃ name ∈ names, (v2Marker name).isSome = true))

theorem Markers.addAll_eq (markers : Markers) (names : List Text) :
    markers.addAll names = ⟨markers.hasInfo || names.any (isNamed infoName),
      markers.hasTasksParquet || names.any (isNamed tasksName), markers.hasV3Data || names.any isV3Data⟩ := by
  induction names generalizing markers with
  | nil => simp [Markers.addAll]
  | cons name rest ih =>
    change (markers.add name).addAll rest = _
    rw [ih]
    simp [Markers.add, Bool.or_assoc]

theorem Markers.addAll_all_iff (names : List Text) : (Markers.unseen.addAll names).all = true ↔ HasV3 names := by
  rw [Markers.addAll_eq]
  simp only [Markers.all, Markers.unseen, Bool.false_or, Bool.and_eq_true, List.any_eq_true]
  constructor
  · rintro ⟨⟨info, tasks⟩, data⟩
    exact ⟨info, tasks, data⟩
  · rintro ⟨info, tasks, data⟩
    exact ⟨⟨info, tasks⟩, data⟩

instance (names : List Text) : Decidable (HasV3 names) := decidable_of_iff _ (Markers.addAll_all_iff names)

theorem HasV3.mono {more : List Text} (has : HasV3 names)
    (subset : ∀ name ∈ names, isV3Marker name = true → name ∈ more) : HasV3 more := by
  obtain ⟨⟨first, one, info⟩, ⟨second, two, tasks⟩, third, three, data⟩ := has
  exact ⟨⟨first, subset first one (by simp [isV3Marker, info]), info⟩,
    ⟨second, subset second two (by simp [isV3Marker, tasks]), tasks⟩,
    third, subset third three (by simp [isV3Marker, data]), data⟩

/-! ### The loop -/

theorem Markers.addAll_all (all : markers.all = true) (names : List Text) : (markers.addAll names).all = true := by
  rw [Markers.addAll_eq]
  simp only [Markers.all, Bool.and_eq_true] at all ⊢
  simp [all]

/-- Names without a marker of a v2 dataset are passed over, unless they complete the markers of a v3 dataset. -/
theorem detectFrom_append (plain : ∀ name ∈ names, v2Marker name = none) (started : markers.all = false)
    (rest : List Text) : detectFrom (names ++ rest) markers =
      if (markers.addAll names).all then .matched else detectFrom rest (markers.addAll names) := by
  induction names generalizing markers with
  | nil =>
    rw [Markers.addAll, List.foldl_nil, started, if_neg Bool.false_ne_true]
    rfl
  | cons first names ih =>
    have later : ∀ other ∈ names, v2Marker other = none :=
      fun other inside => plain other (List.mem_cons_of_mem _ inside)
    rw [List.cons_append, detectFrom, plain first List.mem_cons_self]
    change (if (markers.add first).all then _ else _) = if ((markers.add first).addAll names).all then _ else _
    cases here : (markers.add first).all with
    | false =>
      rw [if_neg Bool.false_ne_true, ih later here]
      rfl
    | true => rw [Markers.addAll_all here, if_pos rfl, if_pos rfl]

/-- The first marker of a v2 dataset decides, unless all markers of a v3 dataset are before it. -/
theorem verdict_of_v2 {before after : List Text} (plain : ∀ other ∈ before, v2Marker other = none)
    (found : (v2Marker name).isSome = true) (incomplete : ¬HasV3 before) :
    (detectFrom (before ++ name :: after) .unseen).verdict = .unsupportedV2 := by
  obtain ⟨marker, met⟩ := Option.isSome_iff_exists.mp found
  rw [← Markers.addAll_all_iff, Bool.not_eq_true] at incomplete
  rw [detectFrom_append plain rfl, incomplete, if_neg Bool.false_ne_true, detectFrom, met]
  rfl

theorem verdict_of_v3 {before : List Text} (plain : ∀ other ∈ before, v2Marker other = none) (complete : HasV3 before)
    (after : List Text) : (detectFrom (before ++ after) .unseen).verdict = .accepted := by
  rw [detectFrom_append plain rfl, (Markers.addAll_all_iff _).mpr complete, if_pos rfl]
  rfl

theorem verdict_of_apart (apart : ¬(HasV2 names ∧ HasV3 names)) : (detectFrom names .unseen).verdict =
    if HasV2 names then .unsupportedV2 else if HasV3 names then .accepted else .notRecognised := by
  by_cases v2 : HasV2 names
  · rw [if_pos v2]
    obtain ⟨marker, inside, met⟩ := v2
    have found : (names.find? fun name => (v2Marker name).isSome).isSome = true :=
      List.find?_isSome.mpr ⟨marker, inside, met⟩
    obtain ⟨name, first⟩ := Option.isSome_iff_exists.mp found
    obtain ⟨here, before, after, rfl, earlier⟩ := List.find?_eq_some_iff_append.mp first
    refine verdict_of_v2 (fun other member => by simpa using earlier other member) here fun complete => ?_
    exact apart ⟨⟨marker, inside, met⟩, complete.mono fun name member _ => List.mem_append_left _ member⟩
  · have plain : ∀ name ∈ names, v2Marker name = none := by
      intro name inside
      by_contra marker
      exact v2 ⟨name, inside, Option.isSome_iff_ne_none.mpr marker⟩
    have run := detectFrom_append plain (rfl : Markers.unseen.all = false) []
    rw [List.append_nil] at run
    rw [if_neg v2, run]
    by_cases v3 : HasV3 names
    · rw [(Markers.addAll_all_iff names).mpr v3, if_pos rfl, if_pos v3]
      rfl
    · rw [if_neg ((Markers.addAll_all_iff names).not.mpr v3), if_neg v3]
      rfl

/-! ### Other orders -/

theorem verdict_perm_iff (names : List Text) :
    (∀ other : List Text, other.Perm names →
      (detectFrom other .unseen).verdict = (detectFrom names .unseen).verdict) ↔ ¬(HasV2 names ∧ HasV3 names) := by
  constructor
  · rintro every ⟨v2, v3⟩
    let isPlain (name : Text) : Bool := (v2Marker name).isNone
    -- All markers of a v3 dataset come first in one order, and a marker of a v2 dataset in another.
    have late := every (names.filter isPlain ++ names.filter fun name => !isPlain name) (List.filter_append_perm _ _)
    have early := every ((names.filter fun name => !isPlain name) ++ names.filter isPlain)
      (List.perm_append_comm.trans (List.filter_append_perm _ _))
    have plain : ∀ name ∈ names.filter isPlain, v2Marker name = none := fun name member =>
      Option.isNone_iff_eq_none.mp (List.mem_filter.mp member).2
    have complete : HasV3 (names.filter isPlain) := by
      refine v3.mono fun name member marker => List.mem_filter.mpr ⟨member, ?_⟩
      exact Option.isNone_iff_eq_none.mpr (v2Marker_of_isV3Marker marker)
    have accepted := verdict_of_v3 plain complete (names.filter fun name => !isPlain name)
    have rejected : (detectFrom ((names.filter fun name => !isPlain name) ++ names.filter isPlain) .unseen).verdict =
        .unsupportedV2 := by
      obtain ⟨marker, inside, met⟩ := v2
      have there : marker ∈ names.filter fun name => !isPlain name :=
        List.mem_filter.mpr ⟨inside, by simp [isPlain, met]⟩
      cases listed : names.filter fun name => !isPlain name with
      | nil =>
        rw [listed] at there
        cases there
      | cons first rest =>
        have head : first ∈ names.filter fun name => !isPlain name := by
          rw [listed]
          exact List.mem_cons_self
        have found := (List.mem_filter.mp head).2
        have none_before : ¬HasV3 [] := by
          decide
        exact verdict_of_v2 (List.forall_mem_nil _) (by simpa [isPlain] using found) none_before
    rw [late, ← early, rejected] at accepted
    cases accepted
  · intro apart other perm
    have same (P : Text → Prop) : (∃ name ∈ other, P name) ↔ ∃ name ∈ names, P name :=
      exists_congr fun name => and_congr_left' perm.mem_iff
    have v2 : HasV2 other ↔ HasV2 names := same _
    have v3 : HasV3 other ↔ HasV3 names := by
      constructor
      · intro has
        exact has.mono fun name member _ => perm.mem_iff.mp member
      · intro has
        exact has.mono fun name member _ => perm.mem_iff.mpr member
    rw [verdict_of_apart apart, verdict_of_apart (by rwa [v2, v3])]
    simp only [v2, v3]

/-- A marker of a v2 dataset that comes last is not met. -/
example : (detectFrom [infoName, tasksName, "data/chunk-000/file-000.parquet".toList, "meta/tasks.jsonl".toList]
    .unseen).verdict = .accepted := by
  decide

end PhysicalAiStudio.Archives
