import PhysicalAiStudio.Archives.DatasetRoot
import PhysicalAiStudio.Archives.DetectionOrder

/-! The names of episode shards, as they are searched in an archive and as they are extracted.

A shard is found by the last parts of its normalized name. Where a shard of the dataset has a name that is found, its
path in the dataset has the same parts.
-/

set_option autoImplicit false

namespace PhysicalAiStudio.Archives

open Strings

variable {name target filename : Text} {path : List Text} {groups : Text × Text}

/-! ### The parts of a shard -/

structure Plain (part : Text) : Prop where
  nonempty : part ≠ []
  proper : part ≠ dot
  slash : '/' ∉ part
  backslash : '\\' ∉ part

theorem isNumber_not_mem {number : Text} {c : Char} (digits : isNumber number = true) (other : digit c = none) :
    c ∉ number := by
  intro inside
  unfold isNumber at digits
  rw [Bool.and_eq_true, List.all_eq_true] at digits
  have here := digits.2 c inside
  rw [other] at here
  cases here

theorem Plain.of_number {before number after : Text} (digits : isNumber number = true) (long : 2 ≤ before.length)
    (first : '/' ∉ before ∧ '\\' ∉ before) (second : '/' ∉ after ∧ '\\' ∉ after) :
    Plain (before ++ (number ++ after)) := by
  have slash : '/' ∉ number := isNumber_not_mem digits (by decide)
  have backslash : '\\' ∉ number := isNumber_not_mem digits (by decide)
  refine ⟨?_, ?_, by simp [first.1, second.1, slash], by simp [first.2, second.2, backslash]⟩
  · intro empty
    simp [(List.append_eq_nil_iff.mp empty).1] at long
  · intro same
    have length := congrArg List.length same
    simp only [List.length_append, dot, List.length_singleton] at length
    omega

theorem shardGroups_spec (found : shardGroups path = some groups) :
    path.length = 4 ∧ path.head? = some "meta".toList ∧ ∀ part ∈ path, Plain part := by
  unfold shardGroups at found
  split at found
  next first second chunk file =>
    split at found
    next heads =>
      obtain ⟨rfl, rfl⟩ := heads
      obtain ⟨chunkIndex, dropped, found⟩ := Option.bind_eq_some_iff.mp found
      obtain ⟨rest, named, found⟩ := Option.bind_eq_some_iff.mp found
      obtain ⟨fileIndex, cut, found⟩ := Option.bind_eq_some_iff.mp found
      split at found
      next digits =>
        obtain ⟨_, rfl, same⟩ := List.dropPrefix?_eq_some_iff.mp dropped
        cases eq_of_beq same
        obtain ⟨_, rfl, same⟩ := List.dropPrefix?_eq_some_iff.mp named
        cases eq_of_beq same
        obtain ⟨_, whole, same⟩ := List.dropSuffix?_eq_some_iff.mp cut
        cases eq_of_beq same
        refine ⟨rfl, rfl, ?_⟩
        -- `$` matches before a final newline too, so a name may end in one.
        have ends : ∃ after, rest = fileIndex ++ after ∧ '/' ∉ after ∧ '\\' ∉ after := by
          split at whole
          next newline =>
            obtain ⟨front, rfl⟩ := List.getLast?_eq_some_iff.mp newline
            rw [List.dropLast_concat] at whole
            exact ⟨".parquet".toList ++ ['\n'], by rw [whole, List.append_assoc], by decide, by decide⟩
          · exact ⟨".parquet".toList, whole, by decide, by decide⟩
        obtain ⟨after, rfl, clean⟩ := ends
        intro part inside
        simp only [List.mem_cons, List.not_mem_nil, or_false] at inside
        rcases inside with rfl | rfl | rfl | rfl
        · exact ⟨by decide, by decide, by decide, by decide⟩
        · exact ⟨by decide, by decide, by decide, by decide⟩
        · have plain := Plain.of_number digits.1 (by decide) (by decide : '/' ∉ "chunk-".toList ∧ _)
            (by decide : '/' ∉ ([] : Text) ∧ _)
          rwa [List.append_nil] at plain
        · exact Plain.of_number digits.2 (by decide) (by decide : '/' ∉ "file-".toList ∧ _) clean
      · cases found
    · cases found
  · cases found

theorem searchEpisodeParquet_iff :
    searchEpisodeParquet name = some groups ↔ ∃ path, path <:+ name.splitOn '/' ∧ shardGroups path = some groups := by
  unfold searchEpisodeParquet
  constructor
  · intro found
    exact ⟨_, List.drop_suffix _ _, found⟩
  · rintro ⟨path, ends, found⟩
    have same := List.suffix_iff_eq_drop.mp ends
    rw [(shardGroups_spec found).1] at same
    dsimp only
    rw [← same]
    exact found

/-- The parts of a shard in a name are the only ones. -/
theorem shard_unique {other : List Text} {more : Text × Text} {all : List Text} (ends : path <:+ all)
    (found : shardGroups path = some groups) (again : other <:+ all) (too : shardGroups other = some more) :
    path = other := by
  have length : path.length = other.length := (shardGroups_spec found).1.trans (shardGroups_spec too).1.symm
  exact (List.suffix_of_suffix_length_le ends again length.le).eq_of_length length

/-! ### Names that are read -/

/-- Of a name that is read by, what is searched in the archive ends with the parts of the name. -/
theorem suffix_of_isNamed (named : isNamed target name = true) (ends : path <:+ target.splitOn '/') :
    path <:+ name.splitOn '/' := by
  rcases isNamed_iff.mp named with rfl | ⟨before, rfl⟩
  · exact ends
  · rw [List.splitOn_append_cons_self]
    exact ends.trans (List.suffix_append _ _)

theorem normalized_getLast? {c : Char} (last : (normalizeZipMemberName filename).getLast? = some c) : c ≠ '/' := by
  unfold normalizeZipMemberName at last
  have stripped := getLast?_of_suffix (removeDotSlash_suffix _) last
  obtain ⟨nonempty, rfl⟩ := List.mem_getLast?_eq_getLast stripped
  have other := List.rdropWhile_last_not (fun c : Char => decide (c = '/')) _ nonempty
  exact fun same => other (decide_eq_true same)

/-- Normalizing once more can only take one more dot away. -/
theorem normalize_normalized (accepted : Accepted filename) :
    normalizeZipMemberName (normalizeZipMemberName filename) = removeDotSlash (normalizeZipMemberName filename) := by
  have slashes : ((normalizeZipMemberName filename).map fun c => if c = '\\' then '/' else c) =
      normalizeZipMemberName filename := by
    conv_rhs => rw [← List.map_id (normalizeZipMemberName filename)]
    exact List.map_congr_left fun c member => if_neg (mem_normalized member)
  have stripped : stripOf (· = '/') (normalizeZipMemberName filename) = normalizeZipMemberName filename := by
    apply stripOf_self
    · intro c first
      have relative := accepted.relative
      rw [isAbsolute, Option.mem_def.mp first] at relative
      simpa using relative
    · intro c last
      simpa using normalized_getLast? last
  rw [normalizeZipMemberName, slashes, stripped]

theorem isNamed_normalized (accepted : Accepted filename) :
    isNamed (normalizeZipMemberName (normalizeZipMemberName filename)) (normalizeZipMemberName filename) = true := by
  rw [normalize_normalized accepted, isNamed_iff]
  unfold removeDotSlash
  split
  next rest same =>
    rw [same]
    exact Or.inr (List.suffix_cons _ _)
  · exact Or.inl rfl

theorem suffix_normalized (accepted : Accepted filename) (found : shardGroups path = some groups)
    (ends : path <:+ (normalizeZipMemberName filename).splitOn '/') :
    path <:+ (normalizeZipMemberName (normalizeZipMemberName filename)).splitOn '/' := by
  rw [normalize_normalized accepted]
  unfold removeDotSlash
  split
  next rest same =>
    rw [same] at ends
    have split : ('.' :: '/' :: rest).splitOn '/' = dot :: rest.splitOn '/' :=
      List.splitOn_append_cons_self ['.'] rest
    rw [split] at ends
    rcases List.suffix_cons_iff.mp ends with rfl | later
    · have first := (shardGroups_spec found).2.1
      cases first
    · exact later
  · exact ends

/-! ### Names that are extracted -/

def slashed (text : Text) : Text := text.map fun c => if c = '\\' then '/' else c

theorem splitOn_slashed (filename : Text) :
    (slashed filename).splitOn '/' = (filename.splitOn '/').flatMap fun part => (slashed part).splitOn '/' := by
  have joined (parts : List Text) (nonempty : parts ≠ []) :
      (slashed (['/'].intercalate parts)).splitOn '/' = parts.flatMap fun part => (slashed part).splitOn '/' := by
    induction parts with
    | nil => exact absurd rfl nonempty
    | cons part rest ih =>
      cases rest with
      | nil => simp
      | cons next rest =>
        have whole : slashed (['/'].intercalate (part :: next :: rest)) =
            slashed part ++ '/' :: slashed (['/'].intercalate (next :: rest)) := by
          rw [List.intercalate_cons_cons]
          simp [slashed]
        rw [whole, List.splitOn_append_cons_self, ih (List.cons_ne_nil _ _)]
        rfl
  have split := joined (filename.splitOn '/') (List.splitOn_ne_nil _ _)
  rwa [List.intercalate_splitOn] at split

theorem parts_normalize (filename : Text) :
    parts (normalizeZipMemberName filename) = (parts filename).flatMap fun part => parts (slashed part) := by
  rw [normalizeZipMemberName, parts_removeDotSlash, parts_stripOf]
  change parts (slashed filename) = _
  unfold parts
  rw [splitOn_slashed, List.filter_flatMap]
  induction filename.splitOn '/' with
  | nil => rfl
  | cons part rest ih =>
    rw [List.flatMap_cons, ih, List.filter_cons]
    split
    · rw [List.flatMap_cons]
    next dropped =>
      have none_left : ((slashed part).splitOn '/').filter (fun part => decide (part ≠ [] ∧ part ≠ dot)) = [] := by
        simp only [ne_eq, decide_eq_true_eq, not_and_or, not_not] at dropped
        rcases dropped with rfl | rfl
        · decide
        · decide
      rw [none_left, List.nil_append]

theorem arcname_of_accepted (accepted : Accepted filename) : arcname filename = parts filename := by
  refine List.filter_eq_self.mpr fun part member => ?_
  have other : part ≠ dotDot := by
    rintro rfl
    apply accepted.inside
    rw [parts_normalize, List.mem_flatMap]
    exact ⟨dotDot, member, by decide⟩
  simp [other]

theorem parts_slashed (part : Text) (plain : Plain part) : parts (slashed part) = [part] := by
  have same : slashed part = part := by
    unfold slashed
    conv_rhs => rw [← List.map_id part]
    refine List.map_congr_left fun c member => if_neg ?_
    rintro rfl
    exact plain.backslash member
  have whole : part.splitOn '/' = [part] := by
    have joined : (['/'].intercalate [part]).splitOn '/' = [part] :=
      List.splitOn_intercalate '/' (by simpa using plain.slash) (List.cons_ne_nil _ _)
    simpa using joined
  rw [same, parts, whole]
  simp [plain.nonempty, plain.proper]

theorem shard_of_arcname {top other : List Text} {more : Text × Text} (accepted : Accepted filename)
    (here : arcname filename = top ++ path) (found : shardGroups path = some groups)
    (ends : other <:+ (normalizeZipMemberName filename).splitOn '/') (too : shardGroups other = some more) :
    path = other := by
  have plain := (shardGroups_spec found).2.2
  have kept : path <:+ parts (normalizeZipMemberName filename) := by
    have same : path.flatMap (fun part => parts (slashed part)) = path := by
      clear here found
      induction path with
      | nil => rfl
      | cons part rest ih =>
        rw [List.flatMap_cons, parts_slashed part (plain part List.mem_cons_self),
          ih fun other member => plain other (List.mem_cons_of_mem _ member)]
        rfl
    rw [parts_normalize, ← arcname_of_accepted accepted, here, List.flatMap_append, same]
    exact List.suffix_append _ _
  have filtered : other <:+ parts (normalizeZipMemberName filename) := by
    have each := (shardGroups_spec too).2.2
    have same : other.filter (fun part => decide (part ≠ [] ∧ part ≠ dot)) = other :=
      List.filter_eq_self.mpr fun part member => by simp [(each part member).nonempty, (each part member).proper]
    rw [← same]
    exact ends.filter _
  exact shard_unique kept found filtered too

end PhysicalAiStudio.Archives
