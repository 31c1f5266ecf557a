import Mathlib.Data.List.Perm.Basic
import PhysicalAiStudio.Archives.LeRobotDetection

/-! What a review counts in the shards of an archive.

The counts depend on what the opened members hold, and not on the order in which they are read.
-/

set_option autoImplicit false

namespace PhysicalAiStudio.Archives

open Strings

variable {archive : SafeZipArchive} {readParquet : ParquetReader} {names : List Text} {shards : List EpisodeShard}

/-! ### Counting -/

namespace EpisodeTotals

theorem add_right_comm (totals : EpisodeTotals) (first second : EpisodesFrame) :
    (totals.add first).add second = (totals.add second).add first := by
  unfold add
  congr 1
  · exact Nat.add_right_comm _ _ _
  · exact Nat.add_right_comm _ _ _
  · exact Nat.add_right_comm _ _ _
  · exact Nat.add_right_comm _ _ _
  · exact Nat.add_right_comm _ _ _
  · exact Finset.union_right_comm _ _ _
  · exact Int.add_right_comm _ _ _
  · exact Finset.union_right_comm _ _ _

instance : RightCommutative add := ⟨add_right_comm⟩

def of (readParquet : ParquetReader) (contents : List (List UInt8)) : EpisodeTotals :=
  (contents.filterMap fun content => (readParquet content).toOption).foldl add zero

theorem of_perm {first second : List (List UInt8)} (perm : first.Perm second) :
    of readParquet first = of readParquet second :=
  (perm.filterMap _).foldl_eq zero

theorem readable_foldl (frames : List EpisodesFrame) (totals : EpisodeTotals) :
    (frames.foldl add totals).readable = totals.readable + frames.length := by
  induction frames generalizing totals with
  | nil => rfl
  | cons frame rest ih =>
    rw [List.foldl_cons, ih, List.length_cons]
    exact Nat.add_assoc _ _ _ |>.trans (congrArg _ (Nat.add_comm _ _))

/-- Nothing is counted in no shards. -/
theorem of_unreadable {contents : List (List UInt8)} (none_read : (of readParquet contents).readable = 0) :
    of readParquet contents = zero := by
  unfold of at none_read ⊢
  rw [readable_foldl] at none_read
  have empty := List.length_eq_zero_iff.mp (Nat.eq_zero_of_add_eq_zero_left none_read)
  rw [empty]
  rfl

end EpisodeTotals

structure EpisodeMetadata.Counts (shown : EpisodeMetadata) (totals : EpisodeTotals) : Prop where
  episodes : shown.episodeCount = totals.episodeCount
  frames : shown.frameCount = totals.frameCount
  tasks : shown.tasks = totals.tasks

theorem metadata_counts (contents : List (List UInt8)) (info : InfoTotals) (report : ImportValidationReport) :
    ((EpisodeTotals.of readParquet contents).metadata info report).Counts (EpisodeTotals.of readParquet contents) := by
  unfold EpisodeTotals.metadata
  split
  next none_read =>
    rw [EpisodeTotals.of_unreadable none_read]
    exact ⟨rfl, rfl, rfl⟩
  · exact ⟨rfl, rfl, rfl⟩

theorem foldl_addShard (contents : List (Text × Option (List UInt8))) (state : EpisodeTotals × ImportValidationReport) :
    (contents.foldl (addShard readParquet) state).1 =
      ((contents.filterMap Prod.snd).filterMap fun content => (readParquet content).toOption).foldl
        EpisodeTotals.add state.1 := by
  induction contents generalizing state with
  | nil => rfl
  | cons shard rest ih =>
    obtain ⟨name, content⟩ := shard
    rw [List.foldl_cons, ih]
    cases content with
    | none => rfl
    | some content =>
      have head : List.filterMap Prod.snd ((name, some content) :: rest) = content :: rest.filterMap Prod.snd := rfl
      rw [head, List.filterMap_cons]
      unfold addShard
      dsimp only
      cases readParquet content with
      | error kind => rfl
      | ok frame => rfl

/-! ### Reading -/

theorem readMember_ok {target : Text} {content : Option (List UInt8)} (read : archive.readMember target = .ok content) :
    content = (archive.opened target).map fun member => member.data := by
  unfold SafeZipArchive.readMember at read
  unfold SafeZipArchive.opened
  split at read
  · cases read
  next unresolved =>
    cases read
    rw [unresolved]
    rfl
  next name resolved =>
    rw [resolved]
    dsimp only
    split at read
    · cases read
    next member found =>
      rw [found]
      split at read
      · cases read
        rfl
      · cases read
      · cases read

theorem readShards_ok {contents : List (Text × Option (List UInt8))} (read : archive.readShards shards = .ok contents) :
    contents.map Prod.snd = shards.map fun shard => (archive.opened shard.name).map fun member => member.data := by
  induction shards generalizing contents with
  | nil =>
    cases read
    rfl
  | cons shard rest ih =>
    unfold SafeZipArchive.readShards at read
    split at read
    · cases read
    next content here =>
      cases later : archive.readShards rest with
      | error error =>
        rw [later] at read
        cases read
      | ok others =>
        rw [later] at read
        cases read
        rw [List.map_cons, List.map_cons, ih later, readMember_ok here]

theorem loadEpisodeMetadata_counts {info : InfoTotals} {shown : EpisodeMetadata}
    (loaded : archive.loadEpisodeMetadata readParquet info = .ok shown) : ∃ opened, archive.openedShards = some opened ∧
      shown.Counts (EpisodeTotals.of readParquet
        (opened.filterMap fun member => member.map fun member => member.data)) := by
  unfold SafeZipArchive.loadEpisodeMetadata at loaded
  unfold SafeZipArchive.openedShards
  split at loaded
  · cases loaded
  next names listed =>
    split at loaded
    · cases loaded
    next none_found =>
      cases loaded
      rw [none_found]
      exact ⟨[], rfl, rfl, rfl, rfl⟩
    next shards _ found =>
      rw [found]
      refine ⟨_, rfl, ?_⟩
      split at loaded
      · cases loaded
      next contents read =>
        cases loaded
        have same := readShards_ok read
        dsimp only
        -- The loop reads each shard after the one before; only the contents of those it could open count.
        have totals : (contents.foldl (addShard readParquet) (.zero, [])).1 = EpisodeTotals.of readParquet
            ((shards.map fun shard => archive.opened shard.name).filterMap fun member =>
              member.map fun member => member.data) := by
          rw [foldl_addShard]
          unfold EpisodeTotals.of
          congr 2
          have whole : contents.filterMap Prod.snd = (contents.map Prod.snd).filterMap id := by
            rw [List.filterMap_map]
            rfl
          rw [whole, same, List.filterMap_map, List.filterMap_map]
          rfl
        rw [totals]
        exact metadata_counts _ _ _

/-! ### The shards of a list of names -/

theorem mapM_map_eq {α β γ : Type} {f : α → Option β} {first : α → γ} {second : β → γ} {items : List α} {made : List β}
    (kept : ∀ item result, f item = some result → second result = first item) (all : items.mapM f = some made) :
    made.map second = items.map first := by
  induction items generalizing made with
  | nil =>
    cases all
    rfl
  | cons item rest ih =>
    rw [List.mapM_cons] at all
    obtain ⟨result, here, all⟩ := Option.bind_eq_some_iff.mp all
    obtain ⟨later, others, same⟩ := Option.bind_eq_some_iff.mp all
    cases same
    rw [List.map_cons, List.map_cons, ih others, kept item result here]

theorem mapM_isSome_iff {α β : Type} {f : α → Option β} {items : List α} :
    (items.mapM f).isSome = true ↔ ∀ item ∈ items, (f item).isSome = true := by
  induction items with
  | nil => exact iff_of_true rfl (List.forall_mem_nil _)
  | cons item rest ih =>
    rw [List.mapM_cons, List.forall_mem_cons, ← ih]
    cases f item with
    | none => simp
    | some result =>
      cases rest.mapM f with
      | none => simp
      | some later => simp

theorem episodeShard_name {name : Text} {groups : Text × Text} {shard : EpisodeShard}
    (made : episodeShard name groups = some shard) : shard.name = name := by
  unfold episodeShard at made
  obtain ⟨chunkIndex, _, made⟩ := Option.bind_eq_some_iff.mp made
  obtain ⟨fileIndex, _, rfl⟩ := Option.map_eq_some_iff.mp made
  rfl

theorem episodeShards_names (found : episodeShards names = some shards) :
    (shards.map EpisodeShard.name).Perm (names.filter fun name => (searchEpisodeParquet name).isSome) := by
  unfold episodeShards at found
  obtain ⟨listed, all, rfl⟩ := Option.map_eq_some_iff.mp found
  refine ((List.mergeSort_perm listed _).map _).trans (List.Perm.of_eq ?_)
  have kept : listed.map EpisodeShard.name =
      (names.filterMap fun name => (searchEpisodeParquet name).map fun groups => (name, groups)).map Prod.fst :=
    mapM_map_eq (fun item result made => episodeShard_name made) all
  rw [kept, List.map_filterMap]
  clear kept all found
  induction names with
  | nil => rfl
  | cons name rest ih =>
    rw [List.filterMap_cons, List.filter_cons, ih]
    cases searchEpisodeParquet name with
    | none => rfl
    | some groups => rfl

theorem episodeShards_isSome_iff : (episodeShards names).isSome = true ↔
    ∀ name ∈ names, ∀ groups, searchEpisodeParquet name = some groups →
      (int groups.1).isSome = true ∧ (int groups.2).isSome = true := by
  have each (name : Text) (groups : Text × Text) : (episodeShard name groups).isSome = true ↔
      (int groups.1).isSome = true ∧ (int groups.2).isSome = true := by
    unfold episodeShard
    cases int groups.1 with
    | none => simp
    | some chunkIndex => simp
  unfold episodeShards
  dsimp only
  rw [Option.isSome_map, mapM_isSome_iff]
  constructor
  · intro all name member groups found
    exact (each name groups).mp (all (name, groups) (List.mem_filterMap.mpr ⟨name, member, by rw [found]; rfl⟩))
  · rintro all ⟨name, groups⟩ listed
    obtain ⟨other, member, same⟩ := List.mem_filterMap.mp listed
    obtain ⟨others, found, pair⟩ := Option.map_eq_some_iff.mp same
    cases pair
    exact (each name groups).mpr (all name member groups found)

end PhysicalAiStudio.Archives
