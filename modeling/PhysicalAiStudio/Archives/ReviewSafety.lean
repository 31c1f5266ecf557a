import PhysicalAiStudio.Archives.EpisodeCounts
import PhysicalAiStudio.Archives.ShardNames

/-! What is shown for review is what is committed.

The review finds the metadata of a dataset by the names of members, at any depth. The commit leaves at the root of the
dataset what is in the single enclosing directory, or at the root of the archive.
-/

set_option autoImplicit false

namespace PhysicalAiStudio.Archives

open Files.Unpacking Strings Collections

variable {archive : SafeZipArchive} {total : Nat} {members : List Member} {top path : List Text}

/-! ### The promise -/

def infoPath : List Text := ["meta".toList, "info.json".toList]

namespace FinishedCommit

def shardPaths (commit : FinishedCommit archive) : List (List Text) :=
  commit.flat.keys.filterMap fun path =>
    (below commit.disk.destination path).bind fun rest => if (shardGroups rest).isSome then some rest else none

def shards (commit : FinishedCommit archive) : List Member := commit.shardPaths.filterMap commit.memberAt

def shardContents (commit : FinishedCommit archive) : List (List UInt8) :=
  commit.shardPaths.filterMap fun path =>
    match commit.flat.get? (commit.disk.destination ++ path) with
    | some (.file content) => some content
    | _ => none

end FinishedCommit

namespace SafeZipArchive

def names (archive : SafeZipArchive) : List Text :=
  archive.members.map fun member => normalizeZipMemberName member.filename

def verdict (archive : SafeZipArchive) : Except ArchiveError Verdict := archive.detection.map Detection.verdict

def reordered (archive : SafeZipArchive) (members : List Member) : SafeZipArchive := { archive with members := members }

end SafeZipArchive

structure Reviewed (archive : SafeZipArchive) : Prop where
  metadata : ∀ commit : FinishedCommit archive, ∀ member, archive.opened infoName = some member →
    commit.memberAt infoPath = some member ∧
      commit.flat.get? (commit.disk.destination ++ infoPath) = some (.file member.data)
  /-- Each shard of the dataset is read once, and nothing else. -/
  shards : ∀ commit : FinishedCommit archive, ∀ opened, archive.openedShards = some opened →
    opened.Perm (commit.shards.map some)
  counts : ∀ (commit : FinishedCommit archive) (readParquet : ParquetReader) (info : InfoTotals)
    (shown : EpisodeMetadata), archive.loadEpisodeMetadata readParquet info = .ok shown →
      shown.Counts (EpisodeTotals.of readParquet commit.shardContents)
  verdict : ∀ members : List Member, members.Perm archive.members →
    (archive.reordered members).verdict = archive.verdict

/-! ### Its condition -/

def shardMembers (members : List Member) : List Member :=
  members.filter fun member => (searchEpisodeParquet (normalizeZipMemberName member.filename)).isSome

/-- `int` takes the numbers of all shards. -/
def Numbered (members : List Member) : Prop :=
  ∀ member ∈ members, ∀ groups, searchEpisodeParquet (normalizeZipMemberName member.filename) = some groups →
    (int groups.1).isSome = true ∧ (int groups.2).isSome = true

/-- A member is named like the metadata, at any depth. -/
def isInfo (member : Member) : Bool := isNamed infoName (normalizeZipMemberName member.filename)

/-- The first member named like the metadata has the name of the last one that is extracted to the metadata's path, and
the members named like shards are, each once, those that are extracted last to paths of shards. -/
structure Rooted (members : List Member) (top : List Text) : Prop where
  metadata : ∀ first, members.find? isInfo = some first →
    ∃ last, memberAt members (top ++ infoPath) = some last ∧ last.filename = first.filename
  once : Numbered members → (shardMembers members).Nodup
  shards : Numbered members → ∀ member, member ∈ shardMembers members ↔
    ∃ path, (shardGroups path).isSome = true ∧ memberAt members (top ++ path) = some member

/-! ### The metadata -/

theorem opened_eq (valid : archive.validate = .ok total) (targetName : Text) : archive.opened targetName =
    (archive.members.find? fun member => isNamed (normalizeZipMemberName targetName)
      (normalizeZipMemberName member.filename)).bind fun member => archive.getinfo member.filename := by
  unfold SafeZipArchive.opened SafeZipArchive.resolveMemberName
  rw [valid]
  cases archive.members.find? fun member => isNamed (normalizeZipMemberName targetName)
      (normalizeZipMemberName member.filename) with
  | none => rfl
  | some member => rfl

theorem exists_getinfo {member : Member} (inside : member ∈ archive.members) :
    ∃ last, archive.getinfo member.filename = some last := by
  rw [← Option.isSome_iff_exists]
  exact List.find?_isSome.mpr ⟨member, List.mem_reverse.mpr inside, decide_eq_true rfl⟩

theorem getinfo_filename {name : Text} {member : Member} (found : archive.getinfo name = some member) :
    member ∈ archive.members ∧ member.filename = name := by
  have named := List.find?_some found
  exact ⟨List.mem_reverse.mp (List.mem_of_find?_eq_some found), by simpa using named⟩

theorem metadata_iff (valid : archive.validate = .ok total) (commit : FinishedCommit archive)
    (isRoot : IsRoot archive.members top) :
    (∀ member, archive.opened infoName = some member → commit.memberAt infoPath = some member ∧
      commit.flat.get? (commit.disk.destination ++ infoPath) = some (.file member.data)) ↔
    ∀ first, archive.members.find? isInfo = some first →
      ∃ last, memberAt archive.members (top ++ infoPath) = some last ∧ last.filename = first.filename := by
  have target : normalizeZipMemberName infoName = infoName := by
    decide
  have read : archive.opened infoName =
      (archive.members.find? isInfo).bind fun member => archive.getinfo member.filename := by
    rw [opened_eq valid, target]
    rfl
  rw [read, commit.memberAt_eq isRoot]
  constructor
  · intro promised first found
    obtain ⟨last, known⟩ := exists_getinfo (List.mem_of_find?_eq_some found)
    obtain ⟨here, _⟩ := promised last (by rw [found]; exact known)
    exact ⟨last, here, (getinfo_filename known).2⟩
  · intro rooted member opened
    obtain ⟨first, found, known⟩ := Option.bind_eq_some_iff.mp opened
    obtain ⟨last, here, same⟩ := rooted first found
    have equal : last = member :=
      Option.some.inj ((memberAt_of_getinfo here same).symm.trans known)
    subst equal
    refine ⟨here, (commit.file_iff (by decide) _).mpr ⟨last, ?_, rfl⟩⟩
    exact (commit.memberAt_eq isRoot infoPath).trans here

/-! ### The shards of the dataset -/

theorem mem_shardMembers {member : Member} : member ∈ shardMembers members ↔ member ∈ members ∧
    ∃ path groups, path <:+ (normalizeZipMemberName member.filename).splitOn '/' ∧ shardGroups path = some groups := by
  rw [shardMembers, List.mem_filter, Option.isSome_iff_exists]
  simp only [searchEpisodeParquet_iff]
  rw [exists_comm]

namespace FinishedCommit

variable (commit : FinishedCommit archive)

theorem mem_shardPaths_iff : path ∈ commit.shardPaths ↔
    commit.flat.get? (commit.disk.destination ++ path) ≠ none ∧ (shardGroups path).isSome = true := by
  unfold shardPaths
  rw [List.mem_filterMap, Option.ne_none_iff_exists', ← Dict.mem_iff_get?, AList.mem_keys]
  constructor
  · rintro ⟨whole, listed, found⟩
    obtain ⟨rest, under, kept⟩ := Option.bind_eq_some_iff.mp found
    rw [below_eq_some] at under
    split at kept
    next shard =>
      cases kept
      exact ⟨under ▸ listed, shard⟩
    · cases kept
  · rintro ⟨listed, shard⟩
    refine ⟨_, listed, ?_⟩
    rw [below_append, Option.bind_some, if_pos shard]

theorem shardPaths_nodup : commit.shardPaths.Nodup := by
  refine List.Nodup.filterMap ?_ commit.flat.keys_nodup
  intro first second path one other
  have place {whole : List Text} (found : path ∈ (below commit.disk.destination whole).bind fun rest =>
      if (shardGroups rest).isSome then some rest else none) : whole = commit.disk.destination ++ path := by
    obtain ⟨rest, under, kept⟩ := Option.bind_eq_some_iff.mp found
    rw [below_eq_some] at under
    split at kept
    · cases kept
      exact under
    · cases kept
  exact (place one).trans (place other).symm

/-- A shard path begins with the directory of the metadata. -/
theorem shard_file_iff (shard : (shardGroups path).isSome = true) (content : List UInt8) :
    commit.flat.get? (commit.disk.destination ++ path) = some (.file content) ↔
      ∃ member, commit.memberAt path = some member ∧ member.data = content := by
  obtain ⟨groups, found⟩ := Option.isSome_iff_exists.mp shard
  obtain ⟨rest, rfl⟩ := List.head?_eq_some_iff.mp (shardGroups_spec found).2.1
  exact commit.file_iff (by decide) content

theorem mem_shards_iff (isRoot : IsRoot archive.members top) (member : Member) : member ∈ commit.shards ↔
    ∃ path, (shardGroups path).isSome = true ∧ Archives.memberAt archive.members (top ++ path) = some member := by
  unfold shards
  rw [List.mem_filterMap]
  constructor
  · rintro ⟨path, listed, found⟩
    exact ⟨path, (commit.mem_shardPaths_iff.mp listed).2, (commit.memberAt_eq isRoot path).symm.trans found⟩
  · rintro ⟨path, shard, found⟩
    have here := (commit.memberAt_eq isRoot path).trans found
    refine ⟨path, commit.mem_shardPaths_iff.mpr ⟨?_, shard⟩, here⟩
    rw [(commit.shard_file_iff shard member.data).mpr ⟨member, here, rfl⟩]
    exact Option.some_ne_none _

theorem shards_nodup : commit.shards.Nodup := by
  obtain ⟨top, isRoot⟩ := exists_isRoot archive.members
  refine List.Nodup.filterMap ?_ commit.shardPaths_nodup
  intro first second member one other
  rw [Option.mem_def, commit.memberAt_eq isRoot] at one other
  exact List.append_cancel_left ((memberAt_spec one).2.2.symm.trans (memberAt_spec other).2.2)

/-- The shards of the dataset hold what the members hold that they come from. -/
theorem shardContents_eq : commit.shardContents = commit.shards.map fun member => member.data := by
  unfold shardContents shards
  rw [List.map_filterMap]
  apply List.filterMap_congr
  intro path listed
  have shard := (commit.mem_shardPaths_iff.mp listed).2
  cases from_ : commit.memberAt path with
  | none =>
    have absent : ∀ content, commit.flat.get? (commit.disk.destination ++ path) ≠ some (.file content) := by
      intro content held
      obtain ⟨member, found, _⟩ := (commit.shard_file_iff shard content).mp held
      cases from_.symm.trans found
    split
    next content held => exact absurd held (absent content)
    · rfl
  | some member =>
    rw [(commit.shard_file_iff shard member.data).mpr ⟨member, from_, rfl⟩]
    rfl

end FinishedCommit

/-! ### The shards that are read -/

theorem iterNormalizedNames_eq (valid : archive.validate = .ok total) :
    archive.iterNormalizedNames = .ok archive.names := by
  unfold SafeZipArchive.iterNormalizedNames
  rw [valid]
  rfl

theorem openedShards_eq (valid : archive.validate = .ok total) : archive.openedShards =
    (episodeShards archive.names).map fun shards => shards.map fun shard => archive.opened shard.name := by
  unfold SafeZipArchive.openedShards
  rw [iterNormalizedNames_eq valid]

theorem numbered_iff : Numbered archive.members ↔ (episodeShards archive.names).isSome = true := by
  rw [episodeShards_isSome_iff, SafeZipArchive.names, List.forall_mem_map]
  rfl

theorem openedShards_perm (valid : archive.validate = .ok total) {opened : List (Option Member)}
    (read : archive.openedShards = some opened) : opened.Perm
      ((shardMembers archive.members).map fun member => archive.opened (normalizeZipMemberName member.filename)) := by
  rw [openedShards_eq valid] at read
  obtain ⟨shards, found, rfl⟩ := Option.map_eq_some_iff.mp read
  have named := (episodeShards_names found).map archive.opened
  rw [List.map_map] at named
  refine named.trans (List.Perm.of_eq ?_)
  rw [SafeZipArchive.names, List.filter_map, List.map_map]
  rfl

/-- A shard is read from the last member that has the name of some shard with the same parts. -/
theorem opened_of_shard (valid : archive.validate = .ok total) {member : Member} {groups : Text × Text}
    (inside : member ∈ archive.members) (ends : path <:+ (normalizeZipMemberName member.filename).splitOn '/')
    (shard : shardGroups path = some groups) : ∃ first ∈ archive.members,
      path <:+ (normalizeZipMemberName first.filename).splitOn '/' ∧
        archive.opened (normalizeZipMemberName member.filename) = archive.getinfo first.filename := by
  have accepted := (validated_of_validate valid).accepted member inside
  have found : (archive.members.find? fun other =>
      isNamed (normalizeZipMemberName (normalizeZipMemberName member.filename))
        (normalizeZipMemberName other.filename)).isSome = true :=
    List.find?_isSome.mpr ⟨member, inside, isNamed_normalized accepted⟩
  obtain ⟨first, here⟩ := Option.isSome_iff_exists.mp found
  refine ⟨first, List.mem_of_find?_eq_some here, ?_, ?_⟩
  · have named := List.find?_some here
    exact suffix_of_isNamed named (suffix_normalized accepted shard ends)
  · rw [opened_eq valid, here]
    rfl

theorem opened_mem_shardMembers (valid : archive.validate = .ok total) {member read : Member}
    (inside : member ∈ shardMembers archive.members)
    (opened : archive.opened (normalizeZipMemberName member.filename) = some read) :
    read ∈ shardMembers archive.members := by
  obtain ⟨here, path, groups, ends, shard⟩ := mem_shardMembers.mp inside
  obtain ⟨first, _, other, same⟩ := opened_of_shard valid here ends shard
  obtain ⟨there, named⟩ := getinfo_filename (same.symm.trans opened)
  exact mem_shardMembers.mpr ⟨there, path, groups, named ▸ other, shard⟩

theorem opened_self (valid : archive.validate = .ok total)
    (rooted : ∀ member ∈ shardMembers archive.members,
      ∃ path, (shardGroups path).isSome = true ∧ memberAt archive.members (top ++ path) = some member)
    {member : Member} (inside : member ∈ shardMembers archive.members) :
    archive.opened (normalizeZipMemberName member.filename) = some member := by
  have accepted := (validated_of_validate valid).accepted
  obtain ⟨here, path, groups, ends, shard⟩ := mem_shardMembers.mp inside
  obtain ⟨first, there, other, same⟩ := opened_of_shard valid here ends shard
  -- Both have the parts that the search finds in both names as their path.
  have place {found : Member} (listed : found ∈ archive.members)
      (parts : path <:+ (normalizeZipMemberName found.filename).splitOn '/') :
      memberAt archive.members (top ++ path) = some found := by
    obtain ⟨own, isShard, last⟩ := rooted found (mem_shardMembers.mpr ⟨listed, path, groups, parts, shard⟩)
    obtain ⟨numbers, ownShard⟩ := Option.isSome_iff_exists.mp isShard
    rwa [shard_of_arcname (accepted found listed) (memberAt_spec last).2.2 ownShard parts shard] at last
  have equal : first = member := Option.some.inj ((place there other).symm.trans (place here ends))
  rw [same, equal]
  exact memberAt_of_getinfo (place here ends) rfl

theorem shards_iff (valid : archive.validate = .ok total) (commit : FinishedCommit archive)
    (isRoot : IsRoot archive.members top) :
    (∀ opened, archive.openedShards = some opened → opened.Perm (commit.shards.map some)) ↔
      (Numbered archive.members → (shardMembers archive.members).Nodup ∧
        ∀ member, member ∈ shardMembers archive.members ↔
          ∃ path, (shardGroups path).isSome = true ∧ memberAt archive.members (top ++ path) = some member) := by
  constructor
  · intro promised numbered
    obtain ⟨shards, found⟩ := Option.isSome_iff_exists.mp (numbered_iff.mp numbered)
    have read : archive.openedShards = some (shards.map fun shard => archive.opened shard.name) := by
      rw [openedShards_eq valid, found]
      rfl
    have perm := (openedShards_perm valid read).symm.trans (promised _ read)
    -- Each shard is read from a member with the name of a shard, and there are as many of both.
    have subset : commit.shards ⊆ shardMembers archive.members := by
      intro member shard
      obtain ⟨named, inside, opened⟩ := List.mem_map.mp (perm.mem_iff.mpr (List.mem_map_of_mem shard))
      exact opened_mem_shardMembers valid inside opened
    have length : (shardMembers archive.members).length = commit.shards.length := by
      simpa using perm.length_eq
    have same : commit.shards.Perm (shardMembers archive.members) :=
      (List.subperm_of_subset commit.shards_nodup subset).perm_of_length_le length.le
    refine ⟨same.nodup_iff.mp commit.shards_nodup, fun member => ?_⟩
    rw [← same.mem_iff, commit.mem_shards_iff isRoot]
  · intro rooted opened read
    have numbered : Numbered archive.members := by
      rw [openedShards_eq valid] at read
      obtain ⟨shards, found, _⟩ := Option.map_eq_some_iff.mp read
      exact numbered_iff.mpr (Option.isSome_iff_exists.mpr ⟨shards, found⟩)
    obtain ⟨once, shards⟩ := rooted numbered
    have same : (shardMembers archive.members).Perm commit.shards := by
      rw [List.perm_ext_iff_of_nodup once commit.shards_nodup]
      intro member
      rw [shards, commit.mem_shards_iff isRoot]
    have each : (shardMembers archive.members).map (fun member =>
        archive.opened (normalizeZipMemberName member.filename)) = (shardMembers archive.members).map some :=
      List.map_congr_left fun member inside => opened_self valid (fun other listed => (shards other).mp listed) inside
    exact (openedShards_perm valid read).trans (each ▸ same.map some)

theorem counts_of_shards (commit : FinishedCommit archive)
    (shards : ∀ opened, archive.openedShards = some opened → opened.Perm (commit.shards.map some))
    {readParquet : ParquetReader} {info : InfoTotals} {shown : EpisodeMetadata}
    (loaded : archive.loadEpisodeMetadata readParquet info = .ok shown) :
    shown.Counts (EpisodeTotals.of readParquet commit.shardContents) := by
  obtain ⟨opened, read, counted⟩ := loadEpisodeMetadata_counts loaded
  have contents : (opened.filterMap fun member => member.map fun member => member.data).Perm commit.shardContents := by
    refine ((shards opened read).filterMap _).trans (List.Perm.of_eq ?_)
    rw [commit.shardContents_eq, List.filterMap_map]
    exact congrFun List.filterMap_eq_map commit.shards
  rwa [EpisodeTotals.of_perm contents] at counted

/-! ### The verdict -/

theorem verdict_iff (valid : archive.validate = .ok total) :
    (∀ members : List Member, members.Perm archive.members → (archive.reordered members).verdict = archive.verdict) ↔
      ¬(HasV2 archive.names ∧ HasV3 archive.names) := by
  rw [← verdict_perm_iff]
  have own : archive.verdict = .ok (detectFrom archive.names .unseen).verdict := by
    unfold SafeZipArchive.verdict SafeZipArchive.detection
    rw [iterNormalizedNames_eq valid]
    rfl
  have other {members : List Member} (perm : members.Perm archive.members) :
      (archive.reordered members).verdict = .ok (detectFrom (archive.reordered members).names .unseen).verdict := by
    have validated : (archive.reordered members).validate = .ok total := validate_perm valid perm rfl rfl
    unfold SafeZipArchive.verdict SafeZipArchive.detection
    rw [iterNormalizedNames_eq validated]
    rfl
  constructor
  · intro every names perm
    have named : List.Forall₂ (fun name member => name = normalizeZipMemberName member.filename) archive.names
        archive.members := by
      rw [SafeZipArchive.names, List.forall₂_map_left_iff, List.forall₂_same]
      exact fun member _ => rfl
    -- Each order of the names comes from an order of the members.
    obtain ⟨members, each, same⟩ := List.perm_comp_forall₂ perm named
    have listed : names = (archive.reordered members).names := by
      clear perm named same
      induction each with
      | nil => rfl
      | cons here _ ih => exact congrArg₂ List.cons here ih
    have verdict := every members same
    rw [own, other same, ← listed] at verdict
    exact Except.ok.inj verdict
  · intro every members perm
    rw [own, other perm]
    exact congrArg Except.ok (every _ (perm.map _))

/-! ### The review of an archive -/

/-- What is shown for review is what a commit leaves, and the order of the members does not matter, just when the
archive cannot be committed or has its metadata at the root, and does not have markers of both formats. -/
theorem reviewed_iff (valid : archive.validate = .ok total) : Reviewed archive ↔
    (Committable archive.members → ∀ top, IsRoot archive.members top → Rooted archive.members top) ∧
      ¬(HasV2 archive.names ∧ HasV3 archive.names) := by
  constructor
  · intro reviewed
    refine ⟨?_, (verdict_iff valid).mp reviewed.verdict⟩
    intro committable top isRoot
    obtain ⟨commit⟩ := exists_finishedCommit valid committable
    have shards := (shards_iff valid commit isRoot).mp (reviewed.shards commit)
    exact ⟨(metadata_iff valid commit isRoot).mp (reviewed.metadata commit), fun numbered => (shards numbered).1,
      fun numbered => (shards numbered).2⟩
  · rintro ⟨rooted, apart⟩
    have here (commit : FinishedCommit archive) :
        ∃ top, IsRoot archive.members top ∧ Rooted archive.members top := by
      obtain ⟨top, isRoot⟩ := exists_isRoot archive.members
      exact ⟨top, isRoot, rooted commit.committable top isRoot⟩
    have shards (commit : FinishedCommit archive) :
        ∀ opened, archive.openedShards = some opened → opened.Perm (commit.shards.map some) := by
      obtain ⟨top, isRoot, kept⟩ := here commit
      exact (shards_iff valid commit isRoot).mpr fun numbered => ⟨kept.once numbered, kept.shards numbered⟩
    refine ⟨?_, shards, ?_, (verdict_iff valid).mpr apart⟩
    · intro commit
      obtain ⟨top, isRoot, kept⟩ := here commit
      exact (metadata_iff valid commit isRoot).mpr kept.metadata
    · intro commit readParquet info shown loaded
      exact counts_of_shards commit (shards commit) loaded

def archivedFile (filename : String) (data : List UInt8) : Member :=
  ⟨⟨filename.toList, 0x81a40000, data.length⟩, data, Nat.le_refl _, .complete⟩

def emptyFile (filename : String) : Member := archivedFile filename []

def infoFile (filename : String) : Member := archivedFile filename [0x7b, 0x7d]

def enclosedArchive : SafeZipArchive where
  members := [infoFile "set/meta/info.json", emptyFile "set/meta/tasks.parquet",
    emptyFile "set/meta/episodes/chunk-000/file-000.parquet", emptyFile "set/data/chunk-000/file-000.parquet"]
  maxUncompressedBytes := 2
  maxFileCount := none

def copiedArchive : SafeZipArchive where
  members := [emptyFile "old/meta/info.json", infoFile "meta/info.json", emptyFile "meta/tasks.parquet",
    emptyFile "meta/episodes/chunk-000/file-000.parquet", emptyFile "data/chunk-000/file-000.parquet"]
  maxUncompressedBytes := 2
  maxFileCount := none

theorem enclosedArchive_reviewed : enclosedArchive.validate = .ok 2 ∧ Reviewed enclosedArchive := by
  have valid : enclosedArchive.validate = .ok 2 := by
    rfl
  have inside (root : Text) (enclosed : Enclosed enclosedArchive.members root) : root = "set".toList :=
    (enclosed.only (infoFile "set/meta/info.json") List.mem_cons_self "set".toList infoPath (by decide)
      (by decide)).symm
  refine ⟨valid, (reviewed_iff valid).mpr ⟨?_, by decide⟩⟩
  intro _ top isRoot
  -- The archive lies in one directory, which is the only root it can have.
  have whole : top = ["set".toList] := by
    cases isRoot with
    | enclosed root enclosed => rw [inside root enclosed]
    | archive unenclosed =>
      refine absurd ⟨by decide, ⟨_, List.mem_cons_self, by decide⟩, ?_⟩ (unenclosed "set".toList)
      intro member here name rest starts _
      have heads : ∀ member ∈ enclosedArchive.members, (arcname member.filename).head? = some "set".toList := by
        decide
      have head := heads member here
      rw [starts] at head
      exact Option.some.inj head
  subst whole
  have listed : shardMembers enclosedArchive.members = [emptyFile "set/meta/episodes/chunk-000/file-000.parquet"] := by
    rfl
  refine ⟨?_, ?_, ?_⟩
  · intro first found
    cases found
    exact ⟨infoFile "set/meta/info.json", by rfl, rfl⟩
  · intro _
    rw [listed]
    exact List.nodup_singleton _
  · intro _ member
    rw [listed, List.mem_singleton]
    constructor
    · rintro rfl
      exact ⟨["meta".toList, "episodes".toList, "chunk-000".toList, "file-000.parquet".toList], by decide, by rfl⟩
    · rintro ⟨path, shard, found⟩
      obtain ⟨here, _, place⟩ := memberAt_spec found
      have below_set : (arcname member.filename).drop 1 = path := by
        rw [place]
        rfl
      rw [← below_set] at shard
      clear below_set found place
      unfold enclosedArchive at here
      simp only [List.mem_cons, List.not_mem_nil, or_false] at here
      rcases here with rfl | rfl | rfl | rfl
      · exact absurd shard (by decide)
      · exact absurd shard (by decide)
      · rfl
      · exact absurd shard (by decide)

theorem old_copy_shown :
    ¬∀ (archive : SafeZipArchive) (total : Nat), archive.validate = .ok total → Reviewed archive := by
  intro every
  have valid : copiedArchive.validate = .ok 2 := by
    rfl
  have unenclosed (root : Text) : ¬Enclosed copiedArchive.members root := by
    intro enclosed
    have old := enclosed.only (emptyFile "old/meta/info.json") List.mem_cons_self "old".toList infoPath (by decide)
      (by decide)
    have new := enclosed.only (infoFile "meta/info.json") (List.mem_cons_of_mem _ List.mem_cons_self) "meta".toList
      ["info.json".toList] (by decide) (by decide)
    exact absurd (old.trans new.symm) (by decide)
  have committable : Committable copiedArchive.members := by
    refine ⟨by decide, ?_, fun root enclosed => absurd enclosed (unenclosed root)⟩
    have led : (unpack (copiedArchive.members.map Member.packed)).isSome = true := by
      rfl
    rw [← unpack_eq_none_iff]
    exact Option.isSome_iff_ne_none.mp led
  obtain ⟨commit⟩ := exists_finishedCommit valid committable
  obtain ⟨last, here, same⟩ := (metadata_iff valid commit (.archive unenclosed)).mp
    ((every copiedArchive 2 valid).metadata commit) (emptyFile "old/meta/info.json") (by rfl)
  have new : memberAt copiedArchive.members ([] ++ infoPath) = some (infoFile "meta/info.json") := by
    rfl
  cases here.symm.trans new
  exact absurd same (by decide)

end PhysicalAiStudio.Archives
