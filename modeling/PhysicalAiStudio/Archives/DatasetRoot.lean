import PhysicalAiStudio.Archives.CommitSafety

/-! Which member of an archive ends up where in the committed dataset.

The directory that encloses a dataset is read off the names of the members. Of the members that are extracted to one
path the last stays, and a commit that finishes shows it below the dataset's directory.
-/

set_option autoImplicit false

namespace PhysicalAiStudio.Archives

open Files.Unpacking Strings Collections

variable {members : List Member} {held : DiskTree} {root name : Text} {path : List Text}

/-! ### The enclosing directory -/

/-- All members are extracted to one directory, metadata apart. -/
structure Enclosed (members : List Member) (root : Text) : Prop where
  meaningful : isIgnorable root = false
  directory : ∃ member ∈ members, [root] <+: member.packed.directory
  only : ∀ member ∈ members, ∀ name rest, arcname member.filename = name :: rest → isIgnorable name = false →
    name = root

/-- The names from the extracted archive to the dataset. -/
inductive IsRoot (members : List Member) : List Text → Prop
  | enclosed (root : Text) (single : Enclosed members root) : IsRoot members [root]
  | archive (unenclosed : ∀ root, ¬Enclosed members root) : IsRoot members []

/-- An archive that a commit extracts and flattens. -/
structure Committable (members : List Member) : Prop where
  read : ∀ member ∈ members, member.extracted = .complete
  free : ¬Clash (members.map Member.packed)
  unnested : ∀ root, Enclosed members root → ∀ member ∈ members, ¬[root, root] <+: arcname member.filename

theorem exists_isRoot (members : List Member) : ∃ root, IsRoot members root := by
  by_cases single : ∃ root, Enclosed members root
  · obtain ⟨root, enclosed⟩ := single
    exact ⟨[root], .enclosed root enclosed⟩
  · exact ⟨[], .archive fun root enclosed => single ⟨root, enclosed⟩⟩

theorem get?_members_ne_none_iff (shows : Shows held (members.map Member.packed)) (nonempty : path ≠ []) :
    held.get? path ≠ none ↔ ∃ member ∈ members, path <+: arcname member.filename := by
  rw [shows.get?_ne_none_iff nonempty]
  constructor
  · rintro ⟨entry, inside, above⟩
    obtain ⟨member, here, rfl⟩ := List.mem_map.mp inside
    exact ⟨member, here, above⟩
  · rintro ⟨member, here, above⟩
    exact ⟨member.packed, List.mem_map_of_mem here, above⟩

theorem singleRoot_iff (shows : Shows held (members.map Member.packed)) :
    SingleRoot held root ↔ Enclosed members root := by
  have directory : held.get? [root] = some .directory ↔ ∃ member ∈ members, [root] <+: member.packed.directory := by
    rw [shows.directory]
    constructor
    · rintro ⟨_, entry, inside, above⟩
      obtain ⟨member, here, rfl⟩ := List.mem_map.mp inside
      exact ⟨member, here, above⟩
    · rintro ⟨member, here, above⟩
      exact ⟨List.cons_ne_nil _ _, member.packed, List.mem_map_of_mem here, above⟩
  constructor
  · intro single
    refine ⟨single.meaningful, directory.mp single.directory, ?_⟩
    intro member here name rest starts meaningful
    apply single.only name meaningful
    rw [get?_members_ne_none_iff shows (List.cons_ne_nil _ _)]
    exact ⟨member, here, starts ▸ List.cons_prefix_cons.mpr ⟨rfl, List.nil_prefix⟩⟩
  · intro enclosed
    refine ⟨enclosed.meaningful, directory.mpr enclosed.directory, ?_⟩
    intro name meaningful present
    obtain ⟨member, here, above⟩ := (get?_members_ne_none_iff shows (List.cons_ne_nil _ _)).mp present
    obtain ⟨rest, whole⟩ := above
    exact enclosed.only member here name rest whole.symm meaningful

theorem nested_iff (shows : Shows held (members.map Member.packed)) :
    Nested held ↔ ∃ root, Enclosed members root ∧ ∃ member ∈ members, [root, root] <+: arcname member.filename := by
  unfold Nested
  refine exists_congr fun root => ?_
  rw [singleRoot_iff shows, get?_members_ne_none_iff shows (List.cons_ne_nil _ _)]

theorem committable_iff : Committable members ↔ (∀ member ∈ members, member.extracted = .complete) ∧
    ∃ held, unpack (members.map Member.packed) = some held ∧ ¬Nested held := by
  constructor
  · intro committable
    obtain ⟨held, unpacked, shows, _⟩ :=
      (unpack_cases (members.map Member.packed)).resolve_left fun failed => committable.free failed.2
    refine ⟨committable.read, held, unpacked, ?_⟩
    rw [nested_iff shows]
    rintro ⟨root, enclosed, member, here, above⟩
    exact committable.unnested root enclosed member here above
  · rintro ⟨read, held, unpacked, unnested⟩
    have shows := Shows.of_unpack unpacked
    refine ⟨read, ?_, ?_⟩
    · rw [← unpack_eq_none_iff, unpacked]
      simp
    · intro root enclosed member here above
      exact unnested ((nested_iff shows).mpr ⟨root, enclosed, member, here, above⟩)

/-! ### The last member of a path -/

/-- The last file that is extracted to a path. -/
def memberAt (members : List Member) (path : List Text) : Option Member :=
  members.reverse.find? fun member => !member.isDir && decide (arcname member.filename = path)

theorem fileAt_packed (members : List Member) (path : List Text) :
    fileAt (members.map Member.packed) path = (memberAt members path).map fun member => member.data := by
  unfold fileAt memberAt
  rw [← List.map_reverse, List.findSome?_map]
  induction members.reverse with
  | nil => rfl
  | cons member rest ih =>
    rw [List.findSome?_cons, List.find?_cons, ih]
    by_cases here : arcname member.filename = path
    · cases directory : member.isDir <;> simp [Member.packed, Member.content, here, directory]
    · simp [Member.packed, here]

theorem memberAt_spec {member : Member} (found : memberAt members path = some member) :
    member ∈ members ∧ member.isDir = false ∧ arcname member.filename = path := by
  have holds := List.find?_some found
  rw [Bool.and_eq_true, Bool.not_eq_true', decide_eq_true_eq] at holds
  exact ⟨List.mem_reverse.mp (List.mem_of_find?_eq_some found), holds⟩

theorem memberAt_of_getinfo {archive : SafeZipArchive} {filename : Text} {last : Member}
    (found : memberAt archive.members path = some last) (same : last.filename = filename) :
    archive.members.reverse.find? (fun member => member.filename = filename) = some last := by
  obtain ⟨_, file, here⟩ := memberAt_spec found
  unfold memberAt at found
  rw [List.find?_eq_some_iff_append] at found ⊢
  obtain ⟨_, before, after, split, earlier⟩ := found
  refine ⟨by simp [same], before, after, split, ?_⟩
  intro member inside
  have other := earlier member inside
  by_contra named
  have equal : member.filename = last.filename := by
    rw [same]
    simpa using named
  have directory : member.isDir = last.isDir := by
    unfold ZipInfo.isDir
    rw [equal]
  simp [equal, directory, file, here] at other

/-! ### A commit that finishes -/

def Extraction.source (extraction : Extraction) (path : List Text) : Option Member :=
  (extraction.written.reverse.find? fun write => !write.member.isDir && decide (write.path = path)).map Write.member

def unflattened (directory : List Text) (tree : DiskTree) (path : List Text) : List Text :=
  match (entryNames directory tree).filter fun name => !isIgnorable name with
  | [root] => if tree.get? (directory ++ [root]) = some .directory then directory ++ root :: path else directory ++ path
  | _ => directory ++ path

theorem unflattened_eq {directory : List Text} {tree : DiskTree} {top : List Text}
    (mirrors : Mirrors directory tree held) (shows : Shows held (members.map Member.packed)) (isRoot : IsRoot members top) (path : List Text) :
    unflattened directory tree path = directory ++ (top ++ path) := by
  unfold unflattened
  have same (name : Text) : tree.get? (directory ++ [name]) = held.get? [name] := mirrors [name] (List.cons_ne_nil _ _)
  cases isRoot with
  | enclosed root enclosed =>
    have single := (singleRoot_iff shows).mpr enclosed
    have listed := (meaningful_eq_singleton mirrors).mpr ⟨single.meaningful, by simp [single.directory], single.only⟩
    rw [listed]
    dsimp only
    rw [same, if_pos single.directory, List.singleton_append]
  | archive unenclosed =>
    rw [List.nil_append]
    split
    next root listed =>
      obtain ⟨meaningful, _, only⟩ := (meaningful_eq_singleton mirrors).mp listed
      have file : tree.get? (directory ++ [root]) ≠ some .directory := by
        intro there
        exact unenclosed root ((singleRoot_iff shows).mp ⟨meaningful, same root ▸ there, only⟩)
      rw [if_neg file]
    · rfl

/-- What flattening leaves at a path was where it is said to come from. -/
theorem get?_flattened {directory : List Text} {flat : DiskTree} {top rest : List Text}
    (shows : Shows held (members.map Member.packed)) (flattened : Flattened directory held flat)
    (isRoot : IsRoot members top) (meaningful : isIgnorable name = false) :
    flat.get? (directory ++ name :: rest) = held.get? (top ++ name :: rest) := by
  cases flattened with
  | kept rootless same =>
    cases isRoot with
    | enclosed root enclosed => exact absurd ((singleRoot_iff shows).mpr enclosed) (rootless root)
    | archive unenclosed =>
      rw [same, meaningful, if_neg Bool.false_ne_true]
      rfl
  | moved root single same =>
    have here := (singleRoot_iff shows).mp single
    cases isRoot with
    | enclosed other enclosed =>
      have equal : root = other := by
        obtain ⟨member, inside, above⟩ := here.directory
        obtain ⟨after, whole⟩ := above.trans member.packed.directory_isPrefix
        exact enclosed.only member inside root after whole.symm here.meaningful
      rw [same _ (List.cons_ne_nil _ _), equal]
      rfl
    | archive unenclosed => exact absurd here (unenclosed root)

theorem extractTo_returned {archive : SafeZipArchive} {disk : Disk} {minFreeBytes free count : Nat}
    (returned : (archive.extractTo disk minFreeBytes free).outcome = .ok count) :
    ∃ total, archive.validate = .ok total ∧
      archive.extractTo disk minFreeBytes free = extractMembers disk.destination archive.members 0 disk.tree := by
  unfold SafeZipArchive.extractTo at returned ⊢
  cases valid : archive.validate with
  | error error =>
    rw [valid] at returned
    cases returned
  | ok total =>
    rw [valid] at returned
    dsimp only at returned ⊢
    refine ⟨total, rfl, ?_⟩
    split
    next error failed =>
      rw [failed] at returned
      cases returned
    · rfl

structure FinishedCommit (archive : SafeZipArchive) where
  payload : ImportPayload
  projectId : Text
  disk : ImportDisk
  around : Surroundings
  dataset : Dataset
  prepared : Disk
  flat : DiskTree
  ready : disk.prepared = some prepared
  finished : commit payload projectId archive disk around = ⟨.returned dataset, some flat⟩

namespace FinishedCommit

variable {archive : SafeZipArchive}

def extraction (commit : FinishedCommit archive) : Extraction :=
  archive.extractTo commit.prepared commit.around.minFreeBytes commit.around.freeExtracting

def memberAt (commit : FinishedCommit archive) (path : List Text) : Option Member :=
  commit.extraction.source (unflattened commit.prepared.destination commit.extraction.tree path)

theorem extracted (commit : FinishedCommit archive) :
    (∃ count, commit.extraction.outcome = .ok count) ∧
      flattenSingleRootDirectory commit.prepared.destination commit.extraction.tree = some commit.flat := by
  have finished := commit.finished
  -- A commit that has finished took the branch of success at each step.
  unfold Archives.commit at finished
  split at finished
  · cases finished
  split at finished
  · cases finished
  next prepared ready =>
  have same : prepared = commit.prepared := by
    split at ready
    · cases ready
    · exact Option.some.inj (ready.symm.trans commit.ready)
  subst same
  split at finished
  · cases finished
  split at finished
  · cases finished
  unfold commitInto at finished
  dsimp only at finished
  split at finished
  · cases finished
  next count returned =>
  refine ⟨⟨count, returned⟩, ?_⟩
  split at finished
  · cases finished
  next flat flattened =>
  split at flattened
  · cases flattened
  unfold persisted at finished
  split at finished
  · cases finished
    exact flattened
  · cases finished
  · cases finished

structure Landed (commit : FinishedCommit archive) (held : DiskTree) : Prop where
  destination : commit.prepared.destination = commit.disk.destination
  resolved : dotDot ∉ commit.prepared.destination
  read : ∀ member ∈ archive.members, member.extracted = .complete
  unpacked : unpack (archive.members.map Member.packed) = some held
  mirrors : Mirrors commit.prepared.destination commit.extraction.tree held
  written : commit.extraction.written =
    archive.members.map fun member => ⟨member, extractedPath commit.prepared.destination member.filename⟩
  flattened : Flattened commit.prepared.destination held commit.flat
  unnested : ¬Nested held

theorem landed (commit : FinishedCommit archive) : ∃ held, commit.Landed held := by
  obtain ⟨⟨count, returned⟩, flat⟩ := commit.extracted
  obtain ⟨total, valid, extracted⟩ := extractTo_returned returned
  change commit.extraction = _ at extracted
  obtain ⟨same, empty⟩ := Empty.of_prepared commit.ready
  have accepted := (validated_of_validate valid).accepted
  have outcome := (congrArg Extraction.outcome extracted).symm.trans returned
  obtain ⟨read, _⟩ := (extractMembers_returned_iff empty.toHolding accepted 0).mp ⟨count, outcome⟩
  obtain ⟨held, unpacked, mirrors, parents⟩ :=
    extraction_mirrors empty (extractMembers_unpacked empty.toHolding accepted outcome)
  rw [← extracted] at mirrors
  rcases flatten_cases mirrors parents with ⟨failed, _⟩ | ⟨other, flattened, shown, unnested⟩
  · cases failed.symm.trans flat
  · cases flattened.symm.trans flat
    exact ⟨held, same, empty.resolved, read, unpacked, mirrors,
      (congrArg Extraction.written extracted).trans (extractMembers_written empty.toHolding accepted outcome), shown,
      unnested⟩

theorem committable (commit : FinishedCommit archive) : Committable archive.members := by
  obtain ⟨held, landed⟩ := commit.landed
  exact committable_iff.mpr ⟨landed.read, held, landed.unpacked, landed.unnested⟩

/-- A path of the dataset comes from the last member that is extracted to it. -/
theorem memberAt_eq (commit : FinishedCommit archive) {top : List Text} (isRoot : IsRoot archive.members top)
    (path : List Text) : commit.memberAt path = Archives.memberAt archive.members (top ++ path) := by
  obtain ⟨held, landed⟩ := commit.landed
  have shows := Shows.of_unpack landed.unpacked
  unfold memberAt Extraction.source Archives.memberAt
  rw [unflattened_eq landed.mirrors shows isRoot, landed.written, ← List.map_reverse, List.find?_map, Option.map_map]
  have same : (fun write : Write => !write.member.isDir &&
      decide (write.path = commit.prepared.destination ++ (top ++ path))) ∘
        (fun member : Member => ⟨member, extractedPath commit.prepared.destination member.filename⟩) =
      fun member => !member.isDir && decide (arcname member.filename = top ++ path) := by
    funext member
    rw [Function.comp_apply, extractedPath_eq landed.resolved]
    simp
  rw [same]
  exact congrFun Option.map_id _

/-- A file of the dataset holds the data of the member that it comes from. -/
theorem file_iff (commit : FinishedCommit archive) {rest : List Text} (meaningful : isIgnorable name = false)
    (content : List UInt8) :
    commit.flat.get? (commit.disk.destination ++ name :: rest) = some (.file content) ↔
      ∃ member, commit.memberAt (name :: rest) = some member ∧ member.data = content := by
  obtain ⟨held, landed⟩ := commit.landed
  have shows := Shows.of_unpack landed.unpacked
  obtain ⟨top, isRoot⟩ := exists_isRoot archive.members
  rw [← landed.destination, get?_flattened shows landed.flattened isRoot meaningful, shows.file, fileAt_packed,
    commit.memberAt_eq isRoot, Option.map_eq_some_iff]

end FinishedCommit

def blankDisk : ImportDisk where
  datasetsDir := ["datasets".toList]
  id := "new".toList
  resolved := by decide
  entries := []
  tree := ∅
  unpacked := rfl
  fresh := fun _ _ => rfl

theorem exists_finishedCommit {archive : SafeZipArchive} {total : Nat} (valid : archive.validate = .ok total)
    (committable : Committable archive.members) : Nonempty (FinishedCommit archive) := by
  let payload : ImportPayload := ⟨none, some ⟨"pick".toList, "env".toList⟩⟩
  let around : Surroundings := ⟨false, 0, total, 0, false, .saved, true⟩
  have led : blankDisk.prepared.isSome = true := rfl
  obtain ⟨prepared, ready⟩ := Option.isSome_iff_exists.mp led
  obtain ⟨_, empty⟩ := Empty.of_prepared ready
  have lands : Lands archive total around := by
    obtain ⟨read, unpacked⟩ := committable_iff.mp committable
    exact ⟨fun positive => absurd positive (Nat.lt_irrefl 0), read, rfl, unpacked⟩
  have room : checkDiskHeadroom (posix blankDisk.datasetsDir) around.freeBefore total around.minFreeBytes = .ok () :=
    checkDiskHeadroom_eq_ok.mpr (Nat.le_refl total)
  let dataset := newDataset payload ⟨"pick".toList, "env".toList⟩ "project".toList blankDisk.id
  rcases commitInto_cases valid empty dataset with ⟨fails, _⟩ | ⟨_, flat, _, run⟩
  · exact absurd lands fails
  · refine ⟨⟨payload, "project".toList, blankDisk, around, dataset, prepared, flat, ready, ?_⟩⟩
    have opened : (if around.directoriesFail then none else blankDisk.prepared) = some prepared := ready
    unfold commit
    dsimp only [payload]
    rw [opened]
    dsimp only
    rw [valid]
    dsimp only
    rw [room]
    exact run

end PhysicalAiStudio.Archives
