import Mathlib.Algebra.Order.BigOperators.Group.List
import PhysicalAiStudio.Archives.DatasetRoot
import PhysicalAiStudio.Archives.FolderArchive

/-! When a folder comes back from its archive as it was.

An artifact does just when its archive passes the checks of Studio. A dataset that the trainer unpacks must besides
have no entry with a metadata name, nor be wrapped in one directory, as both are flattened away.
-/

set_option autoImplicit false

namespace PhysicalAiStudio.Archives

open Files.Unpacking Strings Collections

/-! ### The members of a folder -/

namespace FolderFile

variable (file : FolderFile)

theorem splitOn_arcname : file.arcname.splitOn '/' = file.path :=
  List.splitOn_intercalate '/' (fun name inside => (file.named name inside).slashless) file.nonempty

theorem parts_arcname : parts file.arcname = file.path := by
  rw [parts, file.splitOn_arcname, List.filter_eq_self]
  intro name inside
  have named := file.named name inside
  simp [named.nonempty, named.notDot]

theorem arcname_arcname : Archives.arcname file.arcname = file.path := by
  rw [Archives.arcname, file.parts_arcname, List.filter_eq_self]
  intro name inside
  simp [(file.named name inside).notDotDot]

theorem not_isDir : file.member.isDir = false := by
  by_contra directory
  rw [Bool.not_eq_false, ZipInfo.isDir, decide_eq_true_eq] at directory
  have slash : file.arcname.getLast? = some '/' := directory
  obtain ⟨front, whole⟩ := List.getLast?_eq_some_iff.mp slash
  have split := file.splitOn_arcname
  rw [whole, List.splitOn_append_cons_self] at split
  have empty : ([] : Text) ∈ file.path := by
    rw [← split]
    simp
  exact (file.named [] empty).nonempty rfl

theorem not_isSymlink : isSymlink file.externalAttr = false := by
  have plain := file.plain
  have clear : Nat.testBit (0o100000 + file.permissions) 13 = false := by
    rw [Nat.testBit_eq_decide_div_mod_eq]
    simp only [decide_eq_false_iff_not]
    omega
  unfold isSymlink externalAttr
  rw [Nat.shiftLeft_shiftRight, decide_eq_false_iff_not]
  intro same
  have bit := congrArg (fun mode => Nat.testBit mode 13) same
  rw [Nat.testBit_and, clear] at bit
  exact absurd bit (by decide)

theorem packed_member : file.member.packed = ⟨file.path, some file.data⟩ := by
  unfold Member.packed Member.content
  rw [file.not_isDir, if_neg Bool.false_ne_true]
  exact congrArg (fun path => Packed.mk path (some file.data)) file.arcname_arcname

theorem validateEntry_iff : validateEntry file.member.toZipInfo = .ok () ↔ Accepted file.arcname ∧
    (suffix (normalizeZipMemberName file.arcname)).map Char.toLower ≠ ".zip".toList := by
  have plain : isSymlink file.member.externalAttr = false := file.not_isSymlink
  have name : file.member.filename = file.arcname := rfl
  unfold validateEntry
  dsimp only
  rw [plain, if_neg Bool.false_ne_true, name]
  split
  next outside =>
    refine iff_of_false (fun passed => by cases passed) ?_
    rintro ⟨accepted, _⟩
    rcases outside with absolute | above
    · exact absurd absolute (by simp [accepted.relative])
    · exact accepted.inside above
  next inside =>
    obtain ⟨relative, within⟩ := not_or.mp inside
    rw [and_iff_right ⟨by simpa using relative, within⟩]
    split
    next nested => exact iff_of_false (fun passed => by cases passed) (not_not_intro nested)
    next single => exact iff_of_true rfl single

end FolderFile

namespace Folder

variable (folder : Folder) {settings : ArchiveSettings} {disk : UnpackDisk} {held tree : DiskTree}

theorem packed_members : folder.members.map Member.packed =
    folder.files.map fun file => ⟨file.path, some file.data⟩ := by
  rw [members, List.map_map]
  exact List.map_congr_left fun file _ => file.packed_member

theorem extracted_members : ∀ member ∈ folder.members, member.extracted = .complete := by
  intro member inside
  obtain ⟨file, _, rfl⟩ := List.mem_map.mp inside
  unfold Member.extracted
  rw [file.not_isDir, if_neg Bool.false_ne_true]
  rfl

theorem eq_of_prefix {file other : FolderFile} (inside : file ∈ folder.files) (there : other ∈ folder.files)
    (above : file.path <+: other.path) : file = other := by
  by_contra different
  have : Std.Symm fun file other : FolderFile => ¬file.path <+: other.path ∧ ¬other.path <+: file.path :=
    ⟨fun _ _ apart => apart.symm⟩
  exact (folder.apart.forall inside there different).1 above

theorem not_clash : ¬Clash (folder.members.map Member.packed) := by
  rw [packed_members]
  rintro ⟨entry, inside, _, why⟩
  obtain ⟨file, here, rfl⟩ := List.mem_map.mp inside
  rcases why with empty | ⟨other, there, above⟩
  · exact file.nonempty empty
  · obtain ⟨second, member, rfl⟩ := List.mem_map.mp there
    have below : file.path <+: second.path.dropLast := above
    obtain rfl := folder.eq_of_prefix here member (below.trans (List.dropLast_prefix _))
    exact not_prefix_dropLast file.nonempty below

theorem file_iff (shows : Shows held (folder.members.map Member.packed)) (path : List Text) (content : List UInt8) :
    held.get? path = some (.file content) ↔ ∃ file ∈ folder.files, file.path = path ∧ file.data = content := by
  rw [shows.file, packed_members]
  have found {file : FolderFile} (inside : file ∈ folder.files) :
      fileAt (folder.files.map fun file => ⟨file.path, some file.data⟩) file.path = some file.data := by
    obtain ⟨other, there⟩ := fileAt_of_mem (List.mem_map_of_mem (f := fun file : FolderFile =>
      (⟨file.path, some file.data⟩ : Packed Text (List UInt8))) inside) rfl
    obtain ⟨entry, member, same, data⟩ := mem_of_fileAt there
    obtain ⟨second, here, rfl⟩ := List.mem_map.mp member
    have one : second.path = file.path := same
    obtain rfl := folder.eq_of_prefix here inside (one ▸ List.prefix_rfl)
    rw [there, ← data]
  constructor
  · intro here
    obtain ⟨entry, member, same, data⟩ := mem_of_fileAt here
    obtain ⟨file, inside, rfl⟩ := List.mem_map.mp member
    exact ⟨file, inside, same, Option.some.inj data⟩
  · rintro ⟨file, inside, rfl, rfl⟩
    exact found inside

theorem total_eq : collectTotalUncompressed (folder.archive settings).infos =
    (folder.files.map fun file => file.data.length).sum := by
  simp only [collectTotalUncompressed, SafeZipArchive.infos, archive, members, List.map_map]
  rfl

theorem validate_iff {total : Nat} : (folder.archive settings).validate = .ok total ↔
    folder.files.length ≤ defaultMaxFileCount ∧
      (folder.files.map fun file => file.data.length).sum ≤ settings.maxUncompressedBytes ∧
      (∀ file ∈ folder.files, Accepted file.arcname ∧
        (suffix (normalizeZipMemberName file.arcname)).map Char.toLower ≠ ".zip".toList) ∧
      (folder.files.map fun file => file.data.length).sum = total := by
  unfold SafeZipArchive.validate
  rw [validateZipEntries_eq_ok, folder.total_eq]
  have each : (∀ info ∈ (folder.archive settings).infos, validateEntry info = .ok ()) ↔
      ∀ file ∈ folder.files, Accepted file.arcname ∧
        (suffix (normalizeZipMemberName file.arcname)).map Char.toLower ≠ ".zip".toList := by
    simp only [SafeZipArchive.infos, archive, members, List.forall_mem_map, FolderFile.validateEntry_iff]
  have count : (folder.archive settings).infos.length = folder.files.length := by
    simp [SafeZipArchive.infos, archive, members]
  rw [each, count]
  rfl

/-! ### Unpacking the archive -/

structure Unpacks (held : DiskTree) : Prop where
  shows : Shows held (folder.members.map Member.packed)
  parents : WithParents held

theorem restored_iff (shows : Shows held (folder.members.map Member.packed)) {directory : List Text} :
    folder.Restored directory tree ↔ ∀ path content, path ≠ [] →
      (tree.get? (directory ++ path) = some (.file content) ↔ held.get? path = some (.file content)) := by
  simp only [Restored, folder.file_iff shows]

theorem extractArchive_cases (settings : ArchiveSettings) (disk : UnpackDisk) :
    (¬folder.Passes settings disk ∧
      ∃ error, (folder.archive settings).extractArchive settings.minFreeBytes disk = .error error) ∨
    (folder.Passes settings disk ∧
      ∃ tree held, (folder.archive settings).extractArchive settings.minFreeBytes disk = .ok tree ∧
        Mirrors disk.destination tree held ∧ folder.Unpacks held) := by
  unfold SafeZipArchive.extractArchive
  cases valid : (folder.archive settings).validate with
  | error error =>
    refine Or.inl ⟨fun passes => ?_, _, rfl⟩
    have total := folder.validate_iff.mpr ⟨passes.count, passes.size,
      fun file inside => ⟨passes.names file inside, passes.unnested file inside⟩, rfl⟩
    cases valid.symm.trans total
  | ok total =>
    obtain ⟨count, size, names, rfl⟩ := folder.validate_iff.mp valid
    dsimp only
    split
    next unmade =>
      refine Or.inl ⟨fun passes => ?_, _, rfl⟩
      obtain ⟨made, ready⟩ := passes.directories
      rw [made, if_neg Bool.false_ne_true] at unmade
      simp [unmade] at ready
    next prepared made =>
      have directories : disk.directoriesFail = false ∧ disk.prepared.isSome = true := by
        split at made
        · cases made
        next works => exact ⟨by simpa using works, by simp [made]⟩
      rw [directories.1, if_neg Bool.false_ne_true] at made
      obtain ⟨same, empty⟩ := Empty.of_prepared made
      have accepted := (validated_of_validate valid).accepted
      have free : ¬Clash (prepared.entries ++ [⟨prepared.destination, none⟩] ++
          folder.members.map (Member.placed prepared.destination)) :=
        (clash_empty_iff empty _).not.mpr folder.not_clash
      -- Members made of a folder are readable and have no two places in common, so only the head room can fail now.
      obtain ⟨extractedCount, returned⟩ := (extractMembers_returned_iff empty.toHolding accepted 0).mpr
        ⟨folder.extracted_members, free⟩
      obtain ⟨held, unpacked, mirrors, parents⟩ :=
        extraction_mirrors empty (extractMembers_unpacked empty.toHolding accepted returned)
      unfold SafeZipArchive.extractTo
      rw [valid]
      dsimp only
      by_cases room : 0 < settings.minFreeBytes →
          (folder.files.map fun file => file.data.length).sum + settings.minFreeBytes ≤ disk.free
      · refine Or.inr ⟨⟨count, size, fun file inside => (names file inside).1,
          fun file inside => (names file inside).2, directories, room⟩, ?_⟩
        have checked : (if 0 < settings.minFreeBytes then checkDiskHeadroom (posix prepared.destination) disk.free
            (folder.files.map fun file => file.data.length).sum settings.minFreeBytes else .ok ()) = .ok () := by
          split
          next needed => exact checkDiskHeadroom_eq_ok.mpr (room needed)
          next => rfl
        rw [checked]
        dsimp only
        rw [returned]
        refine ⟨_, held, rfl, ?_, Shows.of_unpack unpacked, parents⟩
        rw [← same]
        exact mirrors
      · refine Or.inl ⟨fun passes => room passes.room, ?_⟩
        obtain ⟨needed, short⟩ := Classical.not_imp.mp room
        rw [if_pos needed]
        cases checked : checkDiskHeadroom (posix prepared.destination) disk.free
            (folder.files.map fun file => file.data.length).sum settings.minFreeBytes with
        | error error => exact ⟨_, rfl⟩
        | ok _ => exact absurd (checkDiskHeadroom_eq_ok.mp checked) short

/-- Studio restores the model that the trainer has archived just when it accepts the archive, and raises otherwise. -/
theorem model_restored_iff (settings : ArchiveSettings) (disk : UnpackDisk) :
    ((∃ tree, (folder.archive settings).extractArchive settings.minFreeBytes disk = .ok tree ∧
      folder.Restored disk.destination tree) ↔ folder.Passes settings disk) ∧
    (¬folder.Passes settings disk →
      ∃ error, (folder.archive settings).extractArchive settings.minFreeBytes disk = .error error) := by
  rcases folder.extractArchive_cases settings disk with
    ⟨fails, error, failed⟩ | ⟨passes, tree, held, returned, mirrors, unpacks⟩
  · refine ⟨iff_of_false ?_ fails, fun _ => ⟨error, failed⟩⟩
    rintro ⟨tree, returned, _⟩
    cases failed.symm.trans returned
  · refine ⟨iff_of_true ⟨tree, returned, ?_⟩ passes, fun fails => absurd passes fails⟩
    rw [folder.restored_iff unpacks.shows]
    intro path content nonempty
    rw [mirrors path nonempty]

/-! ### Flattening -/

theorem wrapped_iff (unpacks : folder.Unpacks held) (free : folder.FreeOfMetadata) :
    folder.Wrapped ↔ ∃ root, SingleRoot held root := by
  have listed (name : Text) : held.get? [name] ≠ none ↔ ∃ file ∈ folder.files, [name] <+: file.path := by
    rw [unpacks.shows.get?_ne_none_iff (List.cons_ne_nil _ _), packed_members]
    simp only [List.mem_map, exists_exists_and_eq_and]
  have directory (name : Text) : held.get? [name] = some .directory ↔
      ∃ file ∈ folder.files, ∃ rest, rest ≠ [] ∧ file.path = name :: rest := by
    rw [unpacks.shows.directory, packed_members]
    constructor
    · rintro ⟨_, entry, inside, above⟩
      obtain ⟨file, here, rfl⟩ := List.mem_map.mp inside
      obtain ⟨rest, whole⟩ : [name] <+: file.path.dropLast := above
      obtain ⟨last, split⟩ : ∃ last, file.path = [name] ++ rest ++ [last] :=
        ⟨file.path.getLast file.nonempty, by rw [whole, List.dropLast_append_getLast]⟩
      refine ⟨file, here, rest ++ [last], by simp, ?_⟩
      rw [split, List.append_assoc, List.singleton_append]
    · rintro ⟨file, here, rest, full, split⟩
      refine ⟨List.cons_ne_nil _ _, _, List.mem_map_of_mem here, ?_⟩
      refine ⟨rest.dropLast, ?_⟩
      rw [Packed.directory]
      dsimp only
      rw [split, List.dropLast_cons_of_ne_nil full, List.singleton_append]
  constructor
  · rintro ⟨some_file, root, below⟩
    obtain ⟨file, inside⟩ := List.exists_mem_of_ne_nil _ some_file
    obtain ⟨rest, full, split⟩ := below file inside
    refine ⟨root, free file inside root rest split, (directory root).mpr ⟨file, inside, rest, full, split⟩, ?_⟩
    intro name _ present
    obtain ⟨other, there, above⟩ := (listed name).mp present
    obtain ⟨after, _, whole⟩ := below other there
    rw [whole] at above
    exact (List.cons_prefix_cons.mp above).1
  · rintro ⟨root, single⟩
    obtain ⟨file, inside, _⟩ := (directory root).mp single.directory
    refine ⟨List.ne_nil_of_mem inside, root, fun other there => ?_⟩
    obtain ⟨name, rest, split⟩ := List.exists_cons_of_ne_nil other.nonempty
    have above : [name] <+: other.path := ⟨rest, split.symm⟩
    obtain rfl := single.only name (free other there name rest split) ((listed name).mpr ⟨other, there, above⟩)
    refine ⟨rest, ?_, split⟩
    rintro rfl
    -- a file with the name of the directory would be one
    have isFile := (folder.file_iff unpacks.shows [name] other.data).mpr ⟨other, there, split, rfl⟩
    cases single.directory.symm.trans isFile

/-- A folder is not what is left of it when its wrapping directory is taken away. -/
theorem not_restored_of_moved (unpacks : folder.Unpacks held) {root : Text} {directory : List Text}
    (some_file : folder.files ≠ [])
    (moved : ∀ path, path ≠ [] → tree.get? (directory ++ path) = held.get? (root :: path)) :
    ¬folder.Restored directory tree := by
  intro restored
  have deeper : ∀ file ∈ folder.files, ∃ other ∈ folder.files, other.path = root :: file.path := by
    intro file inside
    have here := (restored file.path file.data file.nonempty).mpr ⟨file, inside, rfl, rfl⟩
    rw [moved file.path file.nonempty, folder.file_iff unpacks.shows] at here
    obtain ⟨other, there, same, _⟩ := here
    exact ⟨other, there, same⟩
  have deep (depth : Nat) : ∃ file ∈ folder.files, depth ≤ file.path.length := by
    induction depth with
    | zero =>
      obtain ⟨file, inside⟩ := List.exists_mem_of_ne_nil _ some_file
      exact ⟨file, inside, Nat.zero_le _⟩
    | succ depth ih =>
      obtain ⟨file, inside, long⟩ := ih
      obtain ⟨other, there, same⟩ := deeper file inside
      exact ⟨other, there, by rw [same]; exact Nat.succ_le_succ long⟩
  obtain ⟨file, inside, long⟩ := deep ((folder.files.map fun file => file.path.length).sum + 1)
  have short := List.single_le_sum (by simp) _
    (List.mem_map_of_mem (f := fun file : FolderFile => file.path.length) inside)
  omega

/-- The trainer trains on the folder that Studio has archived just when it accepts the archive, and the folder has
nothing that flattening takes away. -/
theorem snapshot_restored_iff (settings : ArchiveSettings) (disk : UnpackDisk) :
    (∃ tree, (folder.archive settings).validateAndExtract settings.minFreeBytes disk = .ok tree ∧
      folder.Restored disk.destination tree) ↔
    folder.Passes settings disk ∧ disk.flatteningFails = false ∧ folder.FreeOfMetadata ∧ ¬folder.Wrapped := by
  unfold SafeZipArchive.validateAndExtract
  rcases folder.extractArchive_cases settings disk with
    ⟨fails, error, failed⟩ | ⟨passes, tree, held, returned, mirrors, unpacks⟩
  · rw [failed]
    refine iff_of_false ?_ fun all => fails all.1
    rintro ⟨tree, returned, _⟩
    cases returned
  · rw [returned, and_iff_right passes]
    dsimp only
    cases disk.flatteningFails with
    | true =>
      refine iff_of_false ?_ fun all => by cases all.1
      rintro ⟨flat, flattened, _⟩
      cases flattened
    | false =>
      rw [if_neg Bool.false_ne_true, and_iff_right rfl]
      rcases flatten_cases mirrors unpacks.parents with ⟨failed, nested⟩ | ⟨flat, flattened, shown, _⟩
      · rw [failed]
        refine iff_of_false ?_ ?_
        · rintro ⟨flat, flattened, _⟩
          cases flattened
        · rintro ⟨free, unwrapped⟩
          obtain ⟨root, single, _⟩ := nested
          exact unwrapped ((folder.wrapped_iff unpacks free).mpr ⟨root, single⟩)
      · rw [flattened]
        have only : (∃ tree, (Except.ok flat : Except UnpackError DiskTree) = .ok tree ∧
            folder.Restored disk.destination tree) ↔ folder.Restored disk.destination flat := by
          constructor
          · rintro ⟨tree, same, restored⟩
            cases same
            exact restored
          · intro restored
            exact ⟨flat, rfl, restored⟩
        rw [only]
        -- The flattening has moved nothing, or the files of a single root, which are then at other paths than in the
        -- folder.
        cases shown with
        | kept rootless same =>
          constructor
          · intro restored
            -- A top-level entry named like metadata is gone, so the file in it is not restored.
            have free : folder.FreeOfMetadata := by
              intro file inside name rest split
              have here := (restored file.path file.data file.nonempty).mpr ⟨file, inside, rfl, rfl⟩
              rw [split, same] at here
              by_contra metadata
              rw [Bool.not_eq_false] at metadata
              rw [metadata, if_pos rfl] at here
              cases here
            refine ⟨free, fun wrapped => ?_⟩
            obtain ⟨root, single⟩ := (folder.wrapped_iff unpacks free).mp wrapped
            exact rootless root single
          · rintro ⟨free, _⟩
            rw [folder.restored_iff unpacks.shows]
            intro path content nonempty
            obtain ⟨name, rest, rfl⟩ := List.exists_cons_of_ne_nil nonempty
            rw [same]
            split
            next metadata =>
              refine iff_of_false (fun found => by cases found) fun found => ?_
              obtain ⟨file, inside, split, _⟩ := (folder.file_iff unpacks.shows _ _).mp found
              cases (free file inside name rest split).symm.trans metadata
            next => exact Iff.rfl
        | moved root single same =>
          have some_file : folder.files ≠ [] := by
            obtain ⟨_, entry, inside, _⟩ := (unpacks.shows.directory _).mp single.directory
            rw [packed_members] at inside
            obtain ⟨file, here, _⟩ := List.mem_map.mp inside
            exact List.ne_nil_of_mem here
          refine iff_of_false (folder.not_restored_of_moved unpacks some_file same) ?_
          rintro ⟨free, unwrapped⟩
          exact unwrapped ((folder.wrapped_iff unpacks free).mpr ⟨root, single⟩)

end Folder

end PhysicalAiStudio.Archives
