import PhysicalAiStudio.Archives.LeRobotCommit

/-! What a commit leaves on the disk.

When it returns, the directory shows the members of the archive, with the metadata gone and a single root directory
taken away. When it raises, the directory is gone if the error comes after the two checks.
-/

set_option autoImplicit false

namespace PhysicalAiStudio.Archives

open Files.Unpacking Strings Collections

variable {directory path : List Text} {tree flat : DiskTree} {root : Text}

/-! ### Flattening -/

theorem below_eq_some {rest : List Text} : below directory path = some rest ↔ path = directory ++ rest := by
  unfold below
  split
  · next starts =>
    obtain ⟨after, rfl⟩ := starts
    simp
  · next apart =>
    constructor
    · intro found
      cases found
    · rintro rfl
      exact absurd (List.prefix_append _ _) apart

@[simp] theorem below_append (directory rest : List Text) : below directory (directory ++ rest) = some rest :=
  below_eq_some.mpr rfl

theorem withoutMetadata_same {new : List Text} (kept : withoutMetadata directory path = some new) : path = new := by
  unfold withoutMetadata at kept
  split at kept
  · split at kept
    · cases kept
    · exact Option.some.inj kept
  · exact Option.some.inj kept

theorem get?_removeMetadata (directory : List Text) (tree : DiskTree) (name : Text) (rest : List Text) :
    (removeMetadata directory tree).get? (directory ++ name :: rest) =
      if isIgnorable name then none else tree.get? (directory ++ name :: rest) := by
  ext value
  rw [removeMetadata, Dict.get?_rename _ fun first _ second _ key one other =>
    (withoutMetadata_same one).trans (withoutMetadata_same other).symm]
  constructor
  · rintro ⟨old, kept, held⟩
    cases withoutMetadata_same kept
    rw [withoutMetadata, below_append] at kept
    split
    · next metadata => simp [metadata] at kept
    · exact held
  · intro held
    split at held
    · cases held
    · next kept => exact ⟨_, by simp [withoutMetadata, kept], held⟩

def Sole (directory : List Text) (root : Text) (tree : DiskTree) : Prop :=
  ∀ name rest, tree.get? (directory ++ name :: rest) ≠ none → name = root

/-- Where a path of a directory with one entry comes from. -/
theorem movedUp_cases {old new : List Text} (sole : Sole directory root tree) (held : tree.get? old ≠ none)
    (moved : movedUp directory root old = some new) :
    (∃ rest, rest ≠ [] ∧ old = directory ++ root :: rest ∧ new = directory ++ rest) ∨
      (∀ rest, rest ≠ [] → old ≠ directory ++ rest) ∧ new = old := by
  unfold movedUp at moved
  split at moved
  · next name rest inside =>
    rw [below_eq_some] at inside
    subst inside
    obtain rfl := sole name rest held
    by_cases empty : rest = []
    · simp [empty] at moved
    · simp only [empty, if_false, if_true, Option.some.injEq] at moved
      exact Or.inl ⟨rest, empty, rfl, moved.symm⟩
  · next other =>
    refine Or.inr ⟨?_, (Option.some.inj moved).symm⟩
    rintro rest nonempty rfl
    cases rest with
    | nil => exact nonempty rfl
    | cons name rest => exact other name rest (below_append _ _)

theorem get?_moveUp (sole : Sole directory root tree) (nonempty : path ≠ []) :
    (moveUp directory root tree).get? (directory ++ path) = tree.get? (directory ++ root :: path) := by
  have present {old : List Text} (inside : old ∈ tree) : tree.get? old ≠ none := by
    obtain ⟨value, held⟩ := Dict.mem_iff_get?.mp inside
    simp [held]
  ext value
  rw [moveUp, Dict.get?_rename]
  · constructor
    · rintro ⟨old, moved, held⟩
      rcases movedUp_cases sole (by simp [held]) moved with ⟨rest, _, rfl, same⟩ | ⟨outside, same⟩
      · cases List.append_cancel_left same
        exact held
      · exact absurd same.symm (outside path nonempty)
    · intro held
      exact ⟨_, by simp [movedUp, nonempty], held⟩
  · intro first one second other key movedFirst movedSecond
    rcases movedUp_cases sole (present one) movedFirst with ⟨rest, full, rfl, rfl⟩ | ⟨outside, rfl⟩
    · rcases movedUp_cases sole (present other) movedSecond with ⟨again, _, rfl, same⟩ | ⟨outside, same⟩
      · rw [List.append_cancel_left same]
      · exact absurd same.symm (outside rest full)
    · rcases movedUp_cases sole (present other) movedSecond with ⟨again, full, rfl, same⟩ | ⟨_, same⟩
      · exact absurd same (outside again full)
      · exact same

theorem entryName_eq_some {name : Text} : entryName directory path = some name ↔ path = directory ++ [name] := by
  unfold entryName
  constructor
  · intro found
    split at found
    · next other under =>
      cases found
      exact below_eq_some.mp under
    · cases found
  · rintro rfl
    rw [below_append]

theorem mem_entryNames {name : Text} : name ∈ entryNames directory tree ↔ tree.get? (directory ++ [name]) ≠ none := by
  rw [entryNames, List.mem_filterMap, Option.ne_none_iff_exists', ← Dict.mem_iff_get?, AList.mem_keys]
  simp only [entryName_eq_some, exists_eq_right]

theorem entryNames_nodup : (entryNames directory tree).Nodup := by
  refine List.Nodup.filterMap ?_ tree.keys_nodup
  intro first second name one other
  rw [Option.mem_def, entryName_eq_some] at one other
  exact one.trans other.symm

theorem eq_singleton_iff {α : Type} {items : List α} (nodup : items.Nodup) {item : α} :
    items = [item] ↔ item ∈ items ∧ ∀ other ∈ items, other = item := by
  constructor
  · rintro rfl
    simp
  · rintro ⟨member, only⟩
    cases items with
    | nil => cases member
    | cons first rest =>
      obtain rfl := only first List.mem_cons_self
      cases rest with
      | nil => rfl
      | cons second rest =>
        obtain rfl := only second (List.mem_cons_of_mem _ List.mem_cons_self)
        exact absurd List.mem_cons_self (List.nodup_cons.mp nodup).1

/-! ### The directory and what the archive holds -/

variable {held : DiskTree}

def Mirrors (directory : List Text) (tree held : DiskTree) : Prop :=
  ∀ path, path ≠ [] → tree.get? (directory ++ path) = held.get? path

structure SingleRoot (held : DiskTree) (root : Text) : Prop where
  meaningful : isIgnorable root = false
  directory : held.get? [root] = some .directory
  only : ∀ name, isIgnorable name = false → held.get? [name] ≠ none → name = root

def Nested (held : DiskTree) : Prop := ∃ root, SingleRoot held root ∧ held.get? [root, root] ≠ none

/-- The directory holds the tree without its metadata, and without its single root directory. -/
inductive Flattened (directory : List Text) (held flat : DiskTree) : Prop
  | kept (rootless : ∀ root, ¬SingleRoot held root)
      (same : ∀ name rest, flat.get? (directory ++ name :: rest) =
        if isIgnorable name then none else held.get? (name :: rest))
  | moved (root : Text) (single : SingleRoot held root)
      (same : ∀ path, path ≠ [] → flat.get? (directory ++ path) = held.get? (root :: path))

def WithParents (held : DiskTree) : Prop :=
  ∀ name rest, held.get? (name :: rest) ≠ none → held.get? [name] ≠ none

theorem meaningful_eq_singleton (mirrors : Mirrors directory tree held) :
    ((entryNames directory tree).filter fun name => !isIgnorable name) = [root] ↔
      isIgnorable root = false ∧ held.get? [root] ≠ none ∧
        ∀ name, isIgnorable name = false → held.get? [name] ≠ none → name = root := by
  have listed (name : Text) : name ∈ (entryNames directory tree).filter (fun name => !isIgnorable name) ↔
      isIgnorable name = false ∧ held.get? [name] ≠ none := by
    rw [List.mem_filter, mem_entryNames, mirrors [name] (List.cons_ne_nil _ _), Bool.not_eq_true', and_comm]
  rw [eq_singleton_iff (entryNames_nodup.filter _), listed, and_assoc]
  simp only [listed, and_imp]

theorem removeMetadata_mirrors (mirrors : Mirrors directory tree held) (name : Text) (rest : List Text) :
    (removeMetadata directory tree).get? (directory ++ name :: rest) =
      if isIgnorable name then none else held.get? (name :: rest) := by
  rw [get?_removeMetadata, mirrors (name :: rest) (List.cons_ne_nil _ _)]

theorem flatten_cases (mirrors : Mirrors directory tree held) (parents : WithParents held) :
    (flattenSingleRootDirectory directory tree = none ∧ Nested held) ∨
      ∃ flat, flattenSingleRootDirectory directory tree = some flat ∧ Flattened directory held flat ∧ ¬Nested held := by
  have kept (rootless : ∀ root, ¬SingleRoot held root) : Flattened directory held (removeMetadata directory tree) :=
    .kept rootless (removeMetadata_mirrors mirrors)
  have single_listed {root : Text} (single : SingleRoot held root) :
      ((entryNames directory tree).filter fun name => !isIgnorable name) = [root] :=
    (meaningful_eq_singleton mirrors).mpr ⟨single.meaningful, by simp [single.directory], single.only⟩
  -- The tree below the directory is known only through what was extracted into it, so each test of the code is read
  -- there.
  unfold flattenSingleRootDirectory
  dsimp only
  split
  next root listed =>
    obtain ⟨meaningful, present, only⟩ := (meaningful_eq_singleton mirrors).mp listed
    have cleared (rest : List Text) :
        (removeMetadata directory tree).get? (directory ++ root :: rest) = held.get? (root :: rest) := by
      rw [removeMetadata_mirrors mirrors, meaningful, if_neg Bool.false_ne_true]
    have same {other : Text} (single : SingleRoot held other) : other = root :=
      only other single.meaningful (by simp [single.directory])
    rw [cleared, cleared]
    split
    next isDirectory =>
      have single : SingleRoot held root := ⟨meaningful, isDirectory, only⟩
      split
      next nested => exact Or.inl ⟨rfl, root, single, Option.isSome_iff_ne_none.mp nested⟩
      next free =>
        refine Or.inr ⟨_, rfl, .moved root single ?_, ?_⟩
        · intro path nonempty
          have sole : Sole directory root (removeMetadata directory tree) := by
            intro name rest there
            rw [removeMetadata_mirrors mirrors] at there
            split at there
            · exact absurd rfl there
            next regular => exact only name (by simpa using regular) (parents name rest there)
          rw [get?_moveUp sole nonempty, cleared]
        · rintro ⟨other, single_other, nested⟩
          cases same single_other
          exact free (Option.isSome_iff_ne_none.mpr nested)
    -- The only entry that is no metadata is a file: nothing is moved.
    next file =>
      have rootless (other : Text) : ¬SingleRoot held other := by
        intro single
        cases same single
        exact file single.directory
      refine Or.inr ⟨_, rfl, kept rootless, ?_⟩
      rintro ⟨other, single, _⟩
      exact rootless other single
  next several =>
    have rootless (other : Text) : ¬SingleRoot held other := fun single => several other (single_listed single)
    refine Or.inr ⟨_, rfl, kept rootless, ?_⟩
    rintro ⟨other, single, _⟩
    exact rootless other single

/-! ### An extraction to a new directory -/

variable {destination : List Text} {entries : List (Packed Text (List UInt8))} {members : List Member}
  {made next : DiskTree}

structure Empty (destination : List Text) (entries : List (Packed Text (List UInt8))) (made : DiskTree) : Prop
    extends Holding destination entries made where
  empty : ∀ path, path ≠ [] → made.get? (destination ++ path) = none

theorem fileAt_placed (resolved : dotDot ∉ destination) (members : List Member) (path : List Text) :
    fileAt (members.map (Member.placed destination)) (destination ++ path) =
      fileAt (members.map Member.packed) path := by
  unfold fileAt
  rw [← List.map_reverse, ← List.map_reverse, List.findSome?_map, List.findSome?_map]
  congr 1
  funext member
  simp [Member.placed_eq resolved]

theorem clash_empty_iff (empty : Empty destination entries made) (members : List Member) :
    Clash (entries ++ members.map (Member.placed destination)) ↔ Clash (members.map Member.packed) := by
  rw [← clash_placed_iff empty.resolved]
  have shows := Shows.of_unpack empty.unpacked
  have free : ¬Clash entries := by
    rw [← unpack_eq_none_iff, empty.unpacked]
    simp
  have vacant {path : List Text} (nonempty : path ≠ []) : ∀ entry, made.get? (destination ++ path) ≠ some entry := by
    simp [empty.empty path nonempty]
  constructor
  · rintro ⟨entry, inside, file, why⟩
    rcases List.mem_append.mp inside with older | newer
    · refine absurd ?_ free
      refine ⟨entry, older, file, why.imp_right ?_⟩
      rintro ⟨other, there, above⟩
      rcases List.mem_append.mp there with old | new
      · exact ⟨other, old, above⟩
      · obtain ⟨member, _, rfl⟩ := List.mem_map.mp new
        have joint : entry.path <+: destination ++ arcname member.filename := by
          rw [← extractedPath_eq empty.resolved]
          exact above.trans (Packed.directory_isPrefix _)
        -- An entry made before stands above the target or in it, and in it there is none.
        rcases List.prefix_or_prefix_of_prefix joint (List.prefix_append _ _) with outer | ⟨rest, under⟩
        · exact ⟨⟨destination, none⟩, empty.there, outer⟩
        · by_cases here : rest = []
          · rw [here, List.append_nil] at under
            exact ⟨⟨destination, none⟩, empty.there, under ▸ List.prefix_rfl⟩
          · obtain ⟨content, found⟩ := fileAt_of_mem older file
            rw [← under] at found
            exact absurd ((shows.file _ _).mpr found) (vacant here _)
    · refine ⟨entry, List.mem_cons_of_mem _ newer, file, why.imp_right ?_⟩
      rintro ⟨other, there, above⟩
      rcases List.mem_append.mp there with old | new
      · obtain ⟨member, _, rfl⟩ := List.mem_map.mp newer
        rw [member.placed_eq empty.resolved] at above ⊢
        by_cases here : member.packed.path = []
        · refine ⟨⟨destination, none⟩, List.mem_cons_self, ?_⟩
          rw [here, List.append_nil]
          exact List.prefix_rfl
        · exact absurd ((shows.directory _).mpr ⟨by simp [here], other, old, above⟩) (vacant here _)
      · exact ⟨other, List.mem_cons_of_mem _ new, above⟩
  · intro clash
    refine clash.mono fun entry member => ?_
    rcases List.mem_cons.mp member with rfl | placed
    · exact List.mem_append_left _ empty.there
    · exact List.mem_append_right _ placed

theorem hasDirectory_placed_iff (resolved : dotDot ∉ destination) (named : ¬Clash (members.map Member.packed))
    (nonempty : path ≠ []) :
    HasDirectory (members.map (Member.placed destination)) (destination ++ path) ↔
      HasDirectory (members.map Member.packed) path := by
  have each {member : Member} (inside : member ∈ members) :
      (member.placed destination).directory = destination ++ member.packed.directory := by
    refine Member.placed_directory resolved ?_
    by_contra unnamed
    obtain ⟨data, empty⟩ := not_or.mp unnamed
    exact named ⟨member.packed, List.mem_map_of_mem inside, Option.isSome_iff_ne_none.mpr data,
      Or.inl (not_not.mp empty)⟩
  unfold HasDirectory
  constructor
  · rintro ⟨_, entry, inside, above⟩
    obtain ⟨member, here, rfl⟩ := List.mem_map.mp inside
    rw [each here] at above
    exact ⟨nonempty, member.packed, List.mem_map_of_mem here, (List.prefix_append_right_inj destination).mp above⟩
  · rintro ⟨_, entry, inside, above⟩
    obtain ⟨member, here, rfl⟩ := List.mem_map.mp inside
    refine ⟨by simp [nonempty], member.placed destination, List.mem_map_of_mem here, ?_⟩
    rw [each here]
    exact (List.prefix_append_right_inj destination).mpr above

theorem parents_of_shows {held : DiskTree} {packed : List (Packed Text (List UInt8))} (shows : Shows held packed) :
    WithParents held := by
  intro name rest present
  obtain ⟨entry, member, above⟩ := (shows.get?_ne_none_iff (List.cons_ne_nil _ _)).mp present
  refine (shows.get?_ne_none_iff (List.cons_ne_nil _ _)).mpr ⟨entry, member, List.IsPrefix.trans ?_ above⟩
  exact List.cons_prefix_cons.mpr ⟨rfl, List.nil_prefix⟩

theorem extraction_mirrors (empty : Empty destination entries made)
    (extracted : unpack (entries ++ members.map (Member.placed destination)) = some next) :
    ∃ held, unpack (members.map Member.packed) = some held ∧ Mirrors destination next held ∧ WithParents held := by
  have free : ¬Clash (members.map Member.packed) := by
    rw [← clash_empty_iff empty, ← unpack_eq_none_iff, extracted]
    simp
  obtain ⟨held, unpacked, shows, _⟩ : ∃ held, unpack (members.map Member.packed) = some held ∧
      Shows held (members.map Member.packed) ∧ ¬Clash (members.map Member.packed) :=
    (unpack_cases _).resolve_left fun failed => free failed.2
  refine ⟨held, unpacked, ?_, parents_of_shows shows⟩
  intro path nonempty
  have before := Shows.of_unpack empty.unpacked
  have after := Shows.of_unpack extracted
  have none_before : fileAt entries (destination ++ path) = none := by
    rw [Option.eq_none_iff_forall_ne_some]
    intro content found
    have there := (before.file _ _).mpr found
    rw [empty.empty path nonempty] at there
    cases there
  have nowhere : ¬HasDirectory entries (destination ++ path) := by
    intro found
    have there := (before.directory _).mpr found
    rw [empty.empty path nonempty] at there
    cases there
  -- At each place the old entries have nothing, so only the members decide.
  ext value
  cases value with
  | file content =>
    rw [after.file, shows.file, fileAt_append, none_before, Option.or_none, fileAt_placed empty.resolved]
  | directory =>
    rw [after.directory, shows.directory, hasDirectory_append, or_iff_right nowhere,
      hasDirectory_placed_iff empty.resolved free nonempty]

/-- The extraction returns when every member is read in full and none clashes. -/
theorem extractMembers_returned_iff (holding : Holding destination entries made)
    (accepted : ∀ member ∈ members, Accepted member.filename) (extractedCount : Nat) :
    (∃ count, (extractMembers destination members extractedCount made).outcome = .ok count) ↔
      (∀ member ∈ members, member.extracted = .complete) ∧
        ¬Clash (entries ++ members.map (Member.placed destination)) := by
  -- The induction carries what is on the disk: the entries that `holding` speaks of grow by the first member.
  induction members generalizing entries made extractedCount with
  | nil =>
    have free : ¬Clash entries := by
      rw [← unpack_eq_none_iff, holding.unpacked]
      simp
    simp [extractMembers, free]
  | cons first rest ih =>
    rcases extractMembers_cons holding accepted extractedCount with
      ⟨failed, run⟩ | ⟨next, placed, ⟨error, broken, run⟩ | ⟨later, complete, same, run⟩⟩
    · have clash : Clash (entries ++ (first :: rest).map (Member.placed destination)) := by
        have here : Clash (entries ++ [first.placed destination]) := by
          rw [← unpack_eq_none_iff, ← extractMember_eq holding, failed]
        refine here.mono fun entry member => ?_
        simp only [List.mem_append, List.mem_singleton] at member
        simp only [List.mem_append, List.map_cons, List.mem_cons]
        exact member.imp_right Or.inl
      rw [run]
      constructor
      · rintro ⟨count, returned⟩
        cases returned
      · rintro ⟨_, free⟩
        exact absurd clash free
    · rw [run]
      simp [broken]
    · rw [run]
      dsimp only
      rw [same, ih (holding.extracted placed) fun member inside => accepted member (List.mem_cons_of_mem _ inside)]
      simp [complete]

theorem extractMembers_unpacked (holding : Holding destination entries made)
    (accepted : ∀ member ∈ members, Accepted member.filename) {extractedCount count : Nat}
    (returned : (extractMembers destination members extractedCount made).outcome = .ok count) :
    unpack (entries ++ members.map (Member.placed destination)) =
      some (extractMembers destination members extractedCount made).tree := by
  induction members generalizing entries made extractedCount with
  | nil => simpa [extractMembers] using holding.unpacked
  | cons first rest ih =>
    obtain ⟨next, later, placed, rfl, returned, run⟩ := extractMembers_cons_ok holding accepted returned
    have unpacked := ih (holding.extracted placed)
      (fun member inside => accepted member (List.mem_cons_of_mem _ inside)) returned
    rwa [run, List.map_cons, ← List.singleton_append, ← List.append_assoc]

/-! ### The commit -/

structure Complete (archive : SafeZipArchive) (destination : List Text) (flat : DiskTree) : Prop where
  read : ∀ member ∈ archive.members, member.extracted = .complete
  shown : ∃ held, unpack (archive.members.map Member.packed) = some held ∧ Flattened destination held flat

structure CommitPromised (archive : SafeZipArchive) (disk : ImportDisk) (committed : Committed) : Prop where
  gone : (∀ dataset, committed.outcome ≠ .returned dataset) → committed.left = none
  complete : ∀ dataset, committed.outcome = .returned dataset →
    ∃ flat, committed.left = some flat ∧ Complete archive disk.destination flat

/-- The part of a commit that cleans up extracts the archive and flattens it. -/
structure Lands (archive : SafeZipArchive) (total : Nat) (around : Surroundings) : Prop where
  room : 0 < around.minFreeBytes → total + around.minFreeBytes ≤ around.freeExtracting
  read : ∀ member ∈ archive.members, member.extracted = .complete
  flattening : around.flatteningFails = false
  unpacked : ∃ held, unpack (archive.members.map Member.packed) = some held ∧ ¬Nested held

theorem checkDiskHeadroom_eq_ok {directory : Text} {free required min : Nat} :
    checkDiskHeadroom directory free required min = .ok () ↔ required + min ≤ free := by
  unfold checkDiskHeadroom
  dsimp only
  split
  · simp
    omega
  · simp
    omega

theorem Empty.of_prepared {disk : ImportDisk} {prepared : Disk} (ready : disk.prepared = some prepared) :
    prepared.destination = disk.destination ∧
      Empty prepared.destination (prepared.entries ++ [⟨prepared.destination, none⟩]) prepared.tree := by
  unfold ImportDisk.prepared at ready
  split at ready
  · cases ready
  next tree made =>
    cases ready
    refine ⟨rfl, ⟨disk.resolved, made, by simp⟩, ?_⟩
    intro path nonempty
    have vacant : disk.tree.get? (disk.destination ++ path) = none := disk.fresh _ (List.prefix_append _ _)
    rw [unpack_append, unpack_append, disk.unpacked, Option.bind_some] at made
    obtain ⟨middle, parent, own⟩ := Option.bind_eq_some_iff.mp made
    have step {before after : DiskTree} {directory : List Text} (above : directory <+: disk.destination)
        (done : unpackOne before ⟨directory, none⟩ = some after) :
        after.get? (disk.destination ++ path) = before.get? (disk.destination ++ path) := by
      rcases unpackOne_cases before ⟨directory, none⟩ with ⟨failed, _⟩ | ⟨result, same, step⟩
      · cases failed.symm.trans done
      · cases same.symm.trans done
        refine step.kept _ ?_ fun file => by cases file
        rintro ⟨_, under⟩
        have short : disk.destination ++ path <+: disk.destination ++ [] := by
          rw [List.append_nil]
          exact List.IsPrefix.trans under above
        exact nonempty (List.prefix_nil.mp ((List.prefix_append_right_inj _).mp short))
    rw [step List.prefix_rfl own, step (List.prefix_append _ _) parent, vacant]

theorem commitInto_cases {archive : SafeZipArchive} {total : Nat} {disk : Disk} {around : Surroundings}
    (valid : archive.validate = .ok total)
    (empty : Empty disk.destination (disk.entries ++ [⟨disk.destination, none⟩]) disk.tree) (dataset : Dataset) :
    (¬Lands archive total around ∧
      ∃ tree error, commitInto dataset archive disk around = cleanUp around tree error) ∨
    (Lands archive total around ∧ ∃ flat, Complete archive disk.destination flat ∧
      commitInto dataset archive disk around = persisted around flat (around.persisting dataset)) := by
  have accepted := (validated_of_validate valid).accepted
  -- The steps in the order of the code: head room, extraction, flattening; whichever fails is cleaned up after.
  by_cases room : 0 < around.minFreeBytes → total + around.minFreeBytes ≤ around.freeExtracting
  · have extracted : archive.extractTo disk around.minFreeBytes around.freeExtracting =
        extractMembers disk.destination archive.members 0 disk.tree := by
      rw [SafeZipArchive.extractTo, valid]
      dsimp only
      split
      next error failed =>
        split at failed
        next needed =>
          rw [checkDiskHeadroom_eq_ok.mpr (room needed)] at failed
          cases failed
        · cases failed
      · rfl
    unfold commitInto
    rw [extracted]
    dsimp only
    cases outcome : (extractMembers disk.destination archive.members 0 disk.tree).outcome with
    | error error =>
      refine Or.inl ⟨?_, _, _, rfl⟩
      intro lands
      obtain ⟨held, unpacked, _⟩ := lands.unpacked
      have free : ¬Clash (archive.members.map Member.packed) := by
        rw [← unpack_eq_none_iff, unpacked]
        simp
      obtain ⟨count, returned⟩ := (extractMembers_returned_iff empty.toHolding accepted 0).mpr
        ⟨lands.read, (clash_empty_iff empty _).not.mpr free⟩
      cases outcome.symm.trans returned
    | ok count =>
      obtain ⟨read, _⟩ := (extractMembers_returned_iff empty.toHolding accepted 0).mp ⟨count, outcome⟩
      obtain ⟨held, unpacked, mirrors, parents⟩ :=
        extraction_mirrors empty (extractMembers_unpacked empty.toHolding accepted outcome)
      rcases flatten_cases mirrors parents with ⟨failed, nested⟩ | ⟨flat, flattened, shown, free⟩
      · refine Or.inl ⟨?_, (extractMembers disk.destination archive.members 0 disk.tree).tree, .flattening, ?_⟩
        · intro lands
          obtain ⟨other, same, unnested⟩ := lands.unpacked
          cases unpacked.symm.trans same
          exact unnested nested
        · simp [failed]
      · cases fails : around.flatteningFails with
        | true =>
          refine Or.inl ⟨?_, _, .flattening, rfl⟩
          intro lands
          cases lands.flattening.symm.trans fails
        | false =>
          refine Or.inr ⟨⟨room, read, fails, held, unpacked, free⟩, flat, ⟨read, held, unpacked, shown⟩, ?_⟩
          rw [if_neg Bool.false_ne_true, flattened]
  · refine Or.inl ⟨fun lands => room lands.room, disk.tree, ?_⟩
    obtain ⟨needed, short⟩ := Classical.not_imp.mp room
    cases checked : checkDiskHeadroom (posix disk.destination) around.freeExtracting total around.minFreeBytes with
    | error error =>
      refine ⟨.archive error, ?_⟩
      rw [commitInto, SafeZipArchive.extractTo, valid]
      dsimp only
      rw [if_pos needed, checked]
    | ok _ => exact absurd (checkDiskHeadroom_eq_ok.mp checked) short

/-- When a commit does what it promises: it fails before it makes the directory, or the archive passes both checks, and
what fails after them is no cancellation and leaves a directory that can be removed. -/
def Cleans (payload : ImportPayload) (projectId : Text) (archive : SafeZipArchive) (disk : ImportDisk)
    (around : Surroundings) : Prop :=
  ∀ finalize, payload.finalizeInput = some finalize → around.directoriesFail = false → disk.prepared.isSome = true →
    ∃ total, archive.validate = .ok total ∧ total + around.minFreeBytes ≤ around.freeBefore ∧
      (around.removable = true ∨ Lands archive total around ∧
        around.persisting (newDataset payload finalize projectId disk.id) ≠ .raised) ∧
      (Lands archive total around →
        around.persisting (newDataset payload finalize projectId disk.id) ≠ .cancelled)

theorem cleanUp_promised_iff (archive : SafeZipArchive) (disk : ImportDisk) (around : Surroundings) (tree : DiskTree)
    (error : CommitError) :
    CommitPromised archive disk (cleanUp around tree error) ↔ around.removable = true := by
  constructor
  · intro promised
    have gone := promised.gone fun dataset returned => by cases returned
    by_contra stays
    simp [cleanUp, stays] at gone
  · intro removable
    refine ⟨fun _ => by simp [cleanUp, removable], ?_⟩
    intro dataset returned
    cases returned

/-- A commit whose directory is there when it raises does not keep the promise. -/
theorem not_promised_of_left {archive : SafeZipArchive} {disk : ImportDisk} {outcome : CommitOutcome} {tree : DiskTree}
    (fails : ∀ dataset, outcome ≠ .returned dataset) : ¬CommitPromised archive disk ⟨outcome, some tree⟩ :=
  fun promised => Option.some_ne_none _ (promised.gone fails)

theorem promised_of_nothing {archive : SafeZipArchive} {disk : ImportDisk} {error : CommitError} :
    CommitPromised archive disk ⟨.raised error, none⟩ :=
  ⟨fun _ => rfl, fun dataset returned => by cases returned⟩

/-- A commit that raises leaves no directory, and one that returns leaves the whole dataset, just when it cleans up. -/
theorem commit_promised_iff (payload : ImportPayload) (projectId : Text) (archive : SafeZipArchive) (disk : ImportDisk)
    (around : Surroundings) :
    CommitPromised archive disk (commit payload projectId archive disk around) ↔
      Cleans payload projectId archive disk around := by
  unfold commit Cleans
  -- Whatever ends before the directories are made keeps the promise, as there is nothing to leave behind.
  cases payload.finalizeInput with
  | none => exact iff_of_true promised_of_nothing fun finalize given => by cases given
  | some finalize =>
    dsimp only
    cases around.directoriesFail with
    | true => exact iff_of_true promised_of_nothing fun _ _ made => by cases made
    | false =>
      rw [if_neg Bool.false_ne_true]
      cases ready : disk.prepared with
      | none => exact iff_of_true promised_of_nothing fun _ _ _ made => by cases made
      | some prepared =>
        dsimp only
        cases valid : archive.validate with
        | error error =>
          refine iff_of_false (not_promised_of_left fun dataset returned => by cases returned) fun cleans => ?_
          obtain ⟨total, passed, _⟩ := cleans finalize rfl rfl rfl
          cases passed
        | ok total =>
          dsimp only
          cases checked : checkDiskHeadroom (posix disk.datasetsDir) around.freeBefore total around.minFreeBytes with
          | error error =>
            refine iff_of_false (not_promised_of_left fun dataset returned => by cases returned) fun cleans => ?_
            obtain ⟨_, passed, room, _⟩ := cleans finalize rfl rfl rfl
            cases passed
            cases checked.symm.trans (checkDiskHeadroom_eq_ok.mpr room)
          | ok _ =>
            have room := checkDiskHeadroom_eq_ok.mp checked
            obtain ⟨same, empty⟩ := Empty.of_prepared ready
            dsimp only
            -- Only one draft can have been given, which takes the quantifiers out of the condition.
            have cleans : (∀ given, some finalize = some given → false = false → (some prepared).isSome = true →
                ∃ other, Except.ok total = (.ok other : Except ArchiveError Nat) ∧
                  other + around.minFreeBytes ≤ around.freeBefore ∧
                  (around.removable = true ∨ Lands archive other around ∧
                    around.persisting (newDataset payload given projectId disk.id) ≠ .raised) ∧
                  (Lands archive other around →
                    around.persisting (newDataset payload given projectId disk.id) ≠ .cancelled)) ↔
                (around.removable = true ∨ Lands archive total around ∧
                  around.persisting (newDataset payload finalize projectId disk.id) ≠ .raised) ∧
                (Lands archive total around →
                  around.persisting (newDataset payload finalize projectId disk.id) ≠ .cancelled) := by
              constructor
              · intro every
                obtain ⟨_, passed, _, kept⟩ := every finalize rfl rfl rfl
                cases passed
                exact kept
              · intro kept given same _ _
                cases same
                exact ⟨total, rfl, room, kept⟩
            rw [cleans]
            generalize newDataset payload finalize projectId disk.id = dataset
            -- From here on it is decided by whether the extraction lands, and by how the dataset is persisted.
            rcases commitInto_cases valid empty dataset with ⟨fails, tree, error, run⟩ | ⟨lands, flat, complete, run⟩
            · rw [run, cleanUp_promised_iff]
              simp [fails]
            · rw [run]
              cases answer : around.persisting dataset with
              | saved saved =>
                refine iff_of_true ⟨fun never => absurd rfl (never saved), ?_⟩ (by simp [lands])
                intro _ _
                exact ⟨flat, rfl, same ▸ complete⟩
              | raised =>
                rw [persisted, cleanUp_promised_iff]
                simp
              | cancelled =>
                refine iff_of_false (not_promised_of_left fun dataset returned => by cases returned) ?_
                simp [lands]

/-- The disk is too full for a dataset of two bytes beside what has to stay free. -/
theorem full_disk_keeps_directory :
    ¬∀ (payload : ImportPayload) (projectId : Text) (archive : SafeZipArchive) (disk : ImportDisk)
      (around : Surroundings), CommitPromised archive disk (commit payload projectId archive disk around) := by
  intro every
  have promised := every ⟨none, some ⟨"pick".toList, "env".toList⟩⟩ "project".toList nestedArchive
    { datasetsDir := ["datasets".toList], id := "new".toList, resolved := by decide, entries := [], tree := ∅,
      unpacked := rfl, fresh := fun _ _ => rfl }
    { directoriesFail := false, minFreeBytes := 8, freeBefore := 9, freeExtracting := 9, flatteningFails := false,
      persisting := .saved, removable := true }
  have gone := promised.gone fun dataset returned => by cases returned
  cases gone

end PhysicalAiStudio.Archives
