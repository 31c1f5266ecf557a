import PhysicalAiStudio.Archives.Extraction

/-! The commit of a LeRobot import: `LeRobotV3Adapter.commit` and `flatten_single_root_directory`.

What the disk and the caller do beside the archive is a record: whether the directories can be made, how much is free
at the two checks, whether flattening meets an error of the disk, how persisting ends, and whether the directory can be
removed. Metadata directories of an archive are taken to be removable.
-/

set_option autoImplicit false

namespace PhysicalAiStudio.Archives

open Files.Unpacking Strings Collections

/-! ### Flattening -/

def isIgnorable (name : Text) : Bool :=
  name = "__MACOSX".toList || name = ".DS_Store".toList || "._".toList.isPrefixOf name

def below (directory path : List Text) : Option (List Text) :=
  if directory <+: path then some (path.drop directory.length) else none

def entryName (directory path : List Text) : Option Text :=
  match below directory path with
  | some [name] => some name
  | _ => none

def entryNames (directory : List Text) (tree : DiskTree) : List Text := tree.keys.filterMap (entryName directory)

def withoutMetadata (directory path : List Text) : Option (List Text) :=
  match below directory path with
  | some (name :: _) => if isIgnorable name then none else some path
  | _ => some path

def removeMetadata (directory : List Text) (tree : DiskTree) : DiskTree := tree.rename (withoutMetadata directory)

def movedUp (directory : List Text) (root : Text) (path : List Text) : Option (List Text) :=
  match below directory path with
  | some (name :: rest) =>
    if name = root then (if rest = [] then none else some (directory ++ rest)) else some path
  | _ => some path

def moveUp (directory : List Text) (root : Text) (tree : DiskTree) : DiskTree := tree.rename (movedUp directory root)

/-- `flatten_single_root_directory`; nothing where moving raises, as a child has the name of the directory. -/
def flattenSingleRootDirectory (directory : List Text) (tree : DiskTree) : Option DiskTree :=
  let meaningful := (entryNames directory tree).filter fun name => !isIgnorable name
  let tree := removeMetadata directory tree
  match meaningful with
  | [root] =>
    if tree.get? (directory ++ [root]) = some .directory then
      if (tree.get? (directory ++ [root, root])).isSome then none else some (moveUp directory root tree)
    else some tree
  | _ => some tree

/-! ### Commit -/

structure FinalizeInput where
  defaultTask : Text
  environmentId : Text

structure ImportPayload where
  datasetName : Option Text
  finalizeInput : Option FinalizeInput

structure Dataset where
  id : Text
  name : Text
  defaultTask : Text
  projectId : Text
  environmentId : Text
  deriving DecidableEq

inductive Persisting where
  | saved (dataset : Dataset)
  | raised
  | cancelled

/-- A disk on which nothing has the name of the new dataset. -/
structure ImportDisk where
  datasetsDir : List Text
  id : Text
  resolved : dotDot ∉ datasetsDir ++ [id]
  entries : List (Packed Text (List UInt8))
  tree : DiskTree
  unpacked : unpack entries = some tree
  fresh : ∀ path, datasetsDir ++ [id] <+: path → tree.get? path = none

def ImportDisk.destination (disk : ImportDisk) : List Text := disk.datasetsDir ++ [disk.id]

/-- The disk with the datasets directory and the dataset's own one made, unless a file is in the way. -/
def ImportDisk.prepared (disk : ImportDisk) : Option Disk :=
  match made : unpack (disk.entries ++ [⟨disk.datasetsDir, none⟩] ++ [⟨disk.destination, none⟩]) with
  | none => none
  | some tree => some ⟨disk.destination, disk.resolved, disk.entries ++ [⟨disk.datasetsDir, none⟩], tree, made⟩

structure Surroundings where
  directoriesFail : Bool
  minFreeBytes : Nat
  freeBefore : Nat
  freeExtracting : Nat
  flatteningFails : Bool
  persisting : Dataset → Persisting
  removable : Bool

inductive CommitError where
  /-- "Cannot commit dataset import without finalize input" -/
  | noFinalizeInput
  | directories
  | archive (error : ArchiveError)
  | flattening
  | persisting
  deriving DecidableEq

inductive CommitOutcome where
  | returned (dataset : Dataset)
  | raised (error : CommitError)
  | cancelled

/-- How a commit ends, and the disk with the dataset's directory where that is there. -/
structure Committed where
  outcome : CommitOutcome
  left : Option DiskTree

/-- The handler of the commit's errors: `rmtree` and `raise`. -/
def cleanUp (around : Surroundings) (tree : DiskTree) (error : CommitError) : Committed :=
  ⟨.raised error, if around.removable then none else some tree⟩

def newDataset (payload : ImportPayload) (finalize : FinalizeInput) (projectId id : Text) : Dataset where
  id := id
  name := match payload.datasetName with
    | some name => if name = [] then "Imported Dataset".toList else name
    | none => "Imported Dataset".toList
  defaultTask := finalize.defaultTask
  projectId := projectId
  environmentId := finalize.environmentId

/-- How a commit with a flattened directory ends; a cancellation is no `Exception`. -/
def persisted (around : Surroundings) (flat : DiskTree) : Persisting → Committed
  | .saved saved => ⟨.returned saved, some flat⟩
  | .raised => cleanUp around flat .persisting
  | .cancelled => ⟨.cancelled, some flat⟩

def commitInto (dataset : Dataset) (archive : SafeZipArchive) (disk : Disk) (around : Surroundings) : Committed :=
  let extraction := archive.extractTo disk around.minFreeBytes around.freeExtracting
  match extraction.outcome with
  | .error error => cleanUp around extraction.tree (.archive error)
  | .ok _ =>
    match if around.flatteningFails then none else flattenSingleRootDirectory disk.destination extraction.tree with
    | none => cleanUp around extraction.tree .flattening
    | some flat => persisted around flat (around.persisting dataset)

def commit (payload : ImportPayload) (projectId : Text) (archive : SafeZipArchive) (disk : ImportDisk)
    (around : Surroundings) : Committed :=
  match payload.finalizeInput with
  | none => ⟨.raised .noFinalizeInput, none⟩
  | some finalize =>
    match if around.directoriesFail then none else disk.prepared with
    | none => ⟨.raised .directories, none⟩
    | some prepared =>
      -- Both checks come before the part that cleans up.
      match archive.validate with
      | .error error => ⟨.raised (.archive error), some prepared.tree⟩
      | .ok total =>
        match checkDiskHeadroom (posix disk.datasetsDir) around.freeBefore total around.minFreeBytes with
        | .error error => ⟨.raised (.archive error), some prepared.tree⟩
        | .ok _ => commitInto (newDataset payload finalize projectId disk.id) archive prepared around

end PhysicalAiStudio.Archives
