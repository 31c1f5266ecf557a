import PhysicalAiStudio.Archives.CommitSafety

/-! The archives that Studio and the trainer make of a folder, and how the other side unpacks them.

`create_dataset_archive` and `archive_model` write the files of a folder in the order of `rglob`, which follows links
to files. `validate_and_extract` takes a single wrapping directory away, `_extract_archive` does not.
-/

set_option autoImplicit false

namespace PhysicalAiStudio.Archives

open Files.Unpacking Strings Collections

/-! ### A folder and its archive -/

structure IsFileName (name : Text) : Prop where
  nonempty : name ≠ []
  slashless : '/' ∉ name
  notDot : name ≠ dot
  notDotDot : name ≠ dotDot

/-- A regular file below a folder, with its permission bits. -/
structure FolderFile where
  path : List Text
  data : List UInt8
  permissions : Nat
  nonempty : path ≠ []
  named : ∀ name ∈ path, IsFileName name
  plain : permissions < 0o10000

structure Folder where
  files : List FolderFile
  /-- No two files are at one path, and a file is no directory. -/
  apart : files.Pairwise fun file other => ¬file.path <+: other.path ∧ ¬other.path <+: file.path

namespace FolderFile

/-- The name that `archive.write` gives the member: `path.relative_to(folder)`. -/
def arcname (file : FolderFile) : Text := ['/'].intercalate file.path

/-- `(st_mode & 0xFFFF) << 16` of a regular file. -/
def externalAttr (file : FolderFile) : Nat := (0o100000 + file.permissions) <<< 16

def member (file : FolderFile) : Member where
  filename := file.arcname
  externalAttr := file.externalAttr
  fileSize := file.data.length
  data := file.data
  bounded := Nat.le_refl file.data.length
  ending := .complete

end FolderFile

/-- `create_dataset_archive`, and the part of `archive_model` that writes. -/
def Folder.members (folder : Folder) : List Member := folder.files.map FolderFile.member

/-! ### Unpacking it -/

structure ArchiveSettings where
  maxUncompressedBytes : Nat
  minFreeBytes : Nat

/-- The archive of a folder as a reader opens it, with the default limit on entries. -/
def Folder.archive (folder : Folder) (settings : ArchiveSettings) : SafeZipArchive where
  members := folder.members
  maxUncompressedBytes := settings.maxUncompressedBytes
  maxFileCount := none

inductive UnpackError where
  | archive (error : ArchiveError)
  | directories
  | flattening
  deriving DecidableEq

/-- What the disk does: whether the target's directory can be made, how much is free, and whether flattening meets an
error of the disk. -/
structure UnpackDisk extends ImportDisk where
  directoriesFail : Bool
  free : Nat
  flatteningFails : Bool

namespace SafeZipArchive

variable (archive : SafeZipArchive) (minFreeBytes : Nat) (disk : UnpackDisk)

/-- `RemoteTrainingBackend._extract_archive`: what is on the disk when it returns. -/
def extractArchive : Except UnpackError DiskTree :=
  match archive.validate with
  | .error error => .error (.archive error)
  | .ok _ =>
    match if disk.directoriesFail then none else disk.prepared with
    | none => .error .directories
    | some prepared =>
      let extraction := archive.extractTo prepared minFreeBytes disk.free
      match extraction.outcome with
      | .error error => .error (.archive error)
      | .ok _ => .ok extraction.tree

def validateAndExtract : Except UnpackError DiskTree :=
  match archive.extractArchive minFreeBytes disk with
  | .error error => .error error
  | .ok tree =>
    match if disk.flatteningFails then none else flattenSingleRootDirectory disk.destination tree with
    | none => .error .flattening
    | some flat => .ok flat

end SafeZipArchive

/-! ### What is to come of it -/

namespace Folder

variable (folder : Folder)

def Restored (directory : List Text) (tree : DiskTree) : Prop :=
  ∀ path content, path ≠ [] → (tree.get? (directory ++ path) = some (.file content) ↔
    ∃ file ∈ folder.files, file.path = path ∧ file.data = content)

structure Passes (settings : ArchiveSettings) (disk : UnpackDisk) : Prop where
  count : folder.files.length ≤ defaultMaxFileCount
  size : (folder.files.map fun file => file.data.length).sum ≤ settings.maxUncompressedBytes
  names : ∀ file ∈ folder.files, Accepted file.arcname
  unnested : ∀ file ∈ folder.files, (suffix (normalizeZipMemberName file.arcname)).map Char.toLower ≠ ".zip".toList
  directories : disk.directoriesFail = false ∧ disk.prepared.isSome = true
  room : 0 < settings.minFreeBytes →
    (folder.files.map fun file => file.data.length).sum + settings.minFreeBytes ≤ disk.free

def Wrapped : Prop :=
  folder.files ≠ [] ∧ ∃ root, ∀ file ∈ folder.files, ∃ rest, rest ≠ [] ∧ file.path = root :: rest

def FreeOfMetadata : Prop := ∀ file ∈ folder.files, ∀ name rest, file.path = name :: rest → isIgnorable name = false

end Folder

end PhysicalAiStudio.Archives
