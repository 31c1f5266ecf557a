import PhysicalAiStudio.Files.Unpacking
import PhysicalAiStudio.Strings.Text

/-! Validation and extraction of an uploaded ZIP archive: `archive_safety.py`.

A path is the list of its names below the root of the file system, and the disk holds files and directories only.
What `zipfile` extracts a member to is computed from the raw name, and what the archive reports from the normalized
one.
-/

set_option autoImplicit false

namespace PhysicalAiStudio.Archives

open Files.Unpacking Strings

structure ZipInfo where
  filename : Text
  externalAttr : Nat
  fileSize : Nat

def ZipInfo.isDir (info : ZipInfo) : Bool := info.filename.getLast? = some '/'

inductive Ending where
  | complete
  | badZipFile
  | failed
  deriving DecidableEq

/-- A member with what its reading yields, at most its declared size. -/
structure Member extends ZipInfo where
  data : List UInt8
  bounded : data.length ≤ fileSize
  ending : Ending

inductive ArchiveError where
  | zipBombDetected (message : Text)
  | insufficientDiskSpace (message : Text)
  | invalidArchive (message : Text)
  /-- An error of the disk or of `zipfile` that is passed on. -/
  | raised
  deriving DecidableEq

def notAZip : Text := "Uploaded file is not a valid ZIP archive".toList

/-! ### Names -/

def dot : Text := ['.']

def dotDot : Text := ['.', '.']

/-- `str.removeprefix("./")`. -/
def removeDotSlash : Text → Text
  | '.' :: '/' :: rest => rest
  | name => name

def normalizeZipMemberName (name : Text) : Text :=
  removeDotSlash (stripOf (· = '/') (name.map fun c => if c = '\\' then '/' else c))

/-- The parts of a `Path`, without its root. -/
def parts (path : Text) : List Text := (path.splitOn '/').filter fun part => part ≠ [] ∧ part ≠ dot

def isAbsolute (path : Text) : Bool := path.head? = some '/'

def suffix (path : Text) : Text :=
  let name := (parts path).getLastD []
  let tail := name.rtakeWhile (· ≠ '.')
  if tail ≠ [] ∧ tail.length + 1 < name.length then '.' :: tail else []

/-! ### Validation -/

def isSymlink (externalAttr : Nat) : Bool := (externalAttr >>> 16) &&& 0o120000 = 0o120000

def collectTotalUncompressed (members : List ZipInfo) : Nat := (members.map ZipInfo.fileSize).sum

def unsafePath (filename : Text) : ArchiveError :=
  .zipBombDetected ("Archive contains unsafe entry path '".toList ++ filename ++ "'".toList)

def validateEntry (member : ZipInfo) : Except ArchiveError Unit :=
  let name := normalizeZipMemberName member.filename
  if isSymlink member.externalAttr then
    .error (.zipBombDetected
      ("Archive contains symlink entry '".toList ++ name ++ "', which is not allowed".toList))
  else if isAbsolute name ∨ dotDot ∈ parts name then .error (unsafePath member.filename)
  else if (suffix name).map Char.toLower = ".zip".toList then
    .error (.zipBombDetected
      ("Archive contains nested zip entry '".toList ++ member.filename ++ "', which is not allowed".toList))
  else .ok ()

def defaultMaxFileCount : Nat := 200000

def validateZipEntries (members : List ZipInfo) (maxFileCount : Option Nat) (maxUncompressedBytes : Nat) :
    Except ArchiveError Nat :=
  let limit := maxFileCount.getD defaultMaxFileCount
  let total := collectTotalUncompressed members
  if limit < members.length then
    .error (.zipBombDetected ("Archive contains too many entries (".toList ++ decimal members.length ++
      " > ".toList ++ decimal limit ++ ")".toList))
  else if maxUncompressedBytes < total then
    .error (.zipBombDetected ("Archive uncompressed size exceeds allowed limit (".toList ++ decimal total ++
      " > ".toList ++ decimal maxUncompressedBytes ++ " bytes)".toList))
  else (members.forM validateEntry).map fun _ => total

/-! ### Extraction -/

abbrev DiskTree := Tree Text (List UInt8)

structure Disk where
  destination : List Text
  resolved : dotDot ∉ destination
  entries : List (Packed Text (List UInt8))
  tree : DiskTree
  unpacked : unpack (entries ++ [⟨destination, none⟩]) = some tree

/-- The normal form of a path of a disk without symbolic links. -/
def resolve (names : List Text) : List Text :=
  names.foldl (fun done name => if name = dotDot then done.dropLast else done ++ [name]) []

def reportedPath (destination : List Text) (name : Text) : List Text :=
  resolve (if isAbsolute name then parts name else destination ++ parts name)

/-- The names that `ZipFile.extract` makes of a raw name. -/
def arcname (filename : Text) : List Text := (parts filename).filter (· ≠ dotDot)

def extractedPath (destination : List Text) (filename : Text) : List Text :=
  resolve (destination ++ arcname filename)

def Member.content (member : Member) : Option (List UInt8) := if member.isDir then none else some member.data

/-- `ZipFile.extract`, which returns no tree where it raises before it opens its target. Nothing is made then, as
what is in the way has its parents. -/
def extractMember (destination : List Text) (tree : DiskTree) (member : Member) : Option DiskTree :=
  if arcname member.filename = [] ∧ member.isDir = false then none
  else unpackOne tree ⟨extractedPath destination member.filename, member.content⟩

/-- A member that was written to a path: its directory, or a file with its data. -/
structure Write where
  member : Member
  path : List Text

def Write.bytes (write : Write) : Nat := (write.member.content.getD []).length

structure Extraction where
  tree : DiskTree
  written : List Write
  outcome : Except ArchiveError Nat

/-- How the extraction of a member ends; a directory is not read. -/
def Member.extracted (member : Member) : Ending := if member.isDir then .complete else member.ending

def extractMembers (destination : List Text) : List Member → Nat → DiskTree → Extraction
  | [], extractedCount, tree => ⟨tree, [], .ok extractedCount⟩
  | member :: rest, extractedCount, tree =>
    -- The normalized name is checked; `zipfile` derives the path it writes from the raw one.
    if ¬destination <+: reportedPath destination (normalizeZipMemberName member.filename) then
      ⟨tree, [], .error (unsafePath member.filename)⟩
    else match extractMember destination tree member with
      | none => ⟨tree, [], .error .raised⟩
      | some tree =>
        let write := ⟨member, extractedPath destination member.filename⟩
        match member.extracted with
        | .complete =>
          let extractedCount := if member.isDir then extractedCount else extractedCount + 1
          let later := extractMembers destination rest extractedCount tree
          { later with written := write :: later.written }
        | .badZipFile => ⟨tree, [write], .error (.invalidArchive notAZip)⟩
        | .failed => ⟨tree, [write], .error .raised⟩

structure SafeZipArchive where
  members : List Member
  maxUncompressedBytes : Nat
  maxFileCount : Option Nat

namespace SafeZipArchive

def infos (archive : SafeZipArchive) : List ZipInfo := archive.members.map Member.toZipInfo

def validate (archive : SafeZipArchive) : Except ArchiveError Nat :=
  validateZipEntries archive.infos archive.maxFileCount archive.maxUncompressedBytes

def iterNormalizedNames (archive : SafeZipArchive) : Except ArchiveError (List Text) :=
  archive.validate.map fun _ => archive.members.map fun member => normalizeZipMemberName member.filename

end SafeZipArchive

def checkDiskHeadroom (directory : Text) (free requiredBytes minFreeBytes : Nat) : Except ArchiveError Unit :=
  let needed := requiredBytes + minFreeBytes
  if free < needed then
    .error (.insufficientDiskSpace ("Insufficient disk space on '".toList ++ directory ++ "': ".toList ++
      decimal free ++ " bytes free, need ".toList ++ decimal needed ++ " bytes (".toList ++ decimal requiredBytes ++
      " for data + ".toList ++ decimal minFreeBytes ++ " headroom)".toList))
  else .ok ()

def posix (names : List Text) : Text := '/' :: ['/'].intercalate names

def SafeZipArchive.extractTo (archive : SafeZipArchive) (disk : Disk) (minFreeBytes free : Nat) : Extraction :=
  match archive.validate with
  | .error error => ⟨disk.tree, [], .error error⟩
  | .ok total =>
    match if 0 < minFreeBytes then checkDiskHeadroom (posix disk.destination) free total minFreeBytes else .ok () with
    | .error error => ⟨disk.tree, [], .error error⟩
    | .ok _ => extractMembers disk.destination archive.members 0 disk.tree

end PhysicalAiStudio.Archives
