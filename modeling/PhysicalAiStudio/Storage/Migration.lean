import PhysicalAiStudio.Concurrency.Transition
import PhysicalAiStudio.Files.Disk

/-! How the storage of an earlier version is moved to where this one keeps it.

A start of the program moves the old directory, rewrites the paths in the database and moves
the file of the database. Each call to the file system and each statement to the database is
a step that is done or fails, and between any two of them the program can be killed. The next
start finds the disk as it was left.
-/

set_option autoImplicit false

namespace PhysicalAiStudio.Storage
open Strings Files Collections Concurrency

variable {Content : Type}

def path (text : String) : PurePath := PurePath.parse text.toList

/-! ### Where things are -/

structure Installation where
  home : PurePath
  storageDir : PurePath
  dataDirEnv : Option PurePath
  databaseFile : PurePath
  workingDirectory : Place

def oldDefaultDataDirCandidates : List PurePath := [path "data", path "/app/data"]

def expectedStorageSubdirs : List Text :=
  ["models".toList, "cache".toList, "snapshots".toList, "datasets".toList, "robots".toList, "logs".toList]

namespace Installation

variable (inst : Installation)

def oldStorageDir : PurePath := inst.home.joinpath (path ".cache/physicalai")

def dataDir : PurePath := inst.storageDir.joinpath (path "data")

def place (path : PurePath) : Place := path.place inst.workingDirectory

def oldPlace : Place := inst.place inst.oldStorageDir

def newPlace : Place := inst.place inst.storageDir

def databasePlace : Place := inst.place (inst.dataDir.joinpath inst.databaseFile)

def sourcePlaces : List Place :=
  (inst.dataDirEnv.toList ++ oldDefaultDataDirCandidates).map fun dataDir =>
    inst.place (dataDir.joinpath inst.databaseFile)

def resolveSourceDatabasePath (present : Place → Bool) : Option Place := inst.sourcePlaces.find? present

def resolveDatabasePath (present : Place → Bool) : Place :=
  if present inst.databasePlace then inst.databasePlace
  else (inst.resolveSourceDatabasePath present).getD inst.databasePlace

def rewritePathPrefix (value : Text) : Text :=
  match (PurePath.parse value).relativeTo inst.oldStorageDir with
  | none => value
  | some relative => (inst.storageDir.joinpath relative).text

end Installation

/-! ### The database -/

/-- The path of each row of the three tables that have one, by the row's primary key. -/
structure Tables where
  datasets : Dict Text Text
  models : Dict Text Text
  snapshots : Dict Text Text

instance : DecidableEq Tables := fun first second =>
  decidable_of_iff (first.datasets.items = second.datasets.items ∧ first.models.items = second.models.items ∧
    first.snapshots.items = second.snapshots.items) (by
    rw [Dict.items_inj, Dict.items_inj, Dict.items_inj]
    cases first
    cases second
    exact (Tables.mk.injEq ..).to_iff.symm)

inductive Table where
  | datasets
  | models
  | snapshots
  deriving DecidableEq

def Tables.rows (tables : Tables) : Table → Dict Text Text
  | .datasets => tables.datasets
  | .models => tables.models
  | .snapshots => tables.snapshots

def Tables.setPath (tables : Tables) (id value : Text) : Table → Tables
  | .datasets => { tables with datasets := tables.datasets.set id value }
  | .models => { tables with models := tables.models.set id value }
  | .snapshots => { tables with snapshots := tables.snapshots.set id value }

/-- What the database engine reads in a file, if it is a database with these tables, and what a committed
transaction leaves in it. -/
structure Sqlite (Content : Type) where
  tables : Content → Option Tables
  stored : Content → Tables → Content
  tables_stored : ∀ content before after, tables content = some before → tables (stored content after) = some after

inductive Statement where
  | select (table : Table)
  | update (table : Table) (id value : Text)
  deriving DecidableEq

def Installation.changes (inst : Installation) (rows : Dict Text Text) : List (Text × Text) :=
  rows.items.filterMap fun row =>
    let rewritten := inst.rewritePathPrefix row.2
    if rewritten ≠ row.2 then some (row.1, rewritten) else none

def Installation.updates (inst : Installation) (table : Table) (rows : Dict Text Text) : List Statement :=
  (inst.changes rows).map fun row => .update table row.1 row.2

def rewriteStatements : List Statement := [.select .datasets, .select .models, .select .snapshots]

/-! ### A start and its phases -/

structure Start where
  storageDirSet : Bool
  autoMigrate : Option Text
  interactive : Bool
  confirmStorage : Bool
  confirmDatabase : Bool
  deriving DecidableEq

def envFlag (value : Option Text) : Bool :=
  (value.getD []).map Char.toLower ∈ ["1".toList, "true".toList, "yes".toList, "on".toList]

def Start.consents (start : Start) (confirm : Bool) : Bool :=
  envFlag start.autoMigrate || (start.interactive && confirm)

/-- `_move_storage_dir` and `_move_file` move one or the other. -/
inductive Move where
  | storage
  | database (source : Place)
  deriving DecidableEq

/-- Where a move is: at its rename, or in `shutil.move`, which tries that again, copies the entries that are left and
then removes those that are left. -/
inductive MoveStage where
  | first
  | second
  | copying (rest : List Place) (whole : Bool)
  | removing (rest : List Place)
  deriving DecidableEq

inductive Phase where
  | removingScaffold (rest : List Place)
  | makingParent (move : Move) (rest : List Place)
  | moving (move : Move) (stage : MoveStage)
  | connecting (database : Place)
  | rewriting (database : Place) (loaded draft : Tables) (todo : List Statement)
  deriving DecidableEq

inductive Outcome where
  | returned
  | raised
  | killed
  deriving DecidableEq

inductive Process where
  | stopped (outcome : Option Outcome)
  | running (start : Start) (phase : Phase)
  deriving DecidableEq

structure State (Content : Type) where
  disk : Disk Content
  process : Process

/-- A failed copy may have created the entry, with some content if it is a file. -/
inductive Attempt (Content : Type) where
  | done
  | failed (written : Option Content)

def Attempt.isDone : Attempt Content → Bool
  | .done => true
  | .failed _ => false

def copied (entry : Unpacking.Entry Content) : Attempt Content → Option (Unpacking.Entry Content)
  | .done => some entry
  | .failed none => none
  | .failed (some written) =>
    match entry with
    | .file _ => some (.file written)
    | .directory => some .directory

/-- A call is one to the file system or to the database, or the return from a loop. An entry is one of a tree that is
copied or removed, in any order that the file system lists. -/
inductive Event (Content : Type) where
  | start (start : Start)
  | call (done : Bool)
  | entry (place : Place) (attempt : Attempt Content)
  | kill

def raised (disk : Disk Content) : Option (State Content) := some ⟨disk, .stopped (some .raised)⟩

def missingParents (disk : Disk Content) (place : Place) : List Place :=
  place.dropLast.inits.filter fun parent => disk.present parent = false

def isEffectivelyEmptyStorageDir (disk : Disk Content) (place : Place) : Bool :=
  !disk.present place ||
    (disk.isDirectory place && (disk.children place).all fun child =>
      (child.getLast?.any fun name => name ∈ expectedStorageSubdirs) && disk.isDirectory child &&
        (disk.children child).isEmpty)

namespace Installation

variable (inst : Installation) (sqlite : Sqlite Content)

def source : Move → Place
  | .storage => inst.oldPlace
  | .database source => source

def destination : Move → Place
  | .storage => inst.newPlace
  | .database _ => inst.databasePlace

/-- `_migrate_default_database_file`, up to its first change of the disk. -/
def migrateDatabaseFile (start : Start) (disk : Disk Content) : Process :=
  match inst.resolveSourceDatabasePath disk.present with
  | none => .stopped (some .returned)
  | some source =>
    if source = inst.databasePlace then .stopped (some .returned)
    else if disk.present inst.databasePlace then .stopped (some .raised)
    else if start.consents start.confirmDatabase then
      .running start (.makingParent (.database source) (missingParents disk inst.databasePlace))
    else .stopped (some .raised)

/-- `_migrate_default_storage_dir`, up to its first change of the disk. -/
def migrateStorageDir (start : Start) (disk : Disk Content) : Process :=
  if disk.present inst.oldPlace = false then inst.migrateDatabaseFile start disk
  else if inst.oldPlace = inst.newPlace then inst.migrateDatabaseFile start disk
  else if start.storageDirSet && !envFlag start.autoMigrate then inst.migrateDatabaseFile start disk
  else if isEffectivelyEmptyStorageDir disk inst.newPlace = false then .stopped (some .raised)
  else if start.consents start.confirmStorage then .running start (.removingScaffold (disk.tree inst.newPlace))
  else .stopped (some .raised)

def rewriteDatabasePaths (start : Start) (disk : Disk Content) : Process :=
  let database := inst.resolveDatabasePath disk.present
  if disk.present database then .running start (.connecting database) else inst.migrateDatabaseFile start disk

def moved (start : Start) (disk : Disk Content) : Move → State Content
  | .storage => ⟨disk, inst.rewriteDatabasePaths start disk⟩
  | .database _ => ⟨disk, .stopped (some .returned)⟩

/-! ### The steps -/

def callMove (start : Start) (disk : Disk Content) (move : Move) (done : Bool) : MoveStage → Option (State Content)
  -- `rename` first, then `shutil.move`, which renames once more before it copies and removes.
  | .first =>
    if done then (disk.move (inst.source move) (inst.destination move)).map fun disk => inst.moved start disk move
    else some ⟨disk, .running start (.moving move .second)⟩
  | .second =>
    if done then (disk.move (inst.source move) (inst.destination move)).map fun disk => inst.moved start disk move
    else if disk.present (inst.source move) = false ∨ inst.source move <+: inst.destination move then raised disk
    else some ⟨disk, .running start (.moving move (.copying (disk.tree (inst.source move)) true))⟩
  | .copying rest whole =>
    if done then
      if rest ≠ [] then none
      else if whole then some ⟨disk, .running start (.moving move (.removing (disk.tree (inst.source move))))⟩
      else raised disk
    else raised disk
  | .removing rest =>
    if done then if rest = [] then some (inst.moved start disk move) else none
    else raised disk

/-- One entry of `shutil.copytree`, once its parent's turn is over: it is left out where that was not copied. -/
def copyEntry (start : Start) (disk : Disk Content) (move : Move) (rest : List Place) (whole : Bool) (place : Place)
    (attempt : Attempt Content) : Option (State Content) :=
  let target := Disk.relocated (inst.source move) (inst.destination move) place
  let copying (disk : Disk Content) (whole : Bool) : State Content :=
    ⟨disk, .running start (.moving move (.copying (rest.erase place) whole))⟩
  -- A directory comes before what it holds.
  if place ∉ rest ∨ place.dropLast ∈ rest then none
  else if place ≠ inst.source move ∧ disk.isDirectory target.dropLast = false then some (copying disk false)
  else
    (disk.entry place).bind fun entry =>
      match copied entry attempt with
      | none => some (copying disk false)
      | some copy => (disk.put target copy).map fun disk => copying disk (whole && attempt.isDone)

/-- One entry of `shutil.rmtree`, which raises the first failure. -/
def removeEntry (start : Start) (disk : Disk Content) (rest : List Place) (place : Place) (attempt : Attempt Content)
    (next : List Place → Phase) : Option (State Content) :=
  if place ∉ rest then none
  else if attempt.isDone then (disk.remove place).map fun disk => ⟨disk, .running start (next (rest.erase place))⟩
  else raised disk

def callStatement (start : Start) (disk : Disk Content) (database : Place) (loaded draft : Tables) :
    List Statement → Option (State Content)
  | .select table :: todo =>
    some ⟨disk, .running start (.rewriting database loaded draft (inst.updates table (draft.rows table) ++ todo))⟩
  | .update table id value :: todo =>
    some ⟨disk, .running start (.rewriting database loaded (draft.setPath id value table) todo)⟩
  | [] =>
    -- The commit; a transaction that wrote nothing leaves the file alone.
    if draft = loaded then some ⟨disk, inst.migrateDatabaseFile start disk⟩
    else
      (disk.file database).bind fun content =>
        (disk.write database (sqlite.stored content draft)).map fun disk => ⟨disk, inst.migrateDatabaseFile start disk⟩

def callPhase (start : Start) (disk : Disk Content) (done : Bool) : Phase → Option (State Content)
  | .removingScaffold rest =>
    if done = false then raised disk
    else if rest ≠ [] then none
    else some ⟨disk, .running start (.makingParent .storage (missingParents disk inst.newPlace))⟩
  | .makingParent move rest =>
    if done = false then raised disk
    else
      match rest with
      | [] => some ⟨disk, .running start (.moving move .first)⟩
      | parent :: rest => (disk.mkdir parent).map fun disk => ⟨disk, .running start (.makingParent move rest)⟩
  | .moving move stage => inst.callMove start disk move done stage
  | .connecting database =>
    if done = false then raised disk
    else
      ((disk.file database).bind sqlite.tables).map fun tables =>
        ⟨disk, .running start (.rewriting database tables tables rewriteStatements)⟩
  | .rewriting database loaded draft todo =>
    -- A statement that fails rolls the transaction back.
    if done = false then raised disk else inst.callStatement sqlite start disk database loaded draft todo

def entryPhase (start : Start) (disk : Disk Content) (place : Place) (attempt : Attempt Content) :
    Phase → Option (State Content)
  | .removingScaffold rest => removeEntry start disk rest place attempt .removingScaffold
  | .moving move (.copying rest whole) => inst.copyEntry start disk move rest whole place attempt
  | .moving move (.removing rest) => removeEntry start disk rest place attempt fun rest => .moving move (.removing rest)
  | _ => none

def step (state : State Content) : Event Content → Option (State Content)
  | .start start =>
    match state.process with
    | .stopped _ => some ⟨state.disk, inst.migrateStorageDir start state.disk⟩
    | .running .. => none
  | .call done =>
    match state.process with
    | .stopped _ => none
    | .running start phase => inst.callPhase sqlite start state.disk done phase
  | .entry place attempt =>
    match state.process with
    | .stopped _ => none
    | .running start phase => inst.entryPhase start state.disk place attempt phase
  -- Killed between two calls, or inside one, whose effect so far is an event of its own.
  | .kill =>
    match state.process with
    | .stopped _ => none
    | .running .. => some ⟨state.disk, .stopped (some .killed)⟩

end Installation

def migrationSystem (inst : Installation) (sqlite : Sqlite Content) (disk : Disk Content) :
    System (State Content) (Event Content) where
  initial := ⟨disk, .stopped none⟩
  step := inst.step sqlite

end PhysicalAiStudio.Storage
