import PhysicalAiStudio.Storage.Migration

/-! What a migration is for: the paths in the database lead to the files, wherever those are.

A storage is moved and the paths are rewritten, or the file of the database is moved, each at
once or not at all.
-/

set_option autoImplicit false

namespace PhysicalAiStudio.Storage
open Strings Files Collections

variable {Content : Type}

abbrev FileMap (Content : Type) := Place → Option Content

namespace FileMap

def there (files : FileMap Content) (place : Place) : Bool := (files place).isSome

def moved (files : FileMap Content) (source destination : Place) : FileMap Content := fun place =>
  if destination <+: place then files (source ++ place.drop destination.length)
  else if source <+: place then none
  else files place

def Free (files : FileMap Content) (place : Place) : Prop := ∀ below, files (place ++ below) = none

end FileMap

def Tables.paths (tables : Tables) : List Text :=
  (tables.datasets.items ++ tables.models.items ++ tables.snapshots.items).map Prod.snd

namespace Installation

variable (inst : Installation) (sqlite : Sqlite Content)

def found (there : Place → Bool) : Option Place := (inst.databasePlace :: inst.sourcePlaces).find? there

def thereAfter (there : Place → Bool) (place : Place) : Bool :=
  if inst.newPlace <+: place then there (inst.oldPlace ++ place.drop inst.newPlace.length)
  else if inst.oldPlace <+: place then false
  else there place

/-- Where the storage's move takes what is at a place. -/
def pushed (place : Place) : Place := Disk.relocated inst.oldPlace inst.newPlace place

def pulled (place : Place) : Place := Disk.relocated inst.newPlace inst.oldPlace place

def database (files : FileMap Content) : Option Place :=
  (inst.found files.there).or ((inst.found (inst.thereAfter files.there)).map inst.pulled)

def tablesIn (files : FileMap Content) : Option Tables :=
  (inst.database files).bind fun place => (files place).bind sqlite.tables

def leadsTo (value : Text) : Place := inst.place (PurePath.parse value)

end Installation

variable (sqlite : Sqlite Content)

/-- What was found at and below one place is found at and below another, databases apart. -/
def Follows (before after : FileMap Content) (first second : Place) : Prop :=
  ∀ below content, before (first ++ below) = some content → sqlite.tables content = none →
    after (second ++ below) = some content

/-- The database has the rows it had, and the path of each leads to the files that it led to. -/
structure Refers (inst : Installation) (before after : FileMap Content) : Prop where
  kept : (inst.tablesIn sqlite after).isSome = (inst.tablesIn sqlite before).isSome
  rows : ∀ earlier ∈ inst.tablesIn sqlite before, ∀ later ∈ inst.tablesIn sqlite after, ∀ table,
    (later.rows table).keys = (earlier.rows table).keys
  follows : ∀ earlier ∈ inst.tablesIn sqlite before, ∀ later ∈ inst.tablesIn sqlite after, ∀ table id first second,
    (earlier.rows table).get? id = some first → (later.rows table).get? id = some second →
      Follows sqlite before after (inst.leadsTo first) (inst.leadsTo second)

namespace Installation

variable (inst : Installation)

def rewrittenRows (rows : Dict Text Text) : Dict Text Text := rows.setAll (inst.changes rows)

def rewritten (tables : Tables) : Tables where
  datasets := inst.rewrittenRows tables.datasets
  models := inst.rewrittenRows tables.models
  snapshots := inst.rewrittenRows tables.snapshots

def rewrittenContent (content : Content) : Content :=
  match sqlite.tables content with
  | none => content
  | some tables => if inst.rewritten tables = tables then content else sqlite.stored content (inst.rewritten tables)

def rewrittenFiles (files : FileMap Content) : FileMap Content :=
  match inst.found files.there with
  | none => files
  | some place => Function.update files place ((files place).map (inst.rewrittenContent sqlite))

/-- A path below the old directory is spelled so and does not lead out of it again, and no other path leads into
the directory or above it. -/
def Spelled (value : Text) : Prop :=
  match (PurePath.parse value).relativeTo inst.oldStorageDir with
  | some relative => PurePath.Stays 0 relative.parts
  | none => ¬inst.oldPlace <+: inst.leadsTo value ∧ ¬inst.leadsTo value <+: inst.oldPlace

instance (value : Text) : Decidable (inst.Spelled value) := by
  unfold Spelled
  split <;> infer_instance

end Installation

/-- A migration whose parts cannot be stopped halfway. -/
inductive Migrates (inst : Installation) : FileMap Content → FileMap Content → Prop
  | storage {files : FileMap Content} (free : files.Free inst.newPlace) :
      Migrates inst files (inst.rewrittenFiles sqlite (files.moved inst.oldPlace inst.newPlace))
  | database {files : FileMap Content} {source : Place}
      (known : inst.resolveSourceDatabasePath files.there = some source) (free : files.Free inst.databasePlace)
      (leaf : ∀ below, below ≠ [] → files (source ++ below) = none) :
      Migrates inst files (files.moved source inst.databasePlace)

/-! ### The rewritten paths -/

namespace Installation

variable {inst : Installation} {sqlite : Sqlite Content} {rows : Dict Text Text}

theorem mem_changes {row : Text × Text} :
    row ∈ inst.changes rows ↔
      ∃ value, rows.get? row.1 = some value ∧ inst.rewritePathPrefix value = row.2 ∧ row.2 ≠ value := by
  rw [changes, List.mem_filterMap]
  constructor
  · rintro ⟨item, held, same⟩
    by_cases differs : inst.rewritePathPrefix item.2 ≠ item.2
    · simp only [if_pos differs, Option.some.injEq] at same
      subst same
      exact ⟨item.2, Dict.mem_items.mp held, rfl, differs⟩
    · simp only [if_neg differs] at same
      cases same
  · rintro ⟨value, held, same, differs⟩
    refine ⟨(row.1, value), Dict.mem_items.mpr held, ?_⟩
    simp only [same, if_pos differs]

theorem changes_nodup : ((inst.changes rows).map Prod.fst).Nodup := by
  refine rows.items_keys_nodup.sublist ?_
  unfold changes
  induction rows.items with
  | nil => exact List.Sublist.slnil
  | cons item rest ih =>
    rw [List.filterMap_cons]
    by_cases differs : inst.rewritePathPrefix item.2 ≠ item.2
    · simp only [if_pos differs, List.map_cons]
      exact ih.cons_cons _
    · simp only [if_neg differs, List.map_cons]
      exact ih.cons _

theorem get?_rewrittenRows (rows : Dict Text Text) (id : Text) :
    (inst.rewrittenRows rows).get? id = (rows.get? id).map inst.rewritePathPrefix := by
  unfold rewrittenRows
  by_cases changed : id ∈ (inst.changes rows).map Prod.fst
  · obtain ⟨row, member, rfl⟩ := List.mem_map.mp changed
    obtain ⟨value, held, same, -⟩ := mem_changes.mp member
    rw [Dict.get?_setAll_of_mem changes_nodup member, held, Option.map_some, same]
  · rw [Dict.get?_setAll_of_absent changed]
    cases held : rows.get? id with
    | none => rfl
    | some value =>
      by_contra differs
      rw [Option.map_some] at differs
      have moves : inst.rewritePathPrefix value ≠ value := fun same => differs (congrArg some same.symm)
      have row : (id, inst.rewritePathPrefix value) ∈ inst.changes rows := mem_changes.mpr ⟨value, held, rfl, moves⟩
      exact changed (List.mem_map_of_mem row)

theorem keys_rewrittenRows (rows : Dict Text Text) : (inst.rewrittenRows rows).keys = rows.keys := by
  refine Dict.keys_setAll_of_mem fun row member => ?_
  obtain ⟨value, held, -⟩ := mem_changes.mp member
  exact Dict.mem_iff_get?.mpr ⟨value, held⟩

theorem rows_rewritten (tables : Tables) (table : Table) :
    (inst.rewritten tables).rows table = inst.rewrittenRows (tables.rows table) := by
  cases table <;> rfl

theorem tables_rewrittenContent (content : Content) :
    sqlite.tables (inst.rewrittenContent sqlite content) = (sqlite.tables content).map inst.rewritten := by
  unfold rewrittenContent
  cases read : sqlite.tables content with
  | none => exact read
  | some tables =>
    by_cases same : inst.rewritten tables = tables
    · dsimp only
      rw [if_pos same, read, Option.map_some, same]
    · dsimp only
      rw [if_neg same, Option.map_some]
      exact sqlite.tables_stored content tables _ read

theorem leadsTo_rewritten {value : Text} (spelled : inst.Spelled value) :
    (inst.leadsTo value = inst.leadsTo (inst.rewritePathPrefix value) ∧ ¬inst.oldPlace <+: inst.leadsTo value ∧
        ¬inst.leadsTo value <+: inst.oldPlace) ∨
      ∃ rest, inst.leadsTo value = inst.oldPlace ++ rest ∧
        inst.leadsTo (inst.rewritePathPrefix value) = inst.newPlace ++ rest := by
  unfold Spelled at spelled
  unfold rewritePathPrefix
  cases below : (PurePath.parse value).relativeTo inst.oldStorageDir with
  | none =>
    rw [below] at spelled
    exact .inl ⟨rfl, spelled⟩
  | some relative =>
    rw [below] at spelled
    obtain ⟨unrooted, root, parts⟩ := PurePath.relativeTo_eq_some below
    refine .inr ⟨PurePath.follow [] relative.parts, PurePath.place_append _ root parts spelled, ?_⟩
    show inst.place (PurePath.parse (inst.storageDir.joinpath relative).text) = _
    rw [PurePath.parse_text]
    exact PurePath.place_append _ (PurePath.joinpath_root unrooted) (PurePath.joinpath_parts unrooted) spelled

/-! ### Where the database is -/

variable {files : FileMap Content}

theorem there_moved (files : FileMap Content) :
    (files.moved inst.oldPlace inst.newPlace).there = inst.thereAfter files.there := by
  funext place
  unfold FileMap.there FileMap.moved thereAfter
  split
  · rfl
  · split <;> rfl

theorem there_rewrittenFiles (files : FileMap Content) : (inst.rewrittenFiles sqlite files).there = files.there := by
  funext place
  unfold rewrittenFiles
  split
  · rfl
  · rename_i database _
    by_cases same : place = database
    · subst same
      rw [FileMap.there, Function.update_self, Option.isSome_map, FileMap.there]
    · rw [FileMap.there, Function.update_of_ne same, FileMap.there]

theorem found_there {there : Place → Bool} {place : Place} (found : inst.found there = some place) :
    there place = true :=
  List.find?_some found

/-- A database that is not found in one way is not found in a way that finds less. -/
theorem found_mono {fewer more : Place → Bool} (less : ∀ place, fewer place = true → more place = true)
    (missing : inst.found more = none) : inst.found fewer = none := by
  rw [found, List.find?_eq_none] at missing ⊢
  exact fun place member here => missing place member (less place here)

/-- When the storage has been moved, no second move would show another database. -/
theorem database_moved (apart : ¬inst.oldPlace <+: inst.newPlace) (apart' : ¬inst.newPlace <+: inst.oldPlace)
    (files : FileMap Content) :
    inst.database (inst.rewrittenFiles sqlite (files.moved inst.oldPlace inst.newPlace)) =
      inst.found (inst.thereAfter files.there) := by
  rw [database, there_rewrittenFiles, there_moved]
  cases found : inst.found (inst.thereAfter files.there) with
  | some place => rfl
  | none =>
    rw [Option.none_or, found_mono _ found, Option.map_none]
    intro place here
    rw [← there_moved] at here ⊢
    unfold thereAfter at here
    split at here
    · -- The old place has been left.
      have left : ∀ rest, files.moved inst.oldPlace inst.newPlace (inst.oldPlace ++ rest) = none := by
        intro rest
        rw [FileMap.moved, if_neg, if_pos (List.prefix_append _ _)]
        intro below
        exact (List.prefix_or_prefix_of_prefix below (List.prefix_append inst.oldPlace rest)).elim apart' apart
      rw [FileMap.there, left] at here
      cases here
    · split at here
      · cases here
      · exact here

theorem database_there {place : Place} (known : inst.database files = some place) : files.there place = true := by
  rw [database] at known
  rcases Option.or_eq_some_iff.mp known with first | ⟨-, later⟩
  · exact found_there first
  · obtain ⟨target, other, rfl⟩ := Option.map_eq_some_iff.mp later
    have after := found_there other
    unfold thereAfter at after
    unfold pulled Disk.relocated
    split at after
    · rename_i below
      rw [if_pos below]
      exact after
    · rename_i outside
      rw [if_neg outside]
      split at after
      · cases after
      · exact after

theorem moved_pushed (free : files.Free inst.newPlace) (place : Place) :
    ∀ content, files place = some content →
      files.moved inst.oldPlace inst.newPlace (inst.pushed place) = some content := by
  intro content here
  unfold pushed Disk.relocated FileMap.moved
  split
  · rename_i below
    obtain ⟨rest, rfl⟩ := below
    rw [if_pos (List.prefix_append _ _), List.drop_left, List.drop_left]
    exact here
  · rename_i outside
    rw [if_neg]
    · exact here
    · rintro ⟨rest, rfl⟩
      rw [free rest] at here
      cases here

theorem tablesIn_moved (apart : ¬inst.oldPlace <+: inst.newPlace) (apart' : ¬inst.newPlace <+: inst.oldPlace)
    (free : files.Free inst.newPlace)
    (same : ∀ place ∈ inst.database files, inst.found (inst.thereAfter files.there) = some (inst.pushed place)) :
    inst.tablesIn sqlite (inst.rewrittenFiles sqlite (files.moved inst.oldPlace inst.newPlace)) =
      (inst.tablesIn sqlite files).map inst.rewritten := by
  rw [tablesIn, database_moved apart apart', tablesIn]
  cases known : inst.database files with
  | none =>
    rw [database, Option.or_eq_none_iff, Option.map_eq_none_iff] at known
    rw [known.2]
    rfl
  | some place =>
    have found := same place known
    obtain ⟨content, holds⟩ := Option.isSome_iff_exists.mp (database_there known)
    have arrived := moved_pushed free place content holds
    rw [found, Option.bind_some, Option.bind_some, rewrittenFiles, there_moved, found]
    dsimp only
    rw [Function.update_self, arrived, holds, Option.map_some, Option.bind_some, Option.bind_some,
      tables_rewrittenContent]

theorem rewrittenFiles_other {content : Content} {place : Place} (here : files place = some content)
    (data : sqlite.tables content = none) : inst.rewrittenFiles sqlite files place = some content := by
  unfold rewrittenFiles
  cases inst.found files.there with
  | none => exact here
  | some database =>
    dsimp only
    by_cases same : place = database
    · subst same
      rw [Function.update_self, here, Option.map_some, rewrittenContent, data]
    · rw [Function.update_of_ne same, here]

theorem mem_paths {tables : Tables} {table : Table} {id value : Text}
    (held : (tables.rows table).get? id = some value) : value ∈ tables.paths := by
  have item := Dict.mem_items.mpr held
  refine List.mem_map.mpr ⟨(id, value), ?_, rfl⟩
  simp only [List.mem_append]
  cases table with
  | datasets => exact .inl (.inl item)
  | models => exact .inl (.inr item)
  | snapshots => exact .inr item

end Installation

/-! ### What keeps the paths right -/

namespace Refers

open Installation

variable {inst : Installation} {sqlite : Sqlite Content} {before between after files : FileMap Content}

theorem refl (files : FileMap Content) : Refers sqlite inst files files where
  kept := rfl
  rows earlier known later same table := by
    cases (Option.mem_def.mp known).symm.trans same
    rfl
  follows earlier known later same table id first second here there := by
    cases (Option.mem_def.mp known).symm.trans same
    cases here.symm.trans there
    exact fun below content found _ => found

theorem trans (first : Refers sqlite inst before between) (second : Refers sqlite inst between after) :
    Refers sqlite inst before after where
  kept := second.kept.trans first.kept
  rows earlier known later reached table := by
    have read : (inst.tablesIn sqlite between).isSome = true := by rw [first.kept, known]; rfl
    obtain ⟨middle, held⟩ := Option.isSome_iff_exists.mp read
    exact (second.rows middle held later reached table).trans (first.rows earlier known middle held table)
  follows earlier known later reached table id old new here there := by
    have read : (inst.tablesIn sqlite between).isSome = true := by rw [first.kept, known]; rfl
    obtain ⟨middle, held⟩ := Option.isSome_iff_exists.mp read
    have kept : id ∈ middle.rows table := by
      rw [AList.mem_keys, first.rows earlier known middle held table, ← AList.mem_keys]
      exact Dict.mem_iff_get?.mpr ⟨old, here⟩
    obtain ⟨value, stored⟩ := Dict.mem_iff_get?.mp kept
    have start := first.follows earlier known middle held table id old value here stored
    have rest := second.follows middle held later reached table id value new stored there
    exact fun below content found data => rest below content (start below content found data) data

theorem storage (apart : ¬inst.oldPlace <+: inst.newPlace) (apart' : ¬inst.newPlace <+: inst.oldPlace)
    (free : files.Free inst.newPlace)
    (same : ∀ place ∈ inst.database files, inst.found (inst.thereAfter files.there) = some (inst.pushed place))
    (spelled : ∀ tables ∈ inst.tablesIn sqlite files, ∀ value ∈ tables.paths, inst.Spelled value) :
    Refers sqlite inst files (inst.rewrittenFiles sqlite (files.moved inst.oldPlace inst.newPlace)) := by
  have tables : inst.tablesIn sqlite (inst.rewrittenFiles sqlite (files.moved inst.oldPlace inst.newPlace)) =
      (inst.tablesIn sqlite files).map inst.rewritten := tablesIn_moved apart apart' free same
  refine ⟨by rw [tables, Option.isSome_map], ?_, ?_⟩
  · intro earlier known later reached table
    rw [tables, Option.mem_def.mp known, Option.map_some, Option.mem_def, Option.some.injEq] at reached
    rw [← reached, rows_rewritten, keys_rewrittenRows]
  · intro earlier known later reached table id first second here there below content found data
    rw [tables, Option.mem_def.mp known, Option.map_some, Option.mem_def, Option.some.injEq] at reached
    rw [← reached, rows_rewritten, get?_rewrittenRows, here, Option.map_some, Option.some.injEq] at there
    subst there
    refine rewrittenFiles_other ?_ data
    have outside : ∀ place, files place = some content → ¬inst.newPlace <+: place := by
      rintro place here ⟨rest, rfl⟩
      rw [free rest] at here
      cases here
    have leads := leadsTo_rewritten (spelled earlier known first (mem_paths here))
    -- A path outside the old place stays; one inside leads to the moved files.
    rcases leads with ⟨stays, lower, upper⟩ | ⟨rest, old, new⟩
    · rw [FileMap.moved, ← stays, if_neg (outside _ found), if_neg]
      · exact found
      · intro under
        rcases List.prefix_or_prefix_of_prefix under (List.prefix_append (inst.leadsTo first) below) with into | above
        · exact lower into
        · exact upper above
    · rw [new, List.append_assoc, FileMap.moved, if_pos (List.prefix_append _ _), List.drop_left, ← List.append_assoc,
        ← old]
      exact found

theorem database {source : Place} (known : inst.resolveSourceDatabasePath files.there = some source)
    (free : files.Free inst.databasePlace) (leaf : ∀ below, below ≠ [] → files (source ++ below) = none) :
    Refers sqlite inst files (files.moved source inst.databasePlace) := by
  have absent : files inst.databasePlace = none := by simpa using free []
  have there : files.there source = true := List.find?_some known
  obtain ⟨content, holds⟩ := Option.isSome_iff_exists.mp there
  have arrived : files.moved source inst.databasePlace inst.databasePlace = some content := by
    rw [FileMap.moved, if_pos List.prefix_rfl, List.drop_length, List.append_nil, holds]
  have earlier : inst.tablesIn sqlite files = sqlite.tables content := by
    have found : inst.found files.there = some source := by
      rw [found, List.find?_cons_of_neg (by rw [FileMap.there, absent]; exact Bool.false_ne_true)]
      exact known
    rw [tablesIn, Installation.database, found, Option.some_or, Option.bind_some, holds, Option.bind_some]
  have later : inst.tablesIn sqlite (files.moved source inst.databasePlace) = sqlite.tables content := by
    have found : inst.found (files.moved source inst.databasePlace).there = some inst.databasePlace := by
      rw [found, List.find?_cons_of_pos]
      rw [FileMap.there, arrived]
      rfl
    rw [tablesIn, Installation.database, found, Option.some_or, Option.bind_some, arrived, Option.bind_some]
  refine ⟨by rw [earlier, later], ?_, ?_⟩
  · intro first known second reached table
    rw [earlier] at known
    rw [later] at reached
    cases (Option.mem_def.mp known).symm.trans reached
    rfl
  · intro first known second reached table id old new here there below data found other
    rw [earlier] at known
    rw [later] at reached
    cases (Option.mem_def.mp known).symm.trans reached
    cases here.symm.trans there
    rw [FileMap.moved, if_neg, if_neg]
    · exact found
    · -- What is at the source is the database itself.
      rintro ⟨rest, same⟩
      rw [← same] at found
      by_cases root : rest = []
      · rw [root, List.append_nil, holds, Option.some.injEq] at found
        rw [found, other] at known
        cases known
      · rw [leaf rest root] at found
        cases found
    · rintro ⟨rest, same⟩
      rw [← same, free rest] at found
      cases found

end Refers

end PhysicalAiStudio.Storage
