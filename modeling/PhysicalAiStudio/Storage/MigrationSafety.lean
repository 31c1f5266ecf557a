import Mathlib.Logic.Relation
import PhysicalAiStudio.Storage.Whereabouts

/-! What the starts of the program leave.

A start that is stopped neither inside a move nor between the move of the storage and the
commit of the rewritten paths leaves the storage as it was or migrated, and every stored path
leads to its files. The next start does not know of a storage that was moved and not followed
by the paths: it looks only at whether the old directory is there.
-/

set_option autoImplicit false

namespace PhysicalAiStudio.Storage
open Strings Files Collections Concurrency

variable {Content : Type}

/-- What a start owes where it stops, whether it returned or not. -/
structure Promised (inst : Installation) (sqlite : Sqlite Content) (before after : FileMap Content) : Prop where
  whole : Relation.ReflTransGen (Migrates sqlite inst) before after
  refers : Refers sqlite inst before after

namespace Installation

variable (inst : Installation) (sqlite : Sqlite Content) (disk : Disk Content)

def Movable : Prop :=
  (∀ place ∈ inst.database disk.file, inst.resolveDatabasePath (inst.thereAfter disk.present) = inst.pushed place) ∧
    ∀ tables ∈ inst.tablesIn sqlite disk.file, ∀ value ∈ tables.paths, inst.Spelled value

def MayMove : Move → Prop
  | .storage => inst.Movable sqlite disk
  | .database source => (disk.file source).isSome = true

/-- The next start takes the destination for one that nothing was moved to. -/
def Clear : Move → Prop
  | .storage => isEffectivelyEmptyStorageDir disk inst.newPlace = true
  | .database _ => disk.present inst.databasePlace = false

def NothingToRewrite (database : Place) : Prop :=
  ∀ tables ∈ (disk.file database).bind sqlite.tables, inst.rewritten tables = tables

/-- A start can be stopped here without leaving part of its work. -/
def MayStop : Phase → Prop
  | .moving move (.copying _ _) => inst.Clear disk move
  | .moving move (.removing _) => inst.Clear disk move
  | .connecting database => inst.NothingToRewrite sqlite disk database
  | .rewriting database _ _ _ => inst.NothingToRewrite sqlite disk database
  | _ => True

end Installation

/-- The events that stop a start: it is killed, a call fails, or a copy ends that lacks something. -/
def stops (phase : Phase) : Event Content → Bool
  | .kill => true
  | .call done => !done || (match phase with | .moving _ (.copying _ whole) => !whole | _ => false)
  | .entry _ attempt => (match phase with | .moving _ (.removing _) => !attempt.isDone | _ => false)
  | .start _ => false

def begins (phase : Phase) : Event Content → Option Move
  | .call done =>
    match phase with
    | .moving move .first => if done then some move else none
    | .moving move .second => some move
    | _ => none
  | _ => none

def State.phase (state : State Content) : Option Phase :=
  match state.process with
  | .stopped _ => none
  | .running _ phase => some phase

def Careful (inst : Installation) (sqlite : Sqlite Content) (state : State Content) (event : Event Content) : Prop :=
  ∀ phase ∈ state.phase, (stops phase event = true → inst.MayStop sqlite state.disk phase) ∧
    ∀ move ∈ begins phase event, inst.MayMove sqlite state.disk move

instance (inst : Installation) (sqlite : Sqlite Content) (disk : Disk Content) : Decidable (inst.Movable sqlite disk) :=
  inferInstanceAs (Decidable (_ ∧ ∀ tables ∈ inst.tablesIn sqlite disk.file, ∀ value ∈ tables.paths, _))

instance (inst : Installation) (sqlite : Sqlite Content) (disk : Disk Content) :
    ∀ move, Decidable (inst.MayMove sqlite disk move)
  | .storage => inferInstanceAs (Decidable (inst.Movable sqlite disk))
  | .database source => inferInstanceAs (Decidable ((disk.file source).isSome = true))

instance (inst : Installation) (disk : Disk Content) : ∀ move, Decidable (inst.Clear disk move)
  | .storage => inferInstanceAs (Decidable (isEffectivelyEmptyStorageDir disk inst.newPlace = true))
  | .database _ => inferInstanceAs (Decidable (disk.present inst.databasePlace = false))

instance (inst : Installation) (sqlite : Sqlite Content) (disk : Disk Content) (database : Place) :
    Decidable (inst.NothingToRewrite sqlite disk database) :=
  inferInstanceAs (Decidable (∀ tables ∈ (disk.file database).bind sqlite.tables, _))

instance (inst : Installation) (sqlite : Sqlite Content) (disk : Disk Content) :
    ∀ phase, Decidable (inst.MayStop sqlite disk phase)
  | .moving move (.copying _ _) => inferInstanceAs (Decidable (inst.Clear disk move))
  | .moving move (.removing _) => inferInstanceAs (Decidable (inst.Clear disk move))
  | .moving _ .first => isTrue trivial
  | .moving _ .second => isTrue trivial
  | .connecting database => inferInstanceAs (Decidable (inst.NothingToRewrite sqlite disk database))
  | .rewriting database _ _ _ => inferInstanceAs (Decidable (inst.NothingToRewrite sqlite disk database))
  | .removingScaffold _ => isTrue trivial
  | .makingParent _ _ => isTrue trivial

instance (inst : Installation) (sqlite : Sqlite Content) (state : State Content) (event : Event Content) :
    Decidable (Careful inst sqlite state event) :=
  inferInstanceAs (Decidable (∀ phase ∈ state.phase,
    (stops phase event = true → _) ∧ ∀ move ∈ begins phase event, _))

/-! ### The rewriting of the paths -/

namespace Installation

variable (inst : Installation)

def perform (draft : Tables) : Statement → Tables
  | .select table =>
    (inst.changes (draft.rows table)).foldl (fun draft row => draft.setPath row.1 row.2 table) draft
  | .update table id value => draft.setPath id value table

theorem perform_updates (draft : Tables) (table : Table) :
    (inst.updates table (draft.rows table)).foldl inst.perform draft = inst.perform draft (.select table) := by
  rw [updates, List.foldl_map]
  rfl

theorem setPath_datasets (tables : Tables) (items : List (Text × Text)) :
    items.foldl (fun draft row => draft.setPath row.1 row.2 .datasets) tables =
      { tables with datasets := tables.datasets.setAll items } := by
  induction items generalizing tables with
  | nil => rfl
  | cons row rest ih => exact ih _

theorem setPath_models (tables : Tables) (items : List (Text × Text)) :
    items.foldl (fun draft row => draft.setPath row.1 row.2 .models) tables =
      { tables with models := tables.models.setAll items } := by
  induction items generalizing tables with
  | nil => rfl
  | cons row rest ih => exact ih _

theorem setPath_snapshots (tables : Tables) (items : List (Text × Text)) :
    items.foldl (fun draft row => draft.setPath row.1 row.2 .snapshots) tables =
      { tables with snapshots := tables.snapshots.setAll items } := by
  induction items generalizing tables with
  | nil => rfl
  | cons row rest ih => exact ih _

theorem perform_rewriteStatements (loaded : Tables) :
    rewriteStatements.foldl inst.perform loaded = inst.rewritten loaded := by
  simp only [rewriteStatements, List.foldl_cons, List.foldl_nil, perform, setPath_datasets, setPath_models,
    setPath_snapshots]
  rfl

end Installation

/-! ### Moving a tree -/

def EntriesMoved (before after : Disk Content) (source destination : Place) : Prop :=
  ∀ place, after.entry place =
    if destination <+: place then before.entry (source ++ place.drop destination.length)
    else if source <+: place then none
    else before.entry place

structure Copying (before disk : Disk Content) (source destination : Place) (rest : List Place) (whole : Bool) :
    Prop where
  nodup : rest.Nodup
  below : ∀ place ∈ rest, source <+: place
  outside : ∀ place, ¬destination <+: place → disk.entry place = before.entry place
  inside : whole = true → ∀ below, disk.entry (destination ++ below) =
    if source ++ below ∈ rest then none else before.entry (source ++ below)

/-- How far the removal of what was copied has come. -/
structure Removing (before disk : Disk Content) (source destination : Place) (rest : List Place) : Prop where
  nodup : rest.Nodup
  below : ∀ place ∈ rest, source <+: place
  inside : ∀ below, disk.entry (destination ++ below) = before.entry (source ++ below)
  left : ∀ below, disk.entry (source ++ below) = if source ++ below ∈ rest then before.entry (source ++ below) else none
  outside : ∀ place, ¬destination <+: place → ¬source <+: place → disk.entry place = before.entry place

section

variable {before disk next : Disk Content} {source destination : Place} {rest : List Place} {whole : Bool}

theorem free_of_absent {disk : Disk Content} {place : Place} (absent : disk.entry place = none) :
    FileMap.Free disk.file place := by
  intro below
  rw [Disk.file, disk.entry_below_none absent]
  rfl

theorem tree_nodup (disk : Disk Content) (place : Place) : (disk.tree place).Nodup :=
  disk.entries.keys_nodup.filter _

theorem tree_below {place other : Place} (member : other ∈ disk.tree place) : place <+: other :=
  (Disk.mem_tree.mp member).1

theorem not_prefix_append (apart : ¬source <+: destination) (apart' : ¬destination <+: source) (below : Place) :
    ¬destination <+: source ++ below := by
  intro under
  exact (List.prefix_or_prefix_of_prefix under (List.prefix_append source below)).elim apart' apart

theorem EntriesMoved.of_move (moved : disk.move source destination = some next) :
    EntriesMoved disk next source destination :=
  Disk.entry_move moved

theorem EntriesMoved.file (moved : EntriesMoved before disk source destination) :
    disk.file = FileMap.moved before.file source destination := by
  funext place
  rw [Disk.file, moved place, FileMap.moved]
  split
  · rfl
  · split <;> rfl

theorem Copying.start (absent : disk.entry destination = none) :
    Copying disk disk source destination (disk.tree source) true where
  nodup := tree_nodup disk source
  below _ member := tree_below member
  outside _ _ := rfl
  inside _ below := by
    rw [disk.entry_below_none absent]
    split
    · rfl
    next unlisted => exact (disk.entry_unlisted unlisted).symm

theorem Copying.skip {place : Place} (copying : Copying before disk source destination rest whole) :
    Copying before disk source destination (rest.erase place) false where
  nodup := copying.nodup.erase _
  below other member := copying.below other (List.mem_of_mem_erase member)
  outside := copying.outside
  inside absurd := by cases absurd

theorem Copying.put {place : Place} {entry copy : Unpacking.Entry Content} {copied : Bool}
    (apart : ¬source <+: destination) (apart' : ¬destination <+: source)
    (copying : Copying before disk source destination rest whole) (member : place ∈ rest)
    (there : disk.entry place = some entry)
    (done : disk.put (Disk.relocated source destination place) copy = some next)
    (same : copied = true → copy = entry) :
    Copying before next source destination (rest.erase place) (whole && copied) := by
  obtain ⟨below, rfl⟩ := copying.below place member
  have target : Disk.relocated source destination (source ++ below) = destination ++ below := by
    rw [Disk.relocated, if_pos (List.prefix_append _ _), List.drop_left]
  rw [target] at done
  refine ⟨copying.nodup.erase _, fun other listed => copying.below other (List.mem_of_mem_erase listed), ?_, ?_⟩
  · intro other outside
    rw [Disk.entry_put done, if_neg, copying.outside other outside]
    rintro rfl
    exact outside (List.prefix_append _ _)
  · intro both other
    rw [Bool.and_eq_true] at both
    rw [Disk.entry_put done]
    by_cases here : other = below
    · subst here
      rw [if_pos rfl, if_neg copying.nodup.not_mem_erase, same both.2, ← there,
        copying.outside _ (not_prefix_append apart apart' other)]
    · have elsewhere : destination ++ other ≠ destination ++ below := fun same => here (List.append_cancel_left same)
      have unerased : source ++ other ≠ source ++ below := fun same => here (List.append_cancel_left same)
      rw [if_neg elsewhere, copying.inside both.1]
      simp only [List.mem_erase_of_ne unerased]

theorem Copying.finish (apart : ¬source <+: destination) (apart' : ¬destination <+: source)
    (copying : Copying before disk source destination [] true) :
    Removing before disk source destination (disk.tree source) where
  nodup := tree_nodup disk source
  below _ member := tree_below member
  inside below := by rw [copying.inside rfl, if_neg List.not_mem_nil]
  left below := by
    rw [← copying.outside _ (not_prefix_append apart apart' below)]
    split
    · rfl
    next unlisted => exact disk.entry_unlisted unlisted
  outside place elsewhere _ := copying.outside place elsewhere

theorem Removing.remove {place : Place} (apart : ¬source <+: destination) (apart' : ¬destination <+: source)
    (removing : Removing before disk source destination rest) (member : place ∈ rest)
    (done : disk.remove place = some next) : Removing before next source destination (rest.erase place) := by
  obtain ⟨below, rfl⟩ := removing.below place member
  refine ⟨removing.nodup.erase _, fun other listed => removing.below other (List.mem_of_mem_erase listed), ?_, ?_, ?_⟩
  · intro other
    rw [Disk.entry_remove done, if_neg, removing.inside]
    intro same
    exact not_prefix_append apart apart' below (same ▸ List.prefix_append destination other)
  · intro other
    rw [Disk.entry_remove done]
    by_cases here : other = below
    · subst here
      rw [if_pos rfl, if_neg removing.nodup.not_mem_erase]
    · have elsewhere : source ++ other ≠ source ++ below := fun same => here (List.append_cancel_left same)
      rw [if_neg elsewhere, removing.left]
      simp only [List.mem_erase_of_ne elsewhere]
  · intro other outside unmoved
    rw [Disk.entry_remove done, if_neg, removing.outside other outside unmoved]
    rintro rfl
    exact unmoved (List.prefix_append _ _)

theorem Removing.finish (removing : Removing before disk source destination []) :
    EntriesMoved before disk source destination := by
  intro place
  split
  · rename_i under
    obtain ⟨below, rfl⟩ := under
    rw [removing.inside, List.drop_left]
  · rename_i outside
    split
    · rename_i under
      obtain ⟨below, rfl⟩ := under
      rw [removing.left, if_neg List.not_mem_nil]
    · rename_i unmoved
      exact removing.outside place outside unmoved

/-- A copy that is given up while nothing counts as moved has changed no file. -/
theorem Copying.stop (copying : Copying before disk source destination rest whole)
    (absent : before.entry destination = none) (free : FileMap.Free disk.file destination) :
    disk.file = before.file := by
  funext place
  by_cases under : destination <+: place
  · obtain ⟨below, rfl⟩ := under
    rw [free below, free_of_absent absent below]
  · rw [Disk.file, copying.outside place under, Disk.file]

theorem Removing.stop (removing : Removing before disk source destination rest)
    (absent : before.entry destination = none) (free : FileMap.Free disk.file destination) :
    disk.file = before.file := by
  funext place
  by_cases under : destination <+: place
  · obtain ⟨below, rfl⟩ := under
    rw [free below, free_of_absent absent below]
  · by_cases inside : source <+: place
    · obtain ⟨below, rfl⟩ := inside
      have empty : before.file (source ++ below) = none := by
        rw [← free below, Disk.file, Disk.file, removing.inside]
      rw [empty, Disk.file, removing.left]
      split
      · exact empty
      · rfl
    · rw [Disk.file, removing.outside place under inside, Disk.file]

end

theorem free_of_effectivelyEmpty {disk : Disk Content} {place : Place}
    (empty : isEffectivelyEmptyStorageDir disk place = true) : FileMap.Free disk.file place := by
  intro below
  rw [Option.eq_none_iff_forall_ne_some]
  intro content file
  have entry := Disk.file_eq_some.mp file
  rw [isEffectivelyEmptyStorageDir, Bool.or_eq_true, Bool.and_eq_true, List.all_eq_true, Bool.not_eq_true'] at empty
  rcases empty with absent | ⟨directory, scaffold⟩
  · rw [disk.entry_below_none (Disk.present_eq_false.mp absent)] at entry
    cases entry
  · have child : ∀ name, disk.present (place ++ [name]) = true →
        disk.entry (place ++ [name]) = some .directory ∧ disk.children (place ++ [name]) = [] := by
      intro name there
      have holds := scaffold _ (Disk.mem_children.mpr ⟨name, rfl, there⟩)
      rw [Bool.and_eq_true, Bool.and_eq_true, List.isEmpty_iff] at holds
      exact ⟨Disk.isDirectory_iff.mp holds.1.2, holds.2⟩
    cases below with
    | nil =>
      rw [List.append_nil, Disk.isDirectory_iff.mp directory] at entry
      cases entry
    | cons name rest =>
      cases rest with
      | nil =>
        rw [(child name (Disk.present_of_entry entry)).1] at entry
        cases entry
      | cons second rest =>
        -- Something is in a directory of the scaffold.
        have split : place ++ name :: second :: rest = (place ++ [name] ++ [second]) ++ rest := by simp
        have inside : disk.present (place ++ [name] ++ [second]) = true := by
          by_cases last : rest = []
          · rw [split, last, List.append_nil] at entry
            exact Disk.present_of_entry entry
          · rw [split] at entry
            exact Disk.present_of_entry (disk.directory_above entry last)
        have above : disk.present (place ++ [name]) = true := by
          have further : place ++ name :: second :: rest = (place ++ [name]) ++ second :: rest := by simp
          rw [further] at entry
          exact Disk.present_of_entry (disk.directory_above entry (List.cons_ne_nil _ _))
        have member := Disk.mem_children.mpr ⟨second, rfl, inside⟩
        rw [(child name above).2] at member
        exact List.not_mem_nil member

theorem there_present {disk : Disk Content} {place : Place} (there : FileMap.there disk.file place = true) :
    disk.present place = true := by
  unfold FileMap.there Disk.file at there
  unfold Disk.present
  cases found : disk.entry place with
  | none =>
    rw [found] at there
    cases there
  | some entry => rfl

/-! ### Finding the database -/

theorem find?_fewer {α : Type} {fewer more : α → Bool} {list : List α} {found : α}
    (less : ∀ a, fewer a = true → more a = true) (first : list.find? more = some found) (here : fewer found = true) :
    list.find? fewer = some found := by
  induction list with
  | nil => cases first
  | cons a rest ih =>
    by_cases hit : more a = true
    · rw [List.find?_cons_of_pos hit] at first
      cases first
      rw [List.find?_cons_of_pos here]
    · rw [List.find?_cons_of_neg hit] at first
      rw [List.find?_cons_of_neg fun few => hit (less a few)]
      exact ih first

namespace Installation

variable {inst : Installation} {sqlite : Sqlite Content} {before disk : Disk Content}

theorem resolveDatabasePath_eq (present : Place → Bool) :
    inst.resolveDatabasePath present = (inst.found present).getD inst.databasePlace := by
  unfold resolveDatabasePath found
  split
  · rename_i here
    rw [List.find?_cons_of_pos here]
    rfl
  · rename_i absent
    rw [List.find?_cons_of_neg absent]
    rfl

theorem found_resolved (file : FileMap.there disk.file (inst.resolveDatabasePath disk.present) = true) :
    inst.found (FileMap.there disk.file) = some (inst.resolveDatabasePath disk.present) := by
  refine find?_fewer (fun place => there_present) ?_ file
  have here := there_present file
  rw [resolveDatabasePath_eq] at here ⊢
  cases found : inst.found disk.present with
  | some place => exact found
  | none =>
    rw [found, Option.getD_none] at here
    have missing := List.find?_eq_none.mp found inst.databasePlace List.mem_cons_self
    exact absurd here missing

theorem present_moved (moved : EntriesMoved before disk inst.oldPlace inst.newPlace) :
    disk.present = inst.thereAfter before.present := by
  funext place
  rw [Disk.present, moved place, thereAfter]
  split
  · rfl
  · split <;> rfl

theorem resolved_pushed (absent : before.entry inst.newPlace = none) (may : inst.Movable sqlite before)
    (moved : EntriesMoved before disk inst.oldPlace inst.newPlace) {place : Place}
    (known : inst.database before.file = some place) :
    inst.resolveDatabasePath disk.present = inst.pushed place ∧
      FileMap.there disk.file (inst.resolveDatabasePath disk.present) = true := by
  have resolved := may.1 place known
  rw [← present_moved moved] at resolved
  refine ⟨resolved, ?_⟩
  have free : FileMap.Free before.file inst.newPlace := free_of_absent absent
  obtain ⟨content, holds⟩ := Option.isSome_iff_exists.mp (database_there known)
  rw [resolved, FileMap.there, moved.file, moved_pushed free place content holds]
  rfl

theorem found_moved (absent : before.entry inst.newPlace = none) (may : inst.Movable sqlite before)
    (moved : EntriesMoved before disk inst.oldPlace inst.newPlace) {place : Place}
    (found : inst.found (FileMap.there disk.file) = some place) : place = inst.resolveDatabasePath disk.present := by
  have after : inst.found (inst.thereAfter (FileMap.there before.file)) = some place := by
    rw [← there_moved, ← moved.file]
    exact found
  cases known : inst.database before.file with
  | none =>
    rw [database, Option.or_eq_none_iff, Option.map_eq_none_iff, after] at known
    cases known.2
  | some first =>
    have here := (resolved_pushed absent may moved known).2
    exact Option.some.inj (found.symm.trans (found_resolved here))

theorem rewrittenFiles_unchanged (absent : before.entry inst.newPlace = none) (may : inst.Movable sqlite before)
    (moved : EntriesMoved before disk inst.oldPlace inst.newPlace)
    (nothing : inst.NothingToRewrite sqlite disk (inst.resolveDatabasePath disk.present)) :
    inst.rewrittenFiles sqlite disk.file = disk.file := by
  unfold rewrittenFiles
  cases found : inst.found (FileMap.there disk.file) with
  | none => rfl
  | some place =>
    dsimp only
    rw [← found_moved absent may moved found] at nothing
    rw [Function.update_eq_self_iff]
    cases holds : disk.file place with
    | none => rfl
    | some content =>
      rw [Option.map_some, rewrittenContent]
      cases read : sqlite.tables content with
      | none => rfl
      | some tables =>
        have same := nothing tables (by rw [holds, Option.bind_some, read]; rfl)
        dsimp only
        rw [if_pos same]

end Installation

/-! ### The invariant -/

namespace Installation

variable (inst : Installation) (sqlite : Sqlite Content) (original : FileMap Content)

def Ready (disk : Disk Content) (move : Move) : Prop :=
  disk.entry (inst.destination move) = none ∧ ∀ source, move = .database source →
    (disk.file source).isSome = true → inst.resolveSourceDatabasePath (FileMap.there disk.file) = some source

structure Begun (before : Disk Content) (move : Move) : Prop where
  promised : Promised inst sqlite original before.file
  ready : inst.Ready before move
  may : inst.MayMove sqlite before move
  apart : ¬inst.source move <+: inst.destination move
  apart' : ¬inst.destination move <+: inst.source move

structure Rehoused (before disk : Disk Content) (database : Place) : Prop where
  begun : inst.Begun sqlite original before .storage
  moved : EntriesMoved before disk inst.oldPlace inst.newPlace
  resolved : inst.resolveDatabasePath disk.present = database

def PhaseInv (disk : Disk Content) : Phase → Prop
  | .removingScaffold rest =>
    Promised inst sqlite original disk.file ∧ FileMap.Free disk.file inst.newPlace ∧
      (∀ place, inst.newPlace <+: place → disk.present place = true → place ∈ rest) ∧
      ∀ place ∈ rest, inst.newPlace <+: place
  | .makingParent move rest =>
    Promised inst sqlite original disk.file ∧ inst.Ready disk move ∧
      ∀ parent ∈ rest, parent <+: (inst.destination move).dropLast
  | .moving move .first => Promised inst sqlite original disk.file ∧ inst.Ready disk move
  | .moving move .second => Promised inst sqlite original disk.file ∧ inst.Ready disk move
  | .moving move (.copying rest whole) => ∃ before, inst.Begun sqlite original before move ∧
      Copying before disk (inst.source move) (inst.destination move) rest whole
  | .moving move (.removing rest) => ∃ before, inst.Begun sqlite original before move ∧
      Removing before disk (inst.source move) (inst.destination move) rest
  | .connecting database => ∃ before, inst.Rehoused sqlite original before disk database
  | .rewriting database loaded draft todo => (∃ before, inst.Rehoused sqlite original before disk database) ∧
      (disk.file database).bind sqlite.tables = some loaded ∧ todo.foldl inst.perform draft = inst.rewritten loaded

def Inv (state : State Content) : Prop :=
  match state.process with
  | .stopped _ => Promised inst sqlite original state.disk.file
  | .running _ phase => inst.PhaseInv sqlite original state.disk phase

end Installation

namespace Installation

variable {inst : Installation} {sqlite : Sqlite Content} {original : FileMap Content} {before disk next : Disk Content}
  {start : Start} {move : Move} {place : Place} {state : State Content}

theorem inv_raised (promised : Promised inst sqlite original disk.file) (stepped : raised disk = some state) :
    inst.Inv sqlite original state := by
  cases stepped
  exact promised

/-- The move of the storage and the rewriting of its paths, once they are done. -/
theorem Rehoused.promised (rehoused : inst.Rehoused sqlite original before disk place) :
    Promised inst sqlite original (inst.rewrittenFiles sqlite disk.file) := by
  obtain ⟨begun, moved, -⟩ := rehoused
  have free : FileMap.Free before.file inst.newPlace := free_of_absent begun.ready.1
  rw [moved.file]
  refine ⟨begun.promised.whole.tail (.storage free), begun.promised.refers.trans ?_⟩
  refine Refers.storage begun.apart begun.apart' free (fun place known => ?_) begun.may.2
  obtain ⟨resolved, here⟩ := resolved_pushed begun.ready.1 begun.may moved known
  rw [← there_moved, ← moved.file, found_resolved here, resolved]

theorem Rehoused.stopped (rehoused : inst.Rehoused sqlite original before disk place)
    (nothing : inst.NothingToRewrite sqlite disk place) : Promised inst sqlite original disk.file := by
  have promised := rehoused.promised
  rw [← rehoused.resolved] at nothing
  rwa [rewrittenFiles_unchanged rehoused.begun.ready.1 rehoused.begun.may rehoused.moved nothing] at promised

theorem inv_migrateDatabaseFile (promised : Promised inst sqlite original disk.file) :
    inst.Inv sqlite original ⟨disk, inst.migrateDatabaseFile start disk⟩ := by
  unfold migrateDatabaseFile
  split
  · exact promised
  · rename_i source known
    split
    · exact promised
    · split
      · exact promised
      · rename_i absent
        split
        · refine ⟨promised, ⟨?_, ?_⟩, ?_⟩
          · rwa [Bool.not_eq_true, Disk.present_eq_false] at absent
          · intro other same file
            cases same
            exact find?_fewer (fun place => there_present) known file
          · intro parent member
            exact (List.mem_inits _ _).mp (List.mem_filter.mp member).1
        · exact promised

theorem inv_migrateStorageDir (promised : Promised inst sqlite original disk.file) :
    inst.Inv sqlite original ⟨disk, inst.migrateStorageDir start disk⟩ := by
  unfold migrateStorageDir
  split
  · exact inv_migrateDatabaseFile promised
  · split
    · exact inv_migrateDatabaseFile promised
    · split
      · exact inv_migrateDatabaseFile promised
      · split
        · exact promised
        · rename_i empty
          split
          · rw [Bool.not_eq_false] at empty
            exact ⟨promised, free_of_effectivelyEmpty empty,
              fun place under there => Disk.mem_tree.mpr ⟨under, there⟩, fun place => tree_below⟩
          · exact promised

/-- A move that is done is followed by the rewriting of the paths, or ends the start. -/
theorem inv_moved (begun : inst.Begun sqlite original before move)
    (moved : EntriesMoved before disk (inst.source move) (inst.destination move)) :
    inst.Inv sqlite original (inst.moved start disk move) := by
  cases move with
  | storage =>
    have rehoused : inst.Rehoused sqlite original before disk (inst.resolveDatabasePath disk.present) :=
      ⟨begun, moved, rfl⟩
    unfold Installation.moved rewriteDatabasePaths
    dsimp only
    split
    · exact ⟨before, rehoused⟩
    · rename_i absent
      -- No database came along: there is nothing to rewrite.
      refine inv_migrateDatabaseFile (rehoused.stopped ?_)
      intro tables read
      rw [Bool.not_eq_true, Disk.present_eq_false] at absent
      have nothing := free_of_absent absent []
      rw [List.append_nil] at nothing
      rw [nothing] at read
      cases read
  | database source =>
    have free : FileMap.Free before.file inst.databasePlace := free_of_absent begun.ready.1
    obtain ⟨content, file⟩ := Option.isSome_iff_exists.mp begun.may
    have leaf : ∀ below, below ≠ [] → before.file (source ++ below) = none := by
      intro below nonempty
      rw [Disk.file, before.entry_below_file file nonempty]
      rfl
    have known := begun.ready.2 source rfl begun.may
    show Promised inst sqlite original disk.file
    rw [moved.file]
    exact ⟨begun.promised.whole.tail (.database known free leaf),
      begun.promised.refers.trans (Refers.database known free leaf)⟩

theorem free_of_clear (clear : inst.Clear disk move) : FileMap.Free disk.file (inst.destination move) := by
  cases move with
  | storage => exact free_of_effectivelyEmpty clear
  | database source => exact free_of_absent (Disk.present_eq_false.mp clear)

theorem promised_of_mayStop {phase : Phase} (inv : inst.PhaseInv sqlite original disk phase)
    (may : inst.MayStop sqlite disk phase) : Promised inst sqlite original disk.file := by
  cases phase with
  | removingScaffold rest => exact inv.1
  | makingParent move rest => exact inv.1
  | moving move stage =>
    cases stage with
    | first => exact inv.1
    | second => exact inv.1
    | copying rest whole =>
      obtain ⟨before, begun, copying⟩ := inv
      rw [copying.stop begun.ready.1 (free_of_clear may)]
      exact begun.promised
    | removing rest =>
      obtain ⟨before, begun, removing⟩ := inv
      rw [removing.stop begun.ready.1 (free_of_clear may)]
      exact begun.promised
  | connecting place =>
    obtain ⟨before, rehoused⟩ := inv
    exact rehoused.stopped may
  | rewriting place loaded draft todo =>
    obtain ⟨⟨before, rehoused⟩, -⟩ := inv
    exact rehoused.stopped may

/-! ### The steps -/

variable {done : Bool}

theorem Begun.of_ready (promised : Promised inst sqlite original disk.file) (ready : inst.Ready disk move)
    (may : inst.MayMove sqlite disk move) (there : disk.present (inst.source move) = true)
    (apart : ¬inst.source move <+: inst.destination move) : inst.Begun sqlite original disk move := by
  refine ⟨promised, ready, may, apart, ?_⟩
  rintro ⟨below, same⟩
  rw [Disk.present, ← same, disk.entry_below_none ready.1] at there
  cases there

theorem inv_rename (promised : Promised inst sqlite original disk.file) (ready : inst.Ready disk move)
    (may : inst.MayMove sqlite disk move)
    (stepped : (disk.move (inst.source move) (inst.destination move)).map (fun disk => inst.moved start disk move) =
      some state) : inst.Inv sqlite original state := by
  obtain ⟨next, done, rfl⟩ := Option.map_eq_some_iff.mp stepped
  obtain ⟨there, -, apart⟩ := Disk.move_free done
  exact inv_moved (Begun.of_ready promised ready may there apart) (EntriesMoved.of_move done)

theorem inv_callMove {stage : MoveStage} (inv : inst.PhaseInv sqlite original disk (.moving move stage))
    (stop : stops (.moving move stage) (.call done : Event Content) = true →
      inst.MayStop sqlite disk (.moving move stage))
    (begin : ∀ other ∈ begins (.moving move stage) (.call done : Event Content), inst.MayMove sqlite disk other)
    (stepped : inst.callMove start disk move done stage = some state) : inst.Inv sqlite original state := by
  have promised := promised_of_mayStop inv
  cases stage with
  | first =>
    obtain ⟨kept, ready⟩ := inv
    cases done with
    | true => exact inv_rename kept ready (begin move rfl) stepped
    | false =>
      cases stepped
      exact ⟨kept, ready⟩
  | second =>
    obtain ⟨kept, ready⟩ := inv
    cases done with
    | true => exact inv_rename kept ready (begin move rfl) stepped
    | false =>
      rw [callMove, if_neg Bool.false_ne_true] at stepped
      split at stepped
      · exact inv_raised kept stepped
      · rename_i free
        rw [not_or, Bool.not_eq_false] at free
        cases stepped
        -- The rename has failed twice: from here the tree is copied entry by entry.
        exact ⟨disk, Begun.of_ready kept ready (begin move rfl) free.1 free.2, Copying.start ready.1⟩
  | copying rest whole =>
    cases done with
    | false => exact inv_raised (promised (stop rfl)) stepped
    | true =>
      rw [callMove, if_pos rfl] at stepped
      split at stepped
      · cases stepped
      · rename_i empty
        rw [ne_eq, not_not] at empty
        subst empty
        cases whole with
        | false => exact inv_raised (promised (stop rfl)) stepped
        | true =>
          obtain ⟨before, begun, copying⟩ := inv
          cases stepped
          exact ⟨before, begun, copying.finish begun.apart begun.apart'⟩
  | removing rest =>
    cases done with
    | false => exact inv_raised (promised (stop rfl)) stepped
    | true =>
      rw [callMove, if_pos rfl] at stepped
      split at stepped
      · rename_i empty
        subst empty
        obtain ⟨before, begun, removing⟩ := inv
        cases stepped
        exact inv_moved begun removing.finish
      · cases stepped

/-- A statement, or the commit, which makes the move of the storage a migration. -/
theorem inv_callStatement {loaded draft : Tables} {todo : List Statement}
    (inv : inst.PhaseInv sqlite original disk (.rewriting place loaded draft todo))
    (stepped : inst.callStatement sqlite start disk place loaded draft todo = some state) :
    inst.Inv sqlite original state := by
  obtain ⟨⟨before, rehoused⟩, read, draws⟩ := inv
  cases todo with
  | cons statement todo =>
    rw [List.foldl_cons] at draws
    cases statement with
    | select table =>
      cases stepped
      refine ⟨⟨before, rehoused⟩, read, ?_⟩
      rw [List.foldl_append, perform_updates]
      exact draws
    | update table id value =>
      cases stepped
      exact ⟨⟨before, rehoused⟩, read, draws⟩
  | nil =>
    rw [List.foldl_nil] at draws
    subst draws
    rw [callStatement] at stepped
    split at stepped
    · rename_i same
      cases stepped
      -- Nothing in the tables referred to the old place, so the file stays as it is.
      refine inv_migrateDatabaseFile (rehoused.stopped ?_)
      intro tables known
      cases (Option.mem_def.mp known).symm.trans read
      exact same
    · rename_i changed
      obtain ⟨content, holds, written⟩ := Option.bind_eq_some_iff.mp stepped
      obtain ⟨next, done, rfl⟩ := Option.map_eq_some_iff.mp written
      rw [holds, Option.bind_some] at read
      refine inv_migrateDatabaseFile ?_
      have found : inst.found (FileMap.there disk.file) = some place := by
        rw [← rehoused.resolved]
        refine found_resolved ?_
        rw [rehoused.resolved, FileMap.there, holds]
        rfl
      -- The commit writes the tables with every path rewritten at once.
      have committed : inst.rewrittenFiles sqlite disk.file = next.file := by
        rw [rewrittenFiles, found, Disk.file_write done]
        dsimp only
        rw [holds, Option.map_some, rewrittenContent, read]
        dsimp only
        rw [if_neg changed]
      rw [← committed]
      exact rehoused.promised

theorem inv_callPhase {phase : Phase} (inv : inst.PhaseInv sqlite original disk phase)
    (stop : stops phase (.call done : Event Content) = true → inst.MayStop sqlite disk phase)
    (begin : ∀ other ∈ begins phase (.call done : Event Content), inst.MayMove sqlite disk other)
    (stepped : inst.callPhase sqlite start disk done phase = some state) : inst.Inv sqlite original state := by
  have promised := promised_of_mayStop inv
  cases phase with
  | moving move stage => exact inv_callMove inv stop begin stepped
  | removingScaffold rest =>
    cases done with
    | false => exact inv_raised (promised trivial) stepped
    | true =>
      obtain ⟨kept, free, listed, -⟩ := inv
      rw [callPhase, if_neg Bool.false_ne_true.symm] at stepped
      split at stepped
      · cases stepped
      · rename_i empty
        rw [ne_eq, not_not] at empty
        subst empty
        cases stepped
        refine ⟨kept, ⟨?_, fun source other => Move.noConfusion other⟩, ?_⟩
        · rw [← Disk.present_eq_false, ← Bool.not_eq_true]
          exact fun there => List.not_mem_nil (listed _ List.prefix_rfl there)
        · intro parent member
          exact (List.mem_inits _ _).mp (List.mem_filter.mp member).1
  | makingParent move rest =>
    cases done with
    | false => exact inv_raised (promised trivial) stepped
    | true =>
      obtain ⟨kept, ready, above⟩ := inv
      cases rest with
      | nil =>
        cases stepped
        exact ⟨kept, ready⟩
      | cons parent rest =>
        obtain ⟨next, made, rfl⟩ := Option.map_eq_some_iff.mp stepped
        have files := Disk.file_mkdir made
        refine ⟨by rw [files]; exact kept, ⟨?_, by rw [files]; exact ready.2⟩,
          fun other member => above other (List.mem_cons_of_mem _ member)⟩
        rw [Disk.entry_mkdir made, if_neg, ready.1]
        intro same
        -- A parent of the destination is shorter than it, so making it takes nothing from the destination.
        have short := (above parent List.mem_cons_self).length_le
        have nonempty := List.length_pos_iff.mpr (Disk.mkdir_ne_nil made)
        rw [← same, List.length_dropLast] at short
        rw [← same] at nonempty
        omega
  | connecting place =>
    cases done with
    | false => exact inv_raised (promised (stop rfl)) stepped
    | true =>
      obtain ⟨tables, read, rfl⟩ := Option.map_eq_some_iff.mp stepped
      exact ⟨inv, read, inst.perform_rewriteStatements tables⟩
  | rewriting place loaded draft todo =>
    cases done with
    | false => exact inv_raised (promised (stop rfl)) stepped
    | true => exact inv_callStatement inv stepped

theorem inv_entryPhase {phase : Phase} {attempt : Attempt Content}
    (inv : inst.PhaseInv sqlite original disk phase)
    (stop : stops phase (.entry place attempt) = true → inst.MayStop sqlite disk phase)
    (stepped : inst.entryPhase start disk place attempt phase = some state) : inst.Inv sqlite original state := by
  have promised := promised_of_mayStop inv
  cases phase with
  | makingParent move rest => cases stepped
  | connecting database => cases stepped
  | rewriting database loaded draft todo => cases stepped
  | removingScaffold rest =>
    rw [entryPhase, removeEntry] at stepped
    split at stepped
    · cases stepped
    · split at stepped
      · rename_i member _
        rw [not_not] at member
        obtain ⟨kept, free, listed, under⟩ := inv
        obtain ⟨next, done, rfl⟩ := Option.map_eq_some_iff.mp stepped
        -- What is removed lies in the scaffold, in which no file counts.
        obtain ⟨below, rfl⟩ := under place member
        have files := Disk.file_remove done (free below)
        refine ⟨by rw [files]; exact kept, by rw [files]; exact free, ?_,
          fun other listed => under other (List.mem_of_mem_erase listed)⟩
        intro other inside there
        rw [Disk.present, Disk.entry_remove done] at there
        split at there
        · cases there
        · rename_i apart
          exact (List.mem_erase_of_ne apart).mpr (listed other inside there)
      · exact inv_raised (promised trivial) stepped
  | moving move stage =>
    cases stage with
    | first => cases stepped
    | second => cases stepped
    | removing rest =>
      rw [entryPhase, removeEntry] at stepped
      split at stepped
      · cases stepped
      · split at stepped
        · rename_i member _
          rw [not_not] at member
          obtain ⟨before, begun, removing⟩ := inv
          obtain ⟨next, done, rfl⟩ := Option.map_eq_some_iff.mp stepped
          exact ⟨before, begun, removing.remove begun.apart begun.apart' member done⟩
        · rename_i failed
          have stopped : stops (.moving move (.removing rest)) (.entry place attempt) = true := by
            rw [stops, Bool.not_eq_true'] at *
            exact Bool.not_eq_true _ ▸ failed
          exact inv_raised (promised (stop stopped)) stepped
    | copying rest whole =>
      rw [entryPhase, copyEntry] at stepped
      dsimp only at stepped
      obtain ⟨before, begun, copying⟩ := inv
      split at stepped
      · cases stepped
      · rename_i listed
        rw [not_or, not_not] at listed
        split at stepped
        · cases stepped
          exact ⟨before, begun, copying.skip⟩
        · obtain ⟨entry, there, written⟩ := Option.bind_eq_some_iff.mp stepped
          cases copy : copied entry attempt with
          | none =>
            rw [copy] at written
            cases written
            exact ⟨before, begun, copying.skip⟩
          | some node =>
            rw [copy] at written
            obtain ⟨next, done, rfl⟩ := Option.map_eq_some_iff.mp written
            refine ⟨before, begun, copying.put begun.apart begun.apart' listed.1 there done ?_⟩
            intro whole
            cases attempt with
            | done => exact (Option.some.inj copy).symm
            | failed written => cases whole

theorem Inv.step {event : Event Content} (inv : inst.Inv sqlite original state)
    (careful : Careful inst sqlite state event) {after : State Content}
    (stepped : inst.step sqlite state event = some after) : inst.Inv sqlite original after := by
  obtain ⟨disk, process⟩ := state
  cases process with
  | stopped outcome =>
    cases event with
    | start start =>
      cases stepped
      exact inv_migrateStorageDir inv
    | call done => cases stepped
    | entry place attempt => cases stepped
    | kill => cases stepped
  | running start phase =>
    obtain ⟨stop, begin⟩ := careful phase rfl
    cases event with
    | start other => cases stepped
    | call done => exact inv_callPhase inv stop begin stepped
    | entry place attempt => exact inv_entryPhase inv stop stepped
    | kill =>
      cases stepped
      exact promised_of_mayStop inv (stop rfl)

end Installation

/-- Wherever a start stops, the storage is as it was or migrated, and every stored path leads to its files. -/
theorem starts_promised {inst : Installation} {sqlite : Sqlite Content} {disk : Disk Content}
    {history : List (Event Content)} {state : State Content} {outcome : Option Outcome}
    (careful : (migrationSystem inst sqlite disk).Throughout (Careful inst sqlite) history)
    (reached : (migrationSystem inst sqlite disk).reached history = some state)
    (stopped : state.process = .stopped outcome) : Promised inst sqlite disk.file state.disk.file := by
  have initial : inst.Inv sqlite disk.file (migrationSystem inst sqlite disk).initial :=
    ⟨Relation.ReflTransGen.refl, Refers.refl disk.file⟩
  have inv := System.invariant (P := inst.Inv sqlite disk.file) initial
    (fun _ _ _ inv careful stepped => inv.step careful stepped) careful reached
  rw [Installation.Inv, stopped] at inv
  exact inv

/-! ### A start that gets through, and one that is killed after the move -/

inductive Sample where
  | bytes (bytes : List UInt8)
  | database (tables : Tables)
  deriving DecidableEq

def Sample.tables : Sample → Option Tables
  | .bytes _ => none
  | .database tables => some tables

def sampleSqlite : Sqlite Sample where
  tables := Sample.tables
  stored _ tables := .database tables
  tables_stored _ _ _ _ := rfl

def emptyDisk : Disk Sample where
  entries := (∅ : Unpacking.Tree Text Sample).set [] .directory
  rooted := by
    intro place name entry there
    rw [Dict.get?_set_ne _ _ (List.concat_ne_nil _ _)] at there
    cases there

def linux : Installation where
  home := path "/home/u"
  storageDir := path "/home/u/.local/share/physicalai"
  dataDirEnv := none
  databaseFile := path "physicalai.db"
  workingDirectory := ["srv".toList]

def sampleTables (dataset : String) : Tables where
  datasets := (∅ : Dict Text Text).set "pick".toList dataset.toList
  models := (∅ : Dict Text Text).set "act".toList "/mnt/act".toList
  snapshots := ∅

/-- A dataset in the old directory, a model elsewhere, and the database below the working directory. -/
def makeOldDisk : Option (Disk Sample) := do
  let disk ← emptyDisk.mkdir ["home".toList]
  let disk ← disk.mkdir (linux.place (path "/home/u"))
  let disk ← disk.mkdir (linux.place (path "/home/u/.cache"))
  let disk ← disk.mkdir linux.oldPlace
  let disk ← disk.write (linux.place (path "/home/u/.cache/physicalai/pick")) (.bytes [1])
  let disk ← disk.mkdir ["srv".toList]
  let disk ← disk.mkdir (linux.place (path "data"))
  disk.write (linux.place (path "data/physicalai.db")) (.database (sampleTables "/home/u/.cache/physicalai/pick"))

theorem makeOldDisk_made : makeOldDisk.isSome = true := by decide

def oldDisk : Disk Sample := makeOldDisk.get makeOldDisk_made

def automatic : Start where
  storageDirSet := false
  autoMigrate := some "true".toList
  interactive := false
  confirmStorage := false
  confirmDatabase := false

def movedStorage : List (Event Sample) :=
  [.call true, .call true, .call true, .call true, .call true, .start automatic]

/-- The connection, the four statements and the commit, and then the move of the database. -/
def wholeStart : List (Event Sample) :=
  [.call true, .call true, .call true, .call true, .call true, .call true, .call true, .call true, .call true] ++
    movedStorage

theorem wholeStart_led : ((migrationSystem linux sampleSqlite oldDisk).reached wholeStart).isSome = true := by
  decide +kernel

theorem wholeStart_promised : ∃ state, (migrationSystem linux sampleSqlite oldDisk).reached wholeStart = some state ∧
    Promised linux sampleSqlite oldDisk.file state.disk.file ∧ state.process = .stopped (some .returned) ∧
    linux.tablesIn sampleSqlite state.disk.file = some (sampleTables "/home/u/.local/share/physicalai/pick") := by
  have stopped : (Option.get _ wholeStart_led).process = .stopped (some .returned) := by decide +kernel
  exact ⟨_, (Option.some_get wholeStart_led).symm,
    starts_promised (by decide +kernel) (Option.some_get wholeStart_led).symm stopped, stopped, by decide +kernel⟩

/-- The start is killed when the storage has been moved; the next one has only the database to move. -/
def killedAfterMove : List (Event Sample) :=
  [.call true, .call true, .call true, .start automatic, .kill] ++ movedStorage

theorem killedAfterMove_led : ((migrationSystem linux sampleSqlite oldDisk).reached killedAfterMove).isSome = true := by
  decide +kernel

/-- The next start returns, and the dataset's path leads to the old directory, which is gone. -/
theorem killedAfterMove_dangles :
    ∃ state, (migrationSystem linux sampleSqlite oldDisk).reached killedAfterMove = some state ∧
      state.process = .stopped (some .returned) ∧ ¬Promised linux sampleSqlite oldDisk.file state.disk.file := by
  refine ⟨_, (Option.some_get killedAfterMove_led).symm, by decide +kernel, fun promised => ?_⟩
  have follows := promised.refers.follows (sampleTables "/home/u/.cache/physicalai/pick") (by decide +kernel)
    (sampleTables "/home/u/.cache/physicalai/pick") (by decide +kernel) .datasets "pick".toList
    "/home/u/.cache/physicalai/pick".toList "/home/u/.cache/physicalai/pick".toList rfl rfl [] (.bytes [1])
    (by decide +kernel) rfl
  revert follows
  decide +kernel

end PhysicalAiStudio.Storage
