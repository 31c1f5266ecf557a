import Mathlib.Data.List.Induction
import Mathlib.Logic.Function.Basic
import PhysicalAiStudio.Files.PurePath
import PhysicalAiStudio.Files.Unpacking

/-! A file system of files and directories, where every entry is in a directory.

An operation that the file system refuses has no result. What a file holds is of any type.
-/

set_option autoImplicit false

namespace PhysicalAiStudio.Files
open Strings Collections

variable {Content : Type}

namespace Unpacking.Entry

def content? : Unpacking.Entry Content → Option Content
  | .file content => some content
  | .directory => none

def isDirectory : Unpacking.Entry Content → Bool
  | .file _ => false
  | .directory => true

end Unpacking.Entry

structure Disk (Content : Type) where
  entries : Unpacking.Tree Text Content
  rooted : ∀ place name entry, entries.get? (place ++ [name]) = some entry → entries.get? place = some .directory

namespace Disk

def entry (disk : Disk Content) (place : Place) : Option (Unpacking.Entry Content) := disk.entries.get? place

def file (disk : Disk Content) (place : Place) : Option Content := (disk.entry place).bind Unpacking.Entry.content?

/-- `Path.exists`. -/
def present (disk : Disk Content) (place : Place) : Bool := (disk.entry place).isSome

/-- `Path.is_dir`. -/
def isDirectory (disk : Disk Content) (place : Place) : Bool := (disk.entry place).any Unpacking.Entry.isDirectory

def tree (disk : Disk Content) (place : Place) : List Place := disk.entries.keys.filter fun other => place <+: other

/-- `Path.iterdir`. -/
def children (disk : Disk Content) (place : Place) : List Place :=
  disk.entries.keys.filter fun other => other ≠ [] ∧ other.dropLast = place

def relocated (source destination place : Place) : Place :=
  if source <+: place then destination ++ place.drop source.length else place

theorem isDirectory_iff {disk : Disk Content} {place : Place} :
    disk.isDirectory place = true ↔ disk.entry place = some .directory := by
  unfold isDirectory
  cases found : disk.entry place with
  | none => simp
  | some entry => cases entry <;> simp [Unpacking.Entry.isDirectory]

theorem file_eq_some {disk : Disk Content} {place : Place} {content : Content} :
    disk.file place = some content ↔ disk.entry place = some (.file content) := by
  unfold file
  cases found : disk.entry place with
  | none => simp
  | some entry => cases entry <;> simp [Unpacking.Entry.content?]

theorem present_of_entry {disk : Disk Content} {place : Place} {entry : Unpacking.Entry Content}
    (there : disk.entry place = some entry) : disk.present place = true := by
  rw [present, there]
  rfl

theorem present_eq_false {disk : Disk Content} {place : Place} :
    disk.present place = false ↔ disk.entry place = none := by
  rw [present, Option.isSome_eq_false_iff, Option.isNone_iff_eq_none]

theorem directory_above (disk : Disk Content) {place rest : Place} {entry : Unpacking.Entry Content}
    (there : disk.entry (place ++ rest) = some entry) (below : rest ≠ []) : disk.entry place = some .directory := by
  induction rest using List.reverseRecOn generalizing entry with
  | nil => exact absurd rfl below
  | append_singleton rest name ih =>
    rw [← List.append_assoc] at there
    have parent : disk.entry (place ++ rest) = some .directory := disk.rooted _ name entry there
    by_cases last : rest = []
    · rwa [last, List.append_nil] at parent
    · exact ih parent last

theorem entry_below_none (disk : Disk Content) {place : Place} (absent : disk.entry place = none) (rest : Place) :
    disk.entry (place ++ rest) = none := by
  by_cases last : rest = []
  · rw [last, List.append_nil, absent]
  · cases there : disk.entry (place ++ rest) with
    | none => rfl
    | some entry =>
      rw [disk.directory_above there last] at absent
      cases absent

theorem entry_below_file (disk : Disk Content) {place : Place} {content : Content}
    (file : disk.file place = some content) {rest : Place} (below : rest ≠ []) : disk.entry (place ++ rest) = none := by
  cases there : disk.entry (place ++ rest) with
  | none => rfl
  | some entry =>
    have directory := disk.directory_above there below
    rw [file_eq_some.mp file] at directory
    cases directory

def put (disk : Disk Content) (place : Place) (entry : Unpacking.Entry Content) : Option (Disk Content) :=
  -- An entry is written only into a directory, and never over one.
  if free : place ≠ [] ∧ disk.isDirectory place.dropLast = true ∧ disk.isDirectory place = false then
    some {
      entries := disk.entries.set place entry
      rooted := by
        intro parent name child there
        obtain ⟨nonempty, above, here⟩ := free
        have directory : disk.entry parent = some .directory := by
          rw [Dict.get?_set] at there
          split at there
          · rename_i same
            rw [← same, List.dropLast_concat] at above
            exact isDirectory_iff.mp above
          · exact disk.rooted parent name child there
        have other : parent ≠ place := by
          intro same
          rw [← same, isDirectory_iff.mpr directory] at here
          cases here
        rw [Dict.get?_set_ne _ _ other]
        exact directory }
  else none

def mkdir (disk : Disk Content) (place : Place) : Option (Disk Content) :=
  if disk.present place then none else disk.put place .directory

def write (disk : Disk Content) (place : Place) (content : Content) : Option (Disk Content) :=
  disk.put place (.file content)

/-- `os.unlink` or `os.rmdir`. -/
def remove (disk : Disk Content) (place : Place) : Option (Disk Content) :=
  -- What goes is a file or an empty directory.
  if free : disk.present place = true ∧ disk.children place = [] then
    some {
      entries := disk.entries.erase place
      rooted := by
        intro parent name child there
        have known : disk.entry (parent ++ [name]) = some child := by
          by_cases same : parent ++ [name] = place
          · subst same
            exact absurd ((AList.lookup_erase _ _).symm.trans there) (Option.some_ne_none child ∘ Eq.symm)
          · exact (AList.lookup_erase_ne same).symm.trans there
        have other : parent ≠ place := by
          rintro rfl
          have listed : parent ++ [name] ∈ disk.children parent := by
            refine List.mem_filter.mpr ⟨AList.mem_keys.mpr (Dict.mem_iff_get?.mpr ⟨child, known⟩), ?_⟩
            exact decide_eq_true ⟨List.concat_ne_nil _ _, List.dropLast_concat⟩
          rw [free.2] at listed
          exact List.not_mem_nil listed
        exact (AList.lookup_erase_ne other).trans (disk.rooted parent name child known) }
  else none

/-- Two entries are apart after the move if they were before and nothing was at the destination. -/
theorem relocated_injective {disk : Disk Content} {source destination : Place}
    (absent : disk.entry destination = none) {first second : Place} (here : disk.present first = true)
    (there : disk.present second = true)
    (same : relocated source destination first = relocated source destination second) : first = second := by
  have occupied : ∀ place, disk.present place = true → ¬destination <+: place := by
    rintro place known ⟨rest, rfl⟩
    rw [present, disk.entry_below_none absent] at known
    cases known
  unfold relocated at same
  split at same
  · rename_i below
    obtain ⟨rest, rfl⟩ := below
    rw [List.drop_left] at same
    split at same
    · rename_i below
      obtain ⟨other, rfl⟩ := below
      rw [List.drop_left] at same
      rw [List.append_cancel_left same]
    · exact absurd ⟨rest, same⟩ (occupied second there)
  · split at same
    · exact absurd ⟨_, same.symm⟩ (occupied first here)
    · exact same

theorem entry_rename {disk : Disk Content} {source destination : Place} (absent : disk.entry destination = none)
    (place : Place) (entry : Unpacking.Entry Content) :
    (disk.entries.rename fun old => some (relocated source destination old)).get? place = some entry ↔
      ∃ old, relocated source destination old = place ∧ disk.entry old = some entry := by
  rw [Dict.get?_rename]
  · simp only [Option.some.injEq]
    rfl
  · intro first here second there key new same
    have known : ∀ place, place ∈ disk.entries → disk.present place = true := by
      intro place member
      obtain ⟨entry, found⟩ := Dict.mem_iff_get?.mp member
      exact Option.isSome_iff_exists.mpr ⟨entry, found⟩
    exact relocated_injective absent (known first here) (known second there)
      ((Option.some.inj new).trans (Option.some.inj same).symm)

theorem entry_moved {disk : Disk Content} {source destination : Place} (absent : disk.entry destination = none)
    (place : Place) :
    (disk.entries.rename fun old => some (relocated source destination old)).get? place =
      if destination <+: place then disk.entry (source ++ place.drop destination.length)
      else if source <+: place then none
      else disk.entry place := by
  ext entry
  rw [entry_rename absent]
  -- What is below the destination was moved there, what was below the source is gone, and the rest stays.
  by_cases moved : destination <+: place
  · obtain ⟨rest, rfl⟩ := moved
    rw [if_pos (List.prefix_append _ _), List.drop_left]
    constructor
    · rintro ⟨old, same, there⟩
      unfold relocated at same
      split at same
      · rename_i below
        obtain ⟨other, rfl⟩ := below
        rw [List.drop_left] at same
        rwa [← List.append_cancel_left same]
      · rw [same, disk.entry_below_none absent] at there
        cases there
    · intro there
      refine ⟨source ++ rest, ?_, there⟩
      rw [relocated, if_pos (List.prefix_append _ _), List.drop_left]
  · rw [if_neg moved]
    by_cases gone : source <+: place
    · rw [if_pos gone]
      refine ⟨?_, fun nothing => absurd nothing.symm (Option.some_ne_none entry)⟩
      rintro ⟨old, same, -⟩
      unfold relocated at same
      split at same
      · exact absurd ⟨_, same⟩ moved
      · rename_i outside
        exact absurd (same ▸ gone) outside
    · rw [if_neg gone]
      constructor
      · rintro ⟨old, same, there⟩
        unfold relocated at same
        split at same
        · exact absurd ⟨_, same⟩ moved
        · rwa [← same]
      · intro there
        exact ⟨place, by rw [relocated, if_neg gone], there⟩

def move (disk : Disk Content) (source destination : Place) : Option (Disk Content) :=
  if free : disk.present source = true ∧ destination ≠ [] ∧ disk.isDirectory destination.dropLast = true ∧
      disk.present destination = false ∧ ¬source <+: destination then
    some {
      entries := disk.entries.rename fun old => some (relocated source destination old)
      rooted := by
        obtain ⟨-, nonempty, above, unused, apart⟩ := free
        have absent := present_eq_false.mp unused
        intro place name entry there
        rw [entry_moved absent] at there ⊢
        by_cases moved : destination <+: place
        · obtain ⟨rest, rfl⟩ := moved
          rw [List.append_assoc, if_pos (List.prefix_append _ _), List.drop_left, ← List.append_assoc] at there
          rw [if_pos (List.prefix_append _ _), List.drop_left]
          exact disk.rooted _ name entry there
        · rw [if_neg moved]
          by_cases root : destination = place ++ [name]
          · -- The directory that the tree is moved into is not in the tree.
            subst root
            rw [if_neg fun below => apart (below.trans (List.prefix_append _ _))]
            rw [List.dropLast_concat] at above
            exact isDirectory_iff.mp above
          · have outside : ¬destination <+: place ++ [name] := by
              intro below
              rcases List.prefix_concat_iff.mp below with same | earlier
              · exact root same
              · exact moved earlier
            rw [if_neg outside] at there
            split at there
            · cases there
            · rename_i kept
              rw [if_neg fun below => kept (below.trans (List.prefix_append _ _))]
              exact disk.rooted place name entry there }
  else none

/-! ### What an operation leaves -/

variable {disk next : Disk Content} {place other : Place}

theorem entry_put {entry : Unpacking.Entry Content} (done : disk.put place entry = some next) (other : Place) :
    next.entry other = if other = place then some entry else disk.entry other := by
  unfold put at done
  split at done
  · cases done
    exact Dict.get?_set _ _ _ _
  · cases done

theorem put_free {entry : Unpacking.Entry Content} (done : disk.put place entry = some next) :
    place ≠ [] ∧ disk.entry place.dropLast = some .directory ∧ disk.entry place ≠ some .directory := by
  unfold put at done
  split at done
  · rename_i free
    refine ⟨free.1, isDirectory_iff.mp free.2.1, fun directory => ?_⟩
    rw [isDirectory_iff.mpr directory] at free
    cases free.2.2
  · cases done

theorem entry_mkdir (done : disk.mkdir place = some next) (other : Place) :
    next.entry other = if other = place then some .directory else disk.entry other := by
  unfold mkdir at done
  split at done
  · cases done
  · exact entry_put done other

theorem mkdir_ne_nil (done : disk.mkdir place = some next) : place ≠ [] := by
  unfold mkdir at done
  split at done
  · cases done
  · exact (put_free done).1

/-- A new directory holds no file and replaces none. -/
theorem file_mkdir (done : disk.mkdir place = some next) : next.file = disk.file := by
  funext other
  have entry := entry_mkdir done other
  unfold file
  rw [entry]
  split
  · rename_i same
    subst same
    unfold mkdir at done
    split at done
    · cases done
    · rename_i there
      rw [Bool.not_eq_true, present_eq_false] at there
      rw [there]
      rfl
  · rfl

theorem entry_remove (done : disk.remove place = some next) (other : Place) :
    next.entry other = if other = place then none else disk.entry other := by
  unfold remove at done
  split at done
  · cases done
    split
    · rename_i same
      subst same
      exact AList.lookup_erase _ _
    · rename_i apart
      exact AList.lookup_erase_ne apart
  · cases done

theorem file_remove (done : disk.remove place = some next) (empty : disk.file place = none) :
    next.file = disk.file := by
  funext other
  rw [file, entry_remove done]
  split
  · rename_i same
    rw [same, empty]
    rfl
  · rfl

theorem file_write {content : Content} (done : disk.write place content = some next) :
    next.file = Function.update disk.file place (some content) := by
  funext other
  rw [file, entry_put done]
  by_cases same : other = place
  · subst same
    rw [if_pos rfl, Function.update_self]
    rfl
  · rw [if_neg same, Function.update_of_ne same, file]

theorem entry_move {source destination : Place} (done : disk.move source destination = some next) (other : Place) :
    next.entry other =
      if destination <+: other then disk.entry (source ++ other.drop destination.length)
      else if source <+: other then none
      else disk.entry other := by
  unfold move at done
  split at done
  · rename_i free
    cases done
    exact entry_moved (present_eq_false.mp free.2.2.2.1) other
  · cases done

theorem move_free {source destination : Place} (done : disk.move source destination = some next) :
    disk.present source = true ∧ disk.entry destination = none ∧ ¬source <+: destination := by
  unfold move at done
  split at done
  · rename_i free
    exact ⟨free.1, present_eq_false.mp free.2.2.2.1, free.2.2.2.2⟩
  · cases done

theorem mem_keys : other ∈ disk.entries.keys ↔ disk.present other = true :=
  AList.mem_keys.symm.trans (Dict.mem_iff_get?.trans Option.isSome_iff_exists.symm)

theorem mem_children : other ∈ disk.children place ↔ ∃ name, other = place ++ [name] ∧ disk.present other = true := by
  rw [children, List.mem_filter, mem_keys, decide_eq_true_eq]
  constructor
  · rintro ⟨there, nonempty, rfl⟩
    exact ⟨other.getLast nonempty, (List.dropLast_append_getLast nonempty).symm, there⟩
  · rintro ⟨name, rfl, there⟩
    exact ⟨there, List.concat_ne_nil _ _, List.dropLast_concat⟩

theorem mem_tree : other ∈ disk.tree place ↔ place <+: other ∧ disk.present other = true := by
  rw [tree, List.mem_filter, mem_keys, decide_eq_true_eq]
  exact And.comm

theorem entry_unlisted (disk : Disk Content) {source below : Place} (unlisted : source ++ below ∉ disk.tree source) :
    disk.entry (source ++ below) = none := by
  by_contra there
  obtain ⟨entry, found⟩ := Option.ne_none_iff_exists'.mp there
  exact unlisted (mem_tree.mpr ⟨List.prefix_append _ _, present_of_entry found⟩)

end Disk

end PhysicalAiStudio.Files
