import PhysicalAiStudio.Collections.Dict
import Mathlib.Data.List.Infix

/-! Unpacking files and directories into an empty directory, one entry after the other.

A file replaces the file that was unpacked to its path before, and nothing replaces a directory. Which entries
end up where is read off the list of what is packed.
-/

set_option autoImplicit false

namespace PhysicalAiStudio.Files.Unpacking
open Collections

variable {Name Content : Type} [DecidableEq Name]

structure Packed (Name Content : Type) where
  path : List Name
  content : Option Content

inductive Entry (Content : Type) where
  | file (content : Content)
  | directory
  deriving DecidableEq

abbrev Tree (Name Content : Type) := Dict (List Name) (Entry Content)

/-- `makedirs`, which fails where a file is in the way. -/
def makeDirs (tree : Tree Name Content) (done : List Name) : List Name → Option (Tree Name Content)
  | [] => some tree
  | name :: names =>
    match tree.get? (done ++ [name]) with
    | some (.file _) => none
    | some .directory => makeDirs tree (done ++ [name]) names
    | none => makeDirs (tree.set (done ++ [name]) .directory) (done ++ [name]) names

def unpackOne (tree : Tree Name Content) (packed : Packed Name Content) : Option (Tree Name Content) :=
  match packed.content with
  | none => makeDirs tree [] packed.path
  | some content =>
    if packed.path = [] then none
    else
      (makeDirs tree [] packed.path.dropLast).bind fun tree =>
        if tree.get? packed.path matches some .directory then none else some (tree.set packed.path (.file content))

def unpack (packed : List (Packed Name Content)) : Option (Tree Name Content) := packed.foldlM unpackOne ∅

/-! ### What is where -/

def Packed.directory (packed : Packed Name Content) : List Name :=
  match packed.content with
  | none => packed.path
  | some _ => packed.path.dropLast

omit [DecidableEq Name] in
theorem Packed.directory_isPrefix (packed : Packed Name Content) : packed.directory <+: packed.path := by
  unfold Packed.directory
  split
  · exact List.prefix_rfl
  · exact List.dropLast_prefix _

def fileAt (packed : List (Packed Name Content)) (path : List Name) : Option Content :=
  packed.reverse.findSome? fun entry => if entry.path = path then entry.content else none

def HasDirectory (packed : List (Packed Name Content)) (path : List Name) : Prop :=
  path ≠ [] ∧ ∃ entry ∈ packed, path <+: entry.directory

def Clash (packed : List (Packed Name Content)) : Prop :=
  ∃ entry ∈ packed, entry.content.isSome = true ∧
    (entry.path = [] ∨ ∃ other ∈ packed, entry.path <+: other.directory)

structure Shows (tree : Tree Name Content) (packed : List (Packed Name Content)) : Prop where
  file : ∀ path content, tree.get? path = some (.file content) ↔ fileAt packed path = some content
  directory : ∀ path, tree.get? path = some .directory ↔ HasDirectory packed path

theorem fileAt_append (first second : List (Packed Name Content)) (path : List Name) :
    fileAt (first ++ second) path = (fileAt second path).or (fileAt first path) := by
  simp only [fileAt, List.reverse_append, List.findSome?_append]

theorem fileAt_singleton (entry : Packed Name Content) (path : List Name) :
    fileAt [entry] path = if entry.path = path then entry.content else none := by
  simp only [fileAt, List.reverse_singleton, List.findSome?_singleton]

theorem mem_of_fileAt {packed : List (Packed Name Content)} {path : List Name} {content : Content}
    (found : fileAt packed path = some content) : ∃ entry ∈ packed, entry.path = path ∧ entry.content = some content := by
  obtain ⟨entry, member, here⟩ := List.exists_of_findSome?_eq_some found
  rw [List.mem_reverse] at member
  split at here
  · next same => exact ⟨entry, member, same, here⟩
  · cases here

theorem fileAt_of_mem {packed : List (Packed Name Content)} {entry : Packed Name Content} (member : entry ∈ packed)
    (file : entry.content.isSome = true) : ∃ content, fileAt packed entry.path = some content := by
  rw [← Option.isSome_iff_exists]
  unfold fileAt
  rw [List.findSome?_isSome_iff]
  exact ⟨entry, List.mem_reverse.mpr member, by rw [if_pos rfl]; exact file⟩

omit [DecidableEq Name] in
theorem Clash.mono {packed more : List (Packed Name Content)} (clash : Clash packed)
    (subset : ∀ entry ∈ packed, entry ∈ more) : Clash more := by
  obtain ⟨entry, member, file, why⟩ := clash
  refine ⟨entry, subset entry member, file, why.imp_right ?_⟩
  rintro ⟨other, there, above⟩
  exact ⟨other, subset other there, above⟩

/-! ### Directories -/

def Below (done names path : List Name) : Prop := ∃ front, front ≠ [] ∧ front <+: names ∧ path = done ++ front

omit [DecidableEq Name] in
theorem below_cons {done names path : List Name} {name : Name} :
    Below done (name :: names) path ↔ path = done ++ [name] ∨ Below (done ++ [name]) names path := by
  unfold Below
  constructor
  · rintro ⟨front, nonempty, starts, rfl⟩
    cases front with
    | nil => exact absurd rfl nonempty
    | cons first front =>
      obtain ⟨rfl, rest⟩ := List.cons_prefix_cons.mp starts
      by_cases last : front = []
      · left
        rw [last]
      · right
        exact ⟨front, last, rest, by simp⟩
  · rintro (rfl | ⟨front, nonempty, starts, rfl⟩)
    · exact ⟨[name], by simp, by simp, rfl⟩
    · exact ⟨name :: front, by simp, List.cons_prefix_cons.mpr ⟨rfl, starts⟩, by simp⟩

omit [DecidableEq Name] in
theorem below_nil {names path : List Name} : Below [] names path ↔ path ≠ [] ∧ path <+: names := by
  unfold Below
  constructor
  · rintro ⟨front, nonempty, starts, rfl⟩
    exact ⟨nonempty, starts⟩
  · rintro ⟨nonempty, starts⟩
    exact ⟨path, nonempty, starts, rfl⟩

/-- The directories are made where no file is in the way, and nothing else changes. -/
structure Made (tree result : Tree Name Content) (done names : List Name) : Prop where
  free : ∀ path, Below done names path → ∀ content, tree.get? path ≠ some (.file content)
  made : ∀ path, Below done names path → result.get? path = some .directory
  kept : ∀ path, ¬Below done names path → result.get? path = tree.get? path

theorem makeDirs_cases (tree : Tree Name Content) (done names : List Name) :
    (makeDirs tree done names = none ∧
      ∃ path content, Below done names path ∧ tree.get? path = some (.file content)) ∨
    ∃ result, makeDirs tree done names = some result ∧ Made tree result done names := by
  -- The induction goes down the names; `done` is the directory that has been reached.
  induction names generalizing tree done with
  | nil =>
    have nothing : ∀ path, ¬Below done [] path := by
      rintro path ⟨front, nonempty, starts, -⟩
      exact nonempty (List.prefix_nil.mp starts)
    exact Or.inr ⟨tree, rfl, fun path below => absurd below (nothing path), fun path below => absurd below (nothing path),
      fun path _ => rfl⟩
  | cons name names ih =>
    unfold makeDirs
    split
    · next content blocked => exact Or.inl ⟨rfl, done ++ [name], content, below_cons.mpr (Or.inl rfl), blocked⟩
    · -- The directory is there: only what the later names make is new.
      next there =>
      obtain ⟨failed, path, content, below, file⟩ | ⟨result, made, spec⟩ := ih tree (done ++ [name])
      · exact Or.inl ⟨failed, path, content, below_cons.mpr (Or.inr below), file⟩
      · refine Or.inr ⟨result, made, ?_, ?_, ?_⟩
        · intro path below content
          obtain rfl | below := below_cons.mp below
          · rw [there]
            simp
          · exact spec.free path below content
        · intro path below
          by_cases deeper : Below (done ++ [name]) names path
          · exact spec.made path deeper
          · obtain rfl | below := below_cons.mp below
            · rw [spec.kept _ deeper, there]
            · exact absurd below deeper
        · intro path outside
          exact spec.kept path fun below => outside (below_cons.mpr (Or.inr below))
    · next absent =>
      obtain ⟨failed, path, content, below, file⟩ | ⟨result, made, spec⟩ :=
        ih (tree.set (done ++ [name]) .directory) (done ++ [name])
      · refine Or.inl ⟨failed, path, content, below_cons.mpr (Or.inr below), ?_⟩
        rw [Dict.get?_set] at file
        split at file
        · cases file
        · exact file
      · refine Or.inr ⟨result, made, ?_, ?_, ?_⟩
        · intro path below content
          obtain rfl | below := below_cons.mp below
          · rw [absent]
            simp
          · have free := spec.free path below content
            rw [Dict.get?_set] at free
            split at free
            · next same =>
              rw [same, absent]
              simp
            · exact free
        · intro path below
          by_cases deeper : Below (done ++ [name]) names path
          · exact spec.made path deeper
          · obtain rfl | below := below_cons.mp below
            · rw [spec.kept _ deeper, Dict.get?_set_self]
            · exact absurd below deeper
        · intro path outside
          rw [spec.kept path fun below => outside (below_cons.mpr (Or.inr below))]
          exact Dict.get?_set_ne tree .directory fun same => outside (below_cons.mpr (Or.inl same))

/-! ### One entry -/

/-- The directories of an entry are made, its file is in place, and nothing else changes. -/
structure Unpacked (tree result : Tree Name Content) (packed : Packed Name Content) : Prop where
  free : ∀ path, path ≠ [] → path <+: packed.directory → ∀ content, tree.get? path ≠ some (.file content)
  made : ∀ path, path ≠ [] → path <+: packed.directory → result.get? path = some .directory
  file : ∀ content, packed.content = some content →
    packed.path ≠ [] ∧ tree.get? packed.path ≠ some .directory ∧ result.get? packed.path = some (.file content)
  kept : ∀ path, ¬(path ≠ [] ∧ path <+: packed.directory) → (packed.content.isSome = true → path ≠ packed.path) →
    result.get? path = tree.get? path

/-- Why an entry cannot be unpacked. -/
def Blocked (tree : Tree Name Content) (packed : Packed Name Content) : Prop :=
  (∃ path content, path ≠ [] ∧ path <+: packed.directory ∧ tree.get? path = some (.file content)) ∨
    packed.content.isSome = true ∧ (packed.path = [] ∨ tree.get? packed.path = some .directory)

omit [DecidableEq Name] in
theorem not_prefix_dropLast {path : List Name} (nonempty : path ≠ []) : ¬path <+: path.dropLast := by
  intro starts
  have shorter := starts.length_le
  have positive := List.length_pos_iff.mpr nonempty
  rw [List.length_dropLast] at shorter
  omega

theorem unpackOne_cases (tree : Tree Name Content) (packed : Packed Name Content) :
    (unpackOne tree packed = none ∧ Blocked tree packed) ∨
      ∃ result, unpackOne tree packed = some result ∧ Unpacked tree result packed := by
  obtain ⟨path, content⟩ := packed
  cases content with
  | none =>
    rcases makeDirs_cases tree [] path with ⟨failed, spot, content, below, file⟩ | ⟨result, made, spec⟩
    · obtain ⟨nonempty, starts⟩ := below_nil.mp below
      exact Or.inl ⟨failed, Or.inl ⟨spot, content, nonempty, starts, file⟩⟩
    · refine Or.inr ⟨result, made, ?_, ?_, ?_, ?_⟩
      · intro other nonempty starts
        exact spec.free other (below_nil.mpr ⟨nonempty, starts⟩)
      · intro other nonempty starts
        exact spec.made other (below_nil.mpr ⟨nonempty, starts⟩)
      · intro content file
        cases file
      · intro other outside _
        exact spec.kept other fun below => outside (below_nil.mp below)
  | some content =>
    by_cases empty : path = []
    · exact Or.inl ⟨by simp [unpackOne, empty], Or.inr ⟨rfl, Or.inl empty⟩⟩
    · -- A file is not among its own parents, so making them leaves its place as it was.
      have itself : ¬Below [] path.dropLast path := fun below => not_prefix_dropLast empty (below_nil.mp below).2
      rcases makeDirs_cases tree [] path.dropLast with ⟨failed, spot, other, below, file⟩ | ⟨result, made, spec⟩
      · obtain ⟨nonempty, starts⟩ := below_nil.mp below
        exact Or.inl ⟨by simp [unpackOne, empty, failed], Or.inl ⟨spot, other, nonempty, starts, file⟩⟩
      · by_cases directory : tree.get? path = some .directory
        · refine Or.inl ⟨?_, Or.inr ⟨rfl, Or.inr directory⟩⟩
          simp [unpackOne, empty, made, spec.kept path itself, directory]
        · refine Or.inr ⟨result.set path (.file content), ?_, ?_, ?_, ?_, ?_⟩
          · have free : result.get? path ≠ some .directory := spec.kept path itself ▸ directory
            simp only [unpackOne, if_neg empty, made, Option.bind_some]
            cases found : result.get? path with
            | none => rfl
            | some entry =>
              cases entry with
              | file old => rfl
              | directory => exact absurd found free
          · intro other nonempty starts
            exact spec.free other (below_nil.mpr ⟨nonempty, starts⟩)
          · intro other nonempty starts
            have above : other ≠ path := fun same => not_prefix_dropLast empty (same ▸ starts)
            rw [Dict.get?_set_ne _ _ above]
            exact spec.made other (below_nil.mpr ⟨nonempty, starts⟩)
          · intro same file
            cases file
            exact ⟨empty, directory, Dict.get?_set_self _ _ _⟩
          · intro other outside apart
            rw [Dict.get?_set_ne _ _ (apart rfl)]
            exact spec.kept other fun below => outside (below_nil.mp below)

/-! ### A whole list of entries -/

theorem unpack_append (packed : List (Packed Name Content)) (last : Packed Name Content) :
    unpack (packed ++ [last]) = (unpack packed).bind fun tree => unpackOne tree last := by
  unfold unpack
  rw [List.foldlM_append]
  congr 1
  funext tree
  simp

omit [DecidableEq Name] in
theorem hasDirectory_append (first second : List (Packed Name Content)) (path : List Name) :
    HasDirectory (first ++ second) path ↔ HasDirectory first path ∨ HasDirectory second path := by
  simp only [HasDirectory, List.mem_append, or_and_right, exists_or, and_or_left]

omit [DecidableEq Name] in
theorem hasDirectory_singleton (entry : Packed Name Content) (path : List Name) :
    HasDirectory [entry] path ↔ path ≠ [] ∧ path <+: entry.directory := by
  simp only [HasDirectory, List.mem_singleton, exists_eq_left]

theorem Shows.clash {tree : Tree Name Content} {packed : List (Packed Name Content)} (shows : Shows tree packed)
    {last : Packed Name Content} (blocked : Blocked tree last) : Clash (packed ++ [last]) := by
  rcases blocked with ⟨path, content, nonempty, starts, file⟩ | ⟨file, empty | directory⟩
  · obtain ⟨entry, member, rfl, data⟩ := mem_of_fileAt ((shows.file path content).mp file)
    exact ⟨entry, List.mem_append_left _ member, by simp [data], Or.inr ⟨last, by simp, starts⟩⟩
  · exact ⟨last, by simp, file, Or.inl empty⟩
  · obtain ⟨_, other, member, above⟩ := (shows.directory last.path).mp directory
    exact ⟨last, by simp, file, Or.inr ⟨other, List.mem_append_left _ member, above⟩⟩

theorem Shows.unpacked {tree result : Tree Name Content} {packed : List (Packed Name Content)}
    (shows : Shows tree packed) {last : Packed Name Content} (step : Unpacked tree result last) :
    Shows result (packed ++ [last]) := by
  have apart {path : List Name} (nonempty : path ≠ []) (starts : path <+: last.directory) :
      last.content.isSome = true → path ≠ last.path := by
    rintro file rfl
    obtain ⟨content, data⟩ := Option.isSome_iff_exists.mp file
    rw [Packed.directory, data] at starts
    exact not_prefix_dropLast nonempty starts
  refine ⟨fun path content => ?_, fun path => ?_⟩
  · rw [fileAt_append, fileAt_singleton]
    -- A parent of the new entry is a directory now; the entry itself is the last file there; all else stays.
    by_cases below : path ≠ [] ∧ path <+: last.directory
    · have above : (if last.path = path then last.content else none) = none := by
        split
        · next same =>
          by_contra file
          exact apart below.1 below.2 (Option.isSome_iff_ne_none.mpr file) same.symm
        · rfl
      rw [above, Option.none_or, step.made path below.1 below.2]
      constructor
      · intro directory
        cases directory
      · intro file
        exact absurd ((shows.file path content).mpr file) (step.free path below.1 below.2 content)
    · by_cases here : last.content.isSome = true ∧ last.path = path
      · obtain ⟨file, rfl⟩ := here
        obtain ⟨data, written⟩ := Option.isSome_iff_exists.mp file
        simp [written, (step.file data written).2.2]
      · have above : (if last.path = path then last.content else none) = none := by
          split
          · next same =>
            by_contra file
            exact here ⟨Option.isSome_iff_ne_none.mpr file, same⟩
          · rfl
        rw [above, Option.none_or, step.kept path below fun file same => here ⟨file, same.symm⟩]
        exact shows.file path content
  · rw [hasDirectory_append, hasDirectory_singleton]
    by_cases below : path ≠ [] ∧ path <+: last.directory
    · simp [step.made path below.1 below.2, below]
    · by_cases here : last.content.isSome = true ∧ last.path = path
      · obtain ⟨file, rfl⟩ := here
        obtain ⟨data, written⟩ := Option.isSome_iff_exists.mp file
        obtain ⟨_, free, placed⟩ := step.file data written
        rw [placed]
        constructor
        · intro directory
          cases directory
        · rintro (older | under)
          · exact absurd ((shows.directory _).mpr older) free
          · exact absurd under below
      · rw [step.kept path below fun file same => here ⟨file, same.symm⟩, shows.directory path]
        exact ⟨Or.inl, fun either => either.resolve_right below⟩

theorem Shows.no_clash {tree result : Tree Name Content} {packed : List (Packed Name Content)}
    (shows : Shows tree packed) (free : ¬Clash packed) {last : Packed Name Content}
    (step : Unpacked tree result last) : ¬Clash (packed ++ [last]) := by
  have placed {entry : Packed Name Content} (member : entry ∈ packed ++ [last]) (file : entry.content.isSome = true) :
      entry.path ≠ [] ∧ ∃ content, result.get? entry.path = some (.file content) := by
    obtain ⟨content, data⟩ := fileAt_of_mem member file
    refine ⟨?_, content, ((shows.unpacked step).file _ _).mpr data⟩
    rintro empty
    rcases List.mem_append.mp member with older | newer
    · exact free ⟨entry, older, file, Or.inl empty⟩
    · obtain rfl := List.mem_singleton.mp newer
      obtain ⟨data, written⟩ := Option.isSome_iff_exists.mp file
      exact (step.file data written).1 empty
  rintro ⟨entry, member, file, empty | ⟨other, there, above⟩⟩
  · exact (placed member file).1 empty
  · obtain ⟨nonempty, content, data⟩ := placed member file
    have directory := ((shows.unpacked step).directory entry.path).mpr ⟨nonempty, other, there, above⟩
    cases data.symm.trans directory

theorem unpack_cases (packed : List (Packed Name Content)) :
    (unpack packed = none ∧ Clash packed) ∨
      ∃ tree, unpack packed = some tree ∧ Shows tree packed ∧ ¬Clash packed := by
  induction packed using List.reverseRecOn with
  | nil =>
    refine Or.inr ⟨∅, rfl, ⟨?_, ?_⟩, ?_⟩
    · intro path content
      show none = some (Entry.file content) ↔ none = some content
      simp
    · intro path
      show none = some Entry.directory ↔ _
      simp [HasDirectory]
    · rintro ⟨entry, member, _⟩
      cases member
  | append_singleton packed last ih =>
    rw [unpack_append]
    rcases ih with ⟨failed, clash⟩ | ⟨tree, unpacked, shows, free⟩
    · exact Or.inl ⟨by rw [failed]; rfl, clash.mono fun entry member => List.mem_append_left _ member⟩
    · rw [unpacked]
      rcases unpackOne_cases tree last with ⟨failed, blocked⟩ | ⟨result, placed, step⟩
      · exact Or.inl ⟨failed, shows.clash blocked⟩
      · exact Or.inr ⟨result, placed, shows.unpacked step, shows.no_clash free step⟩

theorem unpack_eq_none_iff {packed : List (Packed Name Content)} : unpack packed = none ↔ Clash packed := by
  rcases unpack_cases packed with ⟨failed, clash⟩ | ⟨tree, unpacked, _, free⟩
  · exact ⟨fun _ => clash, fun _ => failed⟩
  · simp [unpacked, free]

theorem Shows.of_unpack {packed : List (Packed Name Content)} {tree : Tree Name Content}
    (unpacked : unpack packed = some tree) : Shows tree packed := by
  rcases unpack_cases packed with ⟨failed, _⟩ | ⟨other, same, shows, _⟩
  · cases failed.symm.trans unpacked
  · exact Option.some.inj (same.symm.trans unpacked) ▸ shows

theorem Shows.get?_ne_none_iff {packed : List (Packed Name Content)} {tree : Tree Name Content}
    (shows : Shows tree packed) {path : List Name} (nonempty : path ≠ []) :
    tree.get? path ≠ none ↔ ∃ entry ∈ packed, path <+: entry.path := by
  constructor
  · intro present
    obtain ⟨value, found⟩ := Option.ne_none_iff_exists'.mp present
    cases value with
    | file content =>
      obtain ⟨entry, member, rfl, _⟩ := mem_of_fileAt ((shows.file _ _).mp found)
      exact ⟨entry, member, List.prefix_rfl⟩
    | directory =>
      obtain ⟨_, entry, member, above⟩ := (shows.directory _).mp found
      exact ⟨entry, member, above.trans entry.directory_isPrefix⟩
  · rintro ⟨entry, member, above⟩
    by_cases inside : path <+: entry.directory
    · rw [(shows.directory _).mpr ⟨nonempty, entry, member, inside⟩]
      simp
    · cases data : entry.content with
      | none =>
        rw [Packed.directory, data] at inside
        exact absurd above inside
      | some content =>
        rw [Packed.directory, data] at inside
        -- A prefix of the path that is not one of its directory is the path itself.
        have whole : path = entry.path := by
          by_contra shorter
          apply inside
          obtain ⟨rest, same⟩ := above
          have further : rest ≠ [] := by
            rintro rfl
            exact shorter (by rw [← same, List.append_nil])
          rw [← same]
          dsimp only
          rw [List.dropLast_append_of_ne_nil further]
          exact List.prefix_append _ _
        obtain ⟨found, last⟩ := fileAt_of_mem member (by simp [data])
        rw [whole, (shows.file _ _).mpr last]
        simp

end PhysicalAiStudio.Files.Unpacking
