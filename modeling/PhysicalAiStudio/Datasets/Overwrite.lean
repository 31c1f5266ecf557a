import PhysicalAiStudio.Files.Tree

/-! How a mutation's cache replaces the directory of its dataset.

Both mutations write the cache first and then overwrite the dataset with it: the
old directory is removed and the cache is copied to its place. The directories
on disk, the orders in which they are traversed and the attempts are any.
-/

set_option autoImplicit false

namespace PhysicalAiStudio.Datasets

open Files

structure Stored where
  source : Tree
  cache : Tree

/-- A dataset path holds a directory or nothing. -/
def onDisk : Option Directory → Tree
  | none => Tree.missing
  | some directory => directory.tree

def loadDataset : Outcome × Tree × List Attempt → Outcome × Tree × List Attempt
  | (.returned, tree, .done :: attempts) => (.returned, tree, attempts)
  | (.returned, tree, .failed _ :: attempts) => (.raised, tree, attempts)
  | (.returned, tree, []) => (.killed, tree, [])
  | stopped => stopped

def overwrite (source : Option Directory) (cache : Directory) (attempts : List Attempt) :
    Outcome × Tree × List Attempt :=
  match source with
  | none => loadDataset (copytree cache.tree cache.visits attempts Tree.missing)
  | some directory =>
    match rmtree directory.removals attempts directory.tree with
    | (.returned, tree, attempts) => loadDataset (copytree cache.tree cache.visits attempts tree)
    | stopped => stopped

def applyCache (source : Option Directory) (cache : Directory) (attempts : List Attempt) : Outcome × Stored :=
  match overwrite source cache attempts with
  | (.returned, tree, attempts) =>
    let (outcome, left, _) := rmtree cache.removals attempts cache.tree
    (outcome, ⟨tree, left⟩)
  | (outcome, tree, _) => (outcome, ⟨tree, cache.tree⟩)

def teardownRecording (hasMutation : Bool) (source : Option Directory) (cache : Directory) :
    List Attempt → Outcome × Stored
  | [] => (.killed, ⟨onDisk source, cache.tree⟩)
  | .failed _ :: _ => (.raised, ⟨onDisk source, cache.tree⟩)
  | .done :: attempts =>
    if hasMutation then applyCache source cache attempts
    else
      let (outcome, left, _) := rmtree cache.removals attempts cache.tree
      (outcome, ⟨onDisk source, left⟩)

/-- `DeleteEpisodesMutation.delete_episodes` when episodes remain; the first attempt is to build the cache
without the deleted ones. -/
def deleteEpisodes (source : Option Directory) (cache : Directory) : List Attempt → Outcome × Stored
  | [] => (.killed, ⟨onDisk source, cache.tree⟩)
  | .failed _ :: _ => (.raised, ⟨onDisk source, cache.tree⟩)
  | .done :: attempts => applyCache source cache attempts

inductive Mutation where
  | recording (hasMutation : Bool)
  | deletion
  deriving DecidableEq

def Mutation.apply (mutation : Mutation) (source : Option Directory) (cache : Directory)
    (attempts : List Attempt) : Outcome × Stored :=
  match mutation with
  | .recording hasMutation => teardownRecording hasMutation source cache attempts
  | .deletion => deleteEpisodes source cache attempts

def HoldsEither (source : Option Directory) (cache : Directory) (tree : Tree) : Prop :=
  tree = onDisk source ∨ tree = cache.tree

def removals (source : Option Directory) : List Path :=
  source.elim [] Directory.removals

/-- What the removal has left is the cache: what is gone is not in it, and all else is in both or in neither. -/
structure LeavesCache (source : Option Directory) (cache : Directory) (gone : List Path) : Prop where
  absent : ∀ path ∈ gone, path ∉ cache.visits
  left : ∀ path ∉ gone, onDisk source path = cache.tree path

structure CopiesPrevious (source : Option Directory) (cache : Directory) (copying : List Attempt) : Prop where
  entries : ∀ path attempt, (path, attempt) ∈ reached cache.visits copying →
    ∀ entry, cache.tree path = some entry → onDisk source path = copied entry attempt
  nothingElse : ∀ path, onDisk source path ≠ none → ∃ attempt, (path, attempt) ∈ reached cache.visits copying

/-- An overwrite that does not get through stops before the first removal or after the last copy; or what the removal
left happens to be the cache, or what was copied of the cache the previous directory. -/
def StopsClear (source : Option Directory) (cache : Directory) (attempts : List Attempt) : Prop :=
  let gone := removed (removals source) attempts
  let copying := attempts.drop (removals source).length
  (gone = removals source ∧ (CopiesAll cache.tree cache.visits copying ∨ CopiesPrevious source cache copying)) ∨
    (gone ≠ removals source ∧ (gone = [] ∨ LeavesCache source cache gone))

def Mutation.StopsClear (mutation : Mutation) (source : Option Directory) (cache : Directory) :
    List Attempt → Prop
  | .done :: attempts => mutation = .recording false ∨ Datasets.StopsClear source cache attempts
  | _ => True

@[simp] theorem loadDataset_tree (copying : Outcome × Tree × List Attempt) :
    (loadDataset copying).2.1 = copying.2.1 := by
  unfold loadDataset
  split <;> rfl

@[simp] theorem applyCache_source (source : Option Directory) (cache : Directory) (attempts : List Attempt) :
    (applyCache source cache attempts).2.source = (overwrite source cache attempts).2.1 := by
  unfold applyCache
  split <;> simp_all

theorem leavesCache_iff (source : Option Directory) (cache : Directory) (gone : List Path) :
    (onDisk source).without gone = cache.tree ↔ LeavesCache source cache gone := by
  constructor
  · intro same
    constructor
    · intro path member visited
      apply (cache.complete path).mp visited
      rw [← same, Tree.without, if_pos member]
    · intro path kept
      rw [← same, Tree.without, if_neg kept]
  · rintro ⟨absent, left⟩
    funext path
    by_cases member : path ∈ gone
    · rw [Tree.without, if_pos member]
      by_contra present
      exact absent path member ((cache.complete path).mpr (Ne.symm present))
    · rw [Tree.without, if_neg member, left path member]

theorem copiesPrevious_iff (source : Option Directory) (cache : Directory) (copying : List Attempt) :
    (copytree cache.tree cache.visits copying Tree.missing).2.1 = onDisk source ↔ CopiesPrevious source cache copying :=
  (cache.copytree_missing_eq_iff copying (onDisk source)).trans
    ⟨fun both => ⟨both.1, both.2⟩, fun both => ⟨both.entries, both.nothingElse⟩⟩

theorem overwrite_holdsEither_iff (source : Option Directory) (cache : Directory) (attempts : List Attempt) :
    HoldsEither source cache (overwrite source cache attempts).2.1 ↔ StopsClear source cache attempts := by
  unfold HoldsEither StopsClear
  cases source with
  | none =>
    simp only [overwrite, loadDataset_tree, removals, Option.elim_none, removed_nil, List.length_nil,
      List.drop_zero, true_and, ne_eq, not_true_eq_false, false_and, or_false]
    rw [cache.copytree_missing_iff, copiesPrevious_iff, or_comm]
  | some directory =>
    have kept : onDisk (some directory) = directory.tree := rfl
    obtain ⟨left, returned, remaining⟩ := rmtree_spec directory.removals attempts directory.tree
    simp only [overwrite, removals, Option.elim_some, onDisk]
    rcases removal : rmtree directory.removals attempts directory.tree with ⟨outcome, tree, unused⟩
    rw [removal] at left returned remaining
    -- The copy begins only if every entry was removed; otherwise the disk holds what is left of the previous
    -- directory.
    by_cases all : removed directory.removals attempts = directory.removals
    · obtain rfl : outcome = .returned := returned.mpr all
      obtain rfl : unused = attempts.drop directory.removals.length := remaining all
      obtain rfl : tree = Tree.missing := left.trans (by rw [all, directory.without_removals])
      simp only [all, true_and, ne_eq, not_true_eq_false, false_and, or_false, loadDataset_tree]
      rw [cache.copytree_missing_iff, ← kept, copiesPrevious_iff, or_comm]
    · have stopped : outcome ≠ .returned := fun same => all (returned.mp same)
      simp only [all, false_and, false_or, ne_eq, not_false_eq_true, true_and]
      obtain rfl : tree = directory.tree.without (removed directory.removals attempts) := left
      have untouched : directory.tree.without (removed directory.removals attempts) = directory.tree ↔
          removed directory.removals attempts = [] := by
        constructor
        · intro same
          by_contra begun
          exact directory.without_ne begun (removed_subset directory.removals attempts) same
        · intro none_removed
          rw [none_removed, Tree.without_nil]
      have left := or_congr untouched (leavesCache_iff (some directory) cache (removed directory.removals attempts))
      cases outcome with
      | returned => exact absurd rfl stopped
      | raised => exact left
      | killed => exact left

theorem overwrite_returned (source : Option Directory) (cache : Directory) (attempts : List Attempt)
    (returned : (overwrite source cache attempts).1 = .returned) :
    (overwrite source cache attempts).2.1 = cache.tree := by
  have whole : ∀ attempts, (loadDataset (copytree cache.tree cache.visits attempts Tree.missing)).1 = .returned →
      (loadDataset (copytree cache.tree cache.visits attempts Tree.missing)).2.1 = cache.tree := by
    intro attempts returned
    rw [loadDataset_tree, cache.copytree_missing_iff]
    have empty : cache.Holds [] Tree.missing := fun _ => rfl
    refine copytree_returned cache cache.visits attempts (List.nil_append _).symm empty ?_
    rcases copying : copytree cache.tree cache.visits attempts Tree.missing with ⟨outcome, tree, unused⟩
    cases outcome with
    | returned => rfl
    | raised => simp [copying, loadDataset] at returned
    | killed => simp [copying, loadDataset] at returned
  cases source with
  | none => exact whole attempts returned
  | some directory =>
    obtain ⟨left, removedAll, -⟩ := rmtree_spec directory.removals attempts directory.tree
    rcases removal : rmtree directory.removals attempts directory.tree with ⟨outcome, tree, unused⟩
    rw [removal] at left removedAll
    simp only [overwrite, removal] at returned ⊢
    cases outcome with
    | returned =>
      obtain rfl : tree = Tree.missing := left.trans (by rw [removedAll.mp rfl, directory.without_removals])
      exact whole unused returned
    | raised => cases returned
    | killed => cases returned

/-- Wherever a mutation's overwrite fails or is killed, the dataset holds its previous content or the
mutation's exactly when the stop is clear of the removal and the copy. -/
theorem holdsEither_iff_stopsClear (mutation : Mutation) (source : Option Directory) (cache : Directory)
    (attempts : List Attempt) :
    HoldsEither source cache (mutation.apply source cache attempts).2.source ↔
      mutation.StopsClear source cache attempts := by
  have kept : HoldsEither source cache (onDisk source) := .inl rfl
  cases attempts with
  | nil => cases mutation <;> exact iff_of_true kept trivial
  | cons first attempts =>
    cases first with
    | failed written => cases mutation <;> exact iff_of_true kept trivial
    | done =>
      cases mutation with
      | deletion =>
        simp only [Mutation.apply, deleteEpisodes, applyCache_source, Mutation.StopsClear, reduceCtorEq, false_or]
        exact overwrite_holdsEither_iff source cache attempts
      | recording hasMutation =>
        cases hasMutation with
        | false =>
          simp only [Mutation.apply, teardownRecording, Bool.false_eq_true, if_false]
          exact iff_of_true kept (.inl rfl)
        | true =>
          simp only [Mutation.apply, teardownRecording, if_true, applyCache_source, Mutation.StopsClear,
            Mutation.recording.injEq, Bool.true_eq_false, false_or]
          exact overwrite_holdsEither_iff source cache attempts

def oneFile (name : String) (bytes : List UInt8) : Directory where
  tree path := if path = [] then some .directory else if path = [name] then some (.file bytes) else none
  visits := [[], [name]]
  removals := [[name], []]
  nodup := by simp
  complete path := by
    by_cases root : path = [] <;> by_cases file : path = [name] <;> simp [root, file]
  parentFirst before path after visits below := by
    rcases before with _ | ⟨first, _ | ⟨second, more⟩⟩ <;>
      simp only [List.cons_append, List.nil_append, List.cons.injEq] at visits
    · exact absurd visits.1.symm below
    · obtain ⟨rfl, rfl, -⟩ := visits
      simp
    · simp at visits
  sameEntries := List.Perm.swap _ _ _
  childrenFirst before path after removals below := by
    rcases before with _ | ⟨first, _ | ⟨second, more⟩⟩ <;>
      simp only [List.cons_append, List.nil_append, List.cons.injEq] at removals
    · obtain ⟨rfl, rfl⟩ := removals
      simp
    · exact absurd removals.2.1.symm below
    · simp at removals
  root := rfl

/-- A teardown killed between the removal and the copy leaves no dataset. -/
theorem killed_between_loses_dataset :
    ¬ ∀ (mutation : Mutation) (source : Option Directory) (cache : Directory) (attempts : List Attempt),
      HoldsEither source cache (mutation.apply source cache attempts).2.source := by
  intro every
  have either := every (.recording true) (some (oneFile "info.json" [1])) (oneFile "info.json" [2])
    [.done, .done, .done]
  rcases either with previous | new
  · exact absurd (congrFun previous []) (by decide)
  · exact absurd (congrFun new []) (by decide)

end PhysicalAiStudio.Datasets
