import Mathlib.Logic.Function.Basic
import Mathlib.Data.List.Nodup
import Mathlib.Data.List.Perm.Basic

/-! Removing and copying directory trees, one file-system call at a time.

A call is attempted in the order of a traversal. The attempts are the input:
one is done or fails, and where there are no more the process has been killed.
A process killed in the middle of a file fails that file last.
-/

set_option autoImplicit false

namespace PhysicalAiStudio.Files

/-- A path below the tree's own directory, which is `[]`. -/
abbrev Path := List String

inductive Node where
  | file (bytes : List UInt8)
  | directory
  deriving DecidableEq

abbrev Tree := Path → Option Node

def Tree.missing : Tree := fun _ => none

/-- A directory on disk, with the orders in which a copy and a removal reach its entries. -/
structure Directory where
  tree : Tree
  visits : List Path
  removals : List Path
  nodup : visits.Nodup
  complete : ∀ path, path ∈ visits ↔ tree path ≠ none
  parentFirst : ∀ before path after, visits = before ++ path :: after → path ≠ [] →
    path.dropLast ∈ before ∧ tree path.dropLast = some .directory
  sameEntries : removals.Perm visits
  childrenFirst : ∀ before path after, removals = before ++ path :: after → path ≠ [] → path.dropLast ∈ after
  root : tree [] = some .directory

/-- One file-system call, or the calls that copy one entry. A failed copy may have created the entry, with
some bytes of a file. -/
inductive Attempt where
  | done
  | failed (written : Option Nat)
  deriving DecidableEq

inductive Outcome where
  | returned
  | raised
  | killed
  deriving DecidableEq

/-- `shutil.rmtree`: the first failure is raised. Returns what is left, and the attempts that are. -/
def rmtree : List Path → List Attempt → Tree → Outcome × Tree × List Attempt
  | [], attempts, tree => (.returned, tree, attempts)
  | path :: rest, .done :: attempts, tree => rmtree rest attempts (Function.update tree path none)
  | _ :: _, .failed _ :: attempts, tree => (.raised, tree, attempts)
  | _ :: _, [], tree => (.killed, tree, [])

def copied (entry : Node) : Attempt → Option Node
  | .done => some entry
  | .failed written =>
    match entry, written with
    | _, none => none
    | .file bytes, some count => some (.file (bytes.take count))
    | .directory, some _ => some .directory

/-- `shutil.copytree`: a failed entry is left out, with all that is below it, and raised at the end. -/
def copytree (source : Tree) : List Path → List Attempt → Tree → Outcome × Tree × List Attempt
  | [], attempts, target => (.returned, target, attempts)
  | path :: rest, attempts, target =>
    match source path with
    -- Gone since it was listed: nothing is copied.
    | none => copytree source rest attempts target
    | some entry =>
      -- Its directory could not be made, so it is skipped with the rest of that directory.
      if path ≠ [] ∧ target path.dropLast ≠ some .directory then copytree source rest attempts target
      else
        match attempts with
        -- No call is left: the process ended before this one.
        | [] => (.killed, target, [])
        | attempt :: attempts =>
          let (outcome, result) := copytree source rest attempts (Function.update target path (copied entry attempt))
          (if outcome = .returned ∧ attempt ≠ .done then .raised else outcome, result)

def Tree.without (tree : Tree) (paths : List Path) : Tree :=
  fun path => if path ∈ paths then none else tree path

def removed (removals : List Path) (attempts : List Attempt) : List Path :=
  ((removals.zip attempts).takeWhile (·.2 = .done)).map Prod.fst

def CopiesAll (source : Tree) : List Path → List Attempt → Prop
  | [], _ => True
  | _ :: _, [] => False
  | path :: rest, attempt :: attempts =>
    (∀ entry, source path = some entry → copied entry attempt = some entry) ∧ CopiesAll source rest attempts

/-- The entries that a copy reaches, with its attempts at them; below an entry that is not made it reaches none. -/
def reachedFrom : List Path → List Path → List Attempt → List (Path × Attempt)
  | _, [], _ => []
  | _, _ :: _, [] => []
  | lost, path :: rest, attempt :: attempts =>
    if path ≠ [] ∧ path.dropLast ∈ lost then reachedFrom (path :: lost) rest (attempt :: attempts)
    else (path, attempt) :: reachedFrom (if attempt = .failed none then path :: lost else lost) rest attempts

def reached (visits : List Path) (attempts : List Attempt) : List (Path × Attempt) := reachedFrom [] visits attempts

/-! ### Removal -/

@[simp] theorem Tree.without_nil (tree : Tree) : tree.without [] = tree := by
  funext path
  simp [Tree.without]

theorem Tree.without_cons (tree : Tree) (path : Path) (paths : List Path) :
    tree.without (path :: paths) = Tree.without (Function.update tree path none) paths := by
  funext other
  by_cases same : other = path
  · subst same; simp [Tree.without]
  · simp [Tree.without, same]

@[simp] theorem removed_nil (attempts : List Attempt) : removed [] attempts = [] := rfl

@[simp] theorem removed_done (path : Path) (rest : List Path) (attempts : List Attempt) :
    removed (path :: rest) (.done :: attempts) = path :: removed rest attempts := rfl

/-- What a removal leaves, and that it returns just when it removed everything. -/
theorem rmtree_spec (removals : List Path) (attempts : List Attempt) (tree : Tree) :
    (rmtree removals attempts tree).2.1 = tree.without (removed removals attempts) ∧
      ((rmtree removals attempts tree).1 = .returned ↔ removed removals attempts = removals) ∧
      (removed removals attempts = removals →
        (rmtree removals attempts tree).2.2 = attempts.drop removals.length) := by
  induction removals generalizing attempts tree with
  | nil => exact ⟨(Tree.without_nil tree).symm, by simp [rmtree], fun _ => rfl⟩
  | cons path rest ih =>
    cases attempts with
    | nil => simp [rmtree, removed]
    | cons attempt attempts =>
      cases attempt with
      | done =>
        obtain ⟨left, returned, remaining⟩ := ih attempts (Function.update tree path none)
        simp only [rmtree, removed_done, Tree.without_cons, List.cons.injEq, true_and, List.length_cons,
          List.drop_succ_cons]
        exact ⟨left, returned, remaining⟩
      | failed written => simp [rmtree, removed]

theorem removed_subset (removals : List Path) (attempts : List Attempt) :
    ∀ path ∈ removed removals attempts, path ∈ removals := by
  intro path member
  obtain ⟨pair, found, rfl⟩ := List.mem_map.mp member
  exact (List.of_mem_zip ((List.takeWhile_prefix _).subset found)).1

namespace Directory

variable (directory : Directory)

theorem without_ne {paths : List Path} (some_removed : paths ≠ [])
    (entries : ∀ path ∈ paths, path ∈ directory.removals) : directory.tree.without paths ≠ directory.tree := by
  obtain ⟨path, member⟩ := List.exists_mem_of_ne_nil paths some_removed
  intro same
  have present := (directory.complete path).mp (directory.sameEntries.mem_iff.mp (entries path member))
  apply present
  rw [← congrFun same path, Tree.without, if_pos member]

theorem without_removals : directory.tree.without directory.removals = Tree.missing := by
  funext path
  simp only [Tree.without, Tree.missing]
  split
  · rfl
  · rename_i absent
    by_contra present
    exact absent (directory.sameEntries.mem_iff.mpr ((directory.complete path).mpr present))

end Directory

/-! ### Copying -/

theorem copytree_other (source : Tree) {rest : List Path} {path : Path} (absent : path ∉ rest)
    (attempts : List Attempt) (target : Tree) : (copytree source rest attempts target).2.1 path = target path := by
  induction rest generalizing attempts target with
  | nil => rfl
  | cons first rest ih =>
    have later : path ∉ rest := fun member => absent (List.mem_cons_of_mem first member)
    have other : path ≠ first := fun same => absent (same ▸ List.mem_cons_self)
    simp only [copytree]
    split
    · exact ih later attempts target
    · split
      · exact ih later attempts target
      · cases attempts with
        | nil => rfl
        | cons attempt attempts =>
          exact (ih later attempts _).trans (Function.update_of_ne other _ _)

namespace Directory

variable (directory : Directory)

def Holds (before : List Path) (target : Tree) : Prop :=
  ∀ path, target path = if path ∈ before then directory.tree path else none

theorem Holds.reached {directory : Directory} {before rest : List Path} {path : Path} {target : Tree}
    (visits : directory.visits = before ++ path :: rest) (holds : directory.Holds before target) :
    (∃ entry, directory.tree path = some entry) ∧
      ¬ (path ≠ [] ∧ target path.dropLast ≠ some .directory) ∧ path ∉ rest := by
  have member : path ∈ directory.visits := by simp [visits]
  refine ⟨Option.ne_none_iff_exists'.mp ((directory.complete path).mp member), ?_, ?_⟩
  · rintro ⟨below, no_parent⟩
    obtain ⟨copied_first, parent⟩ := directory.parentFirst before path rest visits below
    exact no_parent (by rw [holds, if_pos copied_first, parent])
  · have distinct := directory.nodup
    rw [visits, List.nodup_append] at distinct
    exact (List.nodup_cons.mp distinct.2.1).1

theorem Holds.copy {directory : Directory} {before : List Path} {path : Path} {target : Tree} {entry : Node}
    (holds : directory.Holds before target) (found : directory.tree path = some entry) :
    directory.Holds (before ++ [path]) (Function.update target path (some entry)) := by
  intro other
  by_cases same : other = path
  · subst same; simp [found]
  · rw [Function.update_of_ne same, holds]
    simp [same]

theorem copytree_iff (rest : List Path) (attempts : List Attempt) {before : List Path} {target : Tree}
    (visits : directory.visits = before ++ rest) (holds : directory.Holds before target) :
    (copytree directory.tree rest attempts target).2.1 = directory.tree ↔
      CopiesAll directory.tree rest attempts := by
  -- The induction is on what the copy still has to visit; `holds` says that the part before is copied exactly.
  induction rest generalizing before attempts target with
  | nil =>
    refine ⟨fun _ => trivial, fun _ => ?_⟩
    funext path
    rw [List.append_nil] at visits
    show target path = directory.tree path
    rw [holds, ← visits]
    split
    · rfl
    · rename_i absent
      by_contra present
      exact absent ((directory.complete path).mpr (Ne.symm present))
  | cons path rest ih =>
    obtain ⟨⟨entry, found⟩, reachable, once⟩ := holds.reached visits
    rw [copytree, found]
    simp only [if_neg reachable]
    cases attempts with
    | nil =>
      refine ⟨fun same => ?_, False.elim⟩
      have absent : path ∉ before := by
        have distinct := directory.nodup
        rw [visits, List.nodup_append] at distinct
        exact fun member => distinct.2.2 path member path List.mem_cons_self rfl
      have missing : target path = directory.tree path := congrFun same path
      rw [holds, if_neg absent, found] at missing
      exact absurd missing (by simp)
    | cons attempt attempts =>
      have next : directory.visits = (before ++ [path]) ++ rest := by simp [visits]
      by_cases full : copied entry attempt = some entry
      · simp only [full]
        rw [ih attempts next (holds.copy found), CopiesAll, and_iff_right]
        rintro other same
        cases found.symm.trans same
        exact full
      · refine ⟨fun same => absurd ?_ full, fun copies => absurd (copies.1 entry found) full⟩
        -- No later visit touches this entry, so a copy that fell short shows at the end.
        have kept := congrFun same path
        simp only [copytree_other directory.tree once, Function.update_self, found] at kept
        exact kept

theorem copytree_missing_iff (attempts : List Attempt) :
    (copytree directory.tree directory.visits attempts Tree.missing).2.1 = directory.tree ↔
      CopiesAll directory.tree directory.visits attempts :=
  directory.copytree_iff directory.visits attempts (List.nil_append _).symm (fun _ => rfl)

structure Come (before lost : List Path) (target : Tree) : Prop where
  visited : ∀ path ∈ lost, path ∈ before
  made : ∀ path ∈ before, directory.tree path = some .directory → (target path = some .directory ↔ path ∉ lost)

theorem Come.next {directory : Directory} {before lost lost' : List Path} {path : Path} {target : Tree}
    {result : Option Node} (come : directory.Come before lost target) (new : path ∉ before)
    (grows : ∀ other, other ∈ lost' ↔ other ∈ lost ∨ other = path ∧ path ∈ lost')
    (made : directory.tree path = some .directory → (result = some .directory ↔ path ∉ lost')) :
    directory.Come (before ++ [path]) lost' (Function.update target path result) where
  visited other member := by
    rcases (grows other).mp member with old | ⟨rfl, -⟩
    · exact List.mem_append_left _ (come.visited other old)
    · exact List.mem_append_right _ List.mem_cons_self
  made other member found := by
    by_cases same : other = path
    · subst same
      rw [Function.update_self]
      exact made found
    · have older : other ∈ before := by simpa [same] using member
      rw [Function.update_of_ne same, come.made other older found, grows other]
      simp [same]

/-- A copy leaves at the paths that it reaches what its attempts write there, and nothing at the other ones. -/
theorem copytree_spec (rest : List Path) (attempts : List Attempt) {before lost : List Path} {target : Tree}
    (visits : directory.visits = before ++ rest) (come : directory.Come before lost target)
    (empty : ∀ path ∉ before, target path = none) :
    (∀ path attempt, (path, attempt) ∈ reachedFrom lost rest attempts → path ∈ rest ∧
      ∀ entry, directory.tree path = some entry →
        (copytree directory.tree rest attempts target).2.1 path = copied entry attempt) ∧
    ∀ path ∉ before, (∀ attempt, (path, attempt) ∉ reachedFrom lost rest attempts) →
      (copytree directory.tree rest attempts target).2.1 path = none := by
  -- Beside the visits to come, the induction keeps which directories were lost, as nothing below them is reached.
  induction rest generalizing attempts before lost target with
  | nil => exact ⟨by simp [reachedFrom], fun path new _ => empty path new⟩
  | cons path rest ih =>
    have distinct := directory.nodup
    rw [visits, List.nodup_append] at distinct
    have new : path ∉ before := fun member => distinct.2.2 path member path List.mem_cons_self rfl
    have once : path ∉ rest := (List.nodup_cons.mp distinct.2.1).1
    have next : directory.visits = (before ++ [path]) ++ rest := by simp [visits]
    obtain ⟨entry, found⟩ := Option.ne_none_iff_exists'.mp ((directory.complete path).mp (by simp [visits]))
    have skips : path ≠ [] → (target path.dropLast ≠ some .directory ↔ path.dropLast ∈ lost) := by
      intro below
      obtain ⟨parentFirst, parent⟩ := directory.parentFirst before path rest visits below
      rw [ne_eq, come.made _ parentFirst parent, not_not]
    have fresh : ∀ result, ∀ other ∉ before ++ [path], Function.update target path result other = none := by
      intro result other outside
      rw [List.mem_append, List.mem_singleton, not_or] at outside
      rw [Function.update_of_ne outside.2]
      exact empty other outside.1
    rw [copytree, found]
    simp only
    by_cases skipped : path ≠ [] ∧ path.dropLast ∈ lost
    · rw [if_pos ⟨skipped.1, (skips skipped.1).mpr skipped.2⟩]
      have unchanged : Function.update target path none = target := by
        rw [← empty path new, Function.update_eq_self]
      have come' : directory.Come (before ++ [path]) (path :: lost) target := by
        rw [← unchanged]
        exact come.next new (by simp [or_comm]) (by simp)
      have fresh' := fresh none
      rw [unchanged] at fresh'
      obtain ⟨here, elsewhere⟩ := ih attempts next come' fresh'
      cases attempts with
      | nil =>
        refine ⟨by simp [reachedFrom], fun other outside _ => ?_⟩
        by_cases same : other = path
        · subst same
          exact (copytree_other directory.tree once _ _).trans (empty _ outside)
        · exact elsewhere other (by simp [outside, same]) fun attempt => by cases rest <;> simp [reachedFrom]
      | cons attempt attempts =>
        rw [reachedFrom, if_pos skipped]
        refine ⟨fun other attempt' member => ?_, fun other outside unreached => ?_⟩
        · exact ⟨List.mem_cons_of_mem _ (here other attempt' member).1, (here other attempt' member).2⟩
        · by_cases same : other = path
          · subst same
            exact (copytree_other directory.tree once _ _).trans (empty _ outside)
          · exact elsewhere other (by simp [outside, same]) unreached
    · have reachable : ¬(path ≠ [] ∧ target path.dropLast ≠ some .directory) := fun both =>
        skipped ⟨both.1, (skips both.1).mp both.2⟩
      rw [if_neg reachable]
      cases attempts with
      | nil => exact ⟨by simp [reachedFrom], fun other outside _ => empty other outside⟩
      | cons attempt attempts =>
        have grows : ∀ other, other ∈ (if attempt = .failed none then path :: lost else lost) ↔
            other ∈ lost ∨ other = path ∧ path ∈ (if attempt = .failed none then path :: lost else lost) := by
          intro other
          have unlost : path ∉ lost := fun member => new (come.visited path member)
          split <;> simp [unlost, or_comm]
        have made : directory.tree path = some .directory → (copied entry attempt = some .directory ↔
            path ∉ (if attempt = .failed none then path :: lost else lost)) := by
          intro isDirectory
          obtain rfl : entry = .directory := Option.some.inj (found.symm.trans isDirectory)
          have unlost : path ∉ lost := fun member => new (come.visited path member)
          rcases attempt with _ | (_ | count) <;> simp [copied, unlost]
        obtain ⟨here, elsewhere⟩ := ih attempts next (come.next new grows made) (fresh (copied entry attempt))
        have kept : (copytree directory.tree rest attempts (Function.update target path (copied entry attempt))).2.1 path =
            copied entry attempt := by
          rw [copytree_other directory.tree once, Function.update_self]
        rw [reachedFrom, if_neg skipped]
        refine ⟨fun other attempt' member => ?_, fun other outside unreached => ?_⟩
        · rcases List.mem_cons.mp member with same | later
          · obtain ⟨rfl, rfl⟩ := Prod.mk.inj same
            refine ⟨List.mem_cons_self, fun entry' found' => ?_⟩
            rw [← Option.some.inj (found.symm.trans found')]
            exact kept
          · exact ⟨List.mem_cons_of_mem _ (here other attempt' later).1, (here other attempt' later).2⟩
        · have other_ : other ≠ path := by
            rintro rfl
            exact unreached attempt List.mem_cons_self
          exact elsewhere other (by simp [outside, other_]) fun attempt' later => unreached attempt' (List.mem_cons_of_mem _ later)

/-- The tree that a copy to an empty place leaves, read off its attempts. -/
theorem copytree_missing_eq_iff (attempts : List Attempt) (tree : Tree) :
    (copytree directory.tree directory.visits attempts Tree.missing).2.1 = tree ↔
      (∀ path attempt, (path, attempt) ∈ reached directory.visits attempts →
        ∀ entry, directory.tree path = some entry → tree path = copied entry attempt) ∧
      ∀ path, tree path ≠ none → ∃ attempt, (path, attempt) ∈ reached directory.visits attempts := by
  have start : directory.Come [] [] Tree.missing := ⟨by simp, by simp⟩
  obtain ⟨here, elsewhere⟩ := directory.copytree_spec directory.visits attempts (List.nil_append _).symm start
    (fun _ _ => rfl)
  constructor
  · rintro rfl
    refine ⟨fun path attempt member => (here path attempt member).2, fun path present => ?_⟩
    by_contra unreached
    exact present (elsewhere path List.not_mem_nil (not_exists.mp unreached))
  · rintro ⟨entries, nothingElse⟩
    funext path
    by_cases touched : ∃ attempt, (path, attempt) ∈ reached directory.visits attempts
    · obtain ⟨attempt, member⟩ := touched
      have visited := (here path attempt member).1
      obtain ⟨entry, found⟩ := Option.ne_none_iff_exists'.mp ((directory.complete path).mp visited)
      rw [(here path attempt member).2 entry found, entries path attempt member entry found]
    · rw [elsewhere path List.not_mem_nil (not_exists.mp touched)]
      by_contra present
      exact touched (nothingElse path (Ne.symm present))

end Directory

theorem copytree_returned (directory : Directory) (rest : List Path) (attempts : List Attempt)
    {before : List Path} {target : Tree} (visits : directory.visits = before ++ rest)
    (holds : directory.Holds before target)
    (returned : (copytree directory.tree rest attempts target).1 = .returned) :
    CopiesAll directory.tree rest attempts := by
  induction rest generalizing before attempts target with
  | nil => trivial
  | cons path rest ih =>
    obtain ⟨⟨entry, found⟩, reachable, -⟩ := holds.reached visits
    simp only [copytree, found, if_neg reachable] at returned
    cases attempts with
    | nil => simp at returned
    | cons attempt attempts =>
      cases attempt with
      | failed written =>
        simp only [ne_eq, reduceCtorEq, not_false_eq_true, and_true] at returned
        split at returned
        · simp at returned
        · contradiction
      | done =>
        refine ⟨fun other same => rfl, ?_⟩
        refine ih attempts (by simp [visits]) (holds.copy found) ?_
        simpa [copied] using returned

end PhysicalAiStudio.Files
