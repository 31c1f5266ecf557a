import PhysicalAiStudio.Remote.SshConfigReader

/-! When the listing of the SSH config and the lookup of an alias return, and agree.

The reader returns what its survey met, unless the survey came to something that fails. Both functions then merge the
same blocks, so only the bounds of a port and an empty host name are left to differ over.
-/

set_option autoImplicit false

namespace PhysicalAiStudio.Remote.SshConfig

open Strings

namespace Home

variable {Path : Type} {home : Home Path} {α β : Type}

/-! ### The reader and its survey -/

def passed (home : Home Path) (visits : List (Visit Path)) (result : α) : Option α :=
  if ∀ visit ∈ visits, home.Sound visit then some result else none

theorem passed_nil (result : α) : home.passed [] result = some result := if_pos (by simp)

theorem passed_map (visits : List (Visit Path)) (result : α) (f : α → β) :
    (home.passed visits result).map f = home.passed visits (f result) := by
  unfold passed
  split <;> rfl

theorem passed_bind {visits others : List (Visit Path)} {result : α} {f : α → Option β} {next : β}
    (after : f result = home.passed others next) :
    (home.passed visits result).bind f = home.passed (visits ++ others) next := by
  unfold passed at *
  by_cases sound : ∀ visit ∈ visits, home.Sound visit
  · rw [if_pos sound, Option.bind_some, after]
    refine if_congr ?_ rfl rfl
    rw [List.forall_mem_append]
    exact ⟨fun later => ⟨sound, later⟩, fun both => both.2⟩
  · rw [if_neg sound, if_neg fun both => sound (List.forall_mem_append.mp both).1]
    rfl

theorem passed_cons {visit : Visit Path} {visits : List (Visit Path)} {result : α} (sound : home.Sound visit) :
    home.passed (visit :: visits) result = home.passed visits result := by
  unfold passed
  refine if_congr ?_ rfl rfl
  simp [sound]

theorem passed_unsound {visits : List (Visit Path)} {result : α} (visit : Visit Path) (unsound : ¬home.Sound visit)
    (member : visit ∈ visits) : home.passed visits result = none :=
  if_neg fun all => unsound (all visit member)

def Follows (home : Home Path) (read : Read Path) (walk : Path → List Path → Walk Path) : Prop :=
  ∀ path visited, read path visited =
    home.passed (walk path visited).visits ((walk path visited).blocks, (walk path visited).visited)

variable {read : Read Path} {walk : Path → List Path → Walk Path}

theorem readPaths_eq (follows : Follows home read walk) (paths visited : List Path) :
    readPaths read paths visited = home.passed (walkPaths walk paths visited).visits
      ((walkPaths walk paths visited).blocks, (walkPaths walk paths visited).visited) := by
  induction paths generalizing visited with
  | nil => exact (passed_nil _).symm
  | cons path paths ih =>
    rw [readPaths, follows path visited]
    refine passed_bind ?_
    dsimp only
    rw [ih, passed_map]
    rfl

theorem readPatterns_eq (follows : Follows home read walk) (path : Path) (patterns : List Text) (visited : List Path) :
    home.readPatterns read path patterns visited = home.passed (home.walkPatterns walk path patterns visited).visits
      ((home.walkPatterns walk path patterns visited).blocks,
        (home.walkPatterns walk path patterns visited).visited) := by
  induction patterns generalizing visited with
  | nil => exact (passed_nil _).symm
  | cons pattern patterns ih =>
    rw [readPatterns, walkPatterns]
    cases named : home.includePaths path pattern with
    | none =>
      rw [passed_unsound (.pattern path pattern) (by simp [Sound, named]) List.mem_cons_self]
      rfl
    | some paths =>
      rw [passed_cons (by simp [Sound, named]), Option.bind_some, readPaths_eq follows]
      refine passed_bind ?_
      dsimp only
      rw [ih, passed_map]
      rfl

theorem readLine_eq (follows : Follows home read walk) (path : Path) (state : Reader × List Path) (line : Text) :
    home.readLine read path state line =
      home.passed (home.walkLine walk path state line).1 (home.walkLine walk path state line).2 := by
  unfold readLine walkLine
  split
  · exact (passed_nil _).symm
  · exact (passed_nil _).symm
  · split
    · exact (passed_nil _).symm
    · split
      · rw [readPatterns_eq follows, passed_map]
      · exact (passed_nil _).symm

theorem readLines_eq (follows : Follows home read walk) (path : Path) (lines : List Text)
    (state : Reader × List Path) :
    lines.foldlM (home.readLine read path) state =
      home.passed (home.walkLines walk path lines state).1 (home.walkLines walk path lines state).2 := by
  induction lines generalizing state with
  | nil => exact (passed_nil _).symm
  | cons line lines ih =>
    rw [List.foldlM_cons, readLine_eq follows]
    exact passed_bind (ih _)

variable [DecidableEq Path]

/-- The reader returns what the survey met, unless the survey came to something that fails. -/
theorem iterBlocks_eq (home : Home Path) (depth : Nat) : Follows home (home.iterBlocks depth) (home.survey depth) := by
  induction depth with
  | zero =>
    intro path visited
    exact (passed_unsound (.call 0 path) (fun sound => sound.1 rfl) List.mem_cons_self).symm
  | succ depth ih =>
    intro path visited
    have called {resolved : Path} (found : home.resolve path = some resolved) :
        home.Sound (.call (depth + 1) path) := ⟨Nat.succ_ne_zero _, by simp [found]⟩
    rw [iterBlocks, survey]
    cases found : home.resolve path with
    | none =>
      rw [passed_unsound (.call (depth + 1) path) (by simp [Sound, found]) List.mem_cons_self]
      rfl
    | some resolved =>
      rw [Option.bind_some]
      dsimp only
      split
      · rw [passed_cons (called found), passed_nil]
      · cases read : home.readText path with
        | unreadable => rw [passed_cons (called found), passed_cons (by simp [Sound, read]), passed_nil]
        | undecodable =>
          rw [passed_unsound (.file path) (by simp [Sound, read]) (by simp)]
        | text raw =>
          dsimp only
          rw [passed_cons (called found), passed_cons (by simp [Sound, read]), readLines_eq ih, passed_map]

/-! ### The depth of the nesting -/

/-- A walk that makes no call too many, and forgets no visit. -/
structure Shallow (walk : Walk Path) (visited : List Path) : Prop where
  calls : ∀ path, .call 0 path ∉ walk.visits
  grows : visited ⊆ walk.visited

def ShallowBelow (files : List Path) (depth : Nat) (walk : Path → List Path → Walk Path) : Prop :=
  ∀ path visited, Disk.remaining files visited < depth → Shallow (walk path visited) visited

variable {files : List Path} {depth : Nat}

theorem walkPaths_shallow (shallow : ShallowBelow files depth walk) (paths : List Path) {visited : List Path}
    (few : Disk.remaining files visited < depth) : Shallow (walkPaths walk paths visited) visited := by
  induction paths generalizing visited with
  | nil => exact ⟨fun _ => List.not_mem_nil, List.Subset.refl _⟩
  | cons path paths ih =>
    have first := shallow path visited few
    have rest := ih ((Disk.remaining_mono files first.grows).trans_lt few)
    refine ⟨?_, List.Subset.trans first.grows rest.grows⟩
    intro other member
    exact (List.mem_append.mp member).elim (first.calls other) (rest.calls other)

theorem walkPatterns_shallow (shallow : ShallowBelow files depth walk) (path : Path) (patterns : List Text)
    {visited : List Path} (few : Disk.remaining files visited < depth) :
    Shallow (home.walkPatterns walk path patterns visited) visited := by
  induction patterns generalizing visited with
  | nil => exact ⟨fun _ => List.not_mem_nil, List.Subset.refl _⟩
  | cons pattern patterns ih =>
    have first := walkPaths_shallow shallow ((home.includePaths path pattern).getD []) few
    have rest := ih ((Disk.remaining_mono files first.grows).trans_lt few)
    refine ⟨?_, List.Subset.trans first.grows rest.grows⟩
    intro other member
    rcases List.mem_cons.mp member with here | later
    · cases here
    · exact (List.mem_append.mp later).elim (first.calls other) (rest.calls other)

theorem walkLine_shallow (shallow : ShallowBelow files depth walk) (path : Path) (state : Reader × List Path)
    (line : Text) (few : Disk.remaining files state.2 < depth) :
    (∀ other, .call 0 other ∉ (home.walkLine walk path state line).1) ∧
      state.2 ⊆ (home.walkLine walk path state line).2.2 := by
  unfold walkLine
  split
  · exact ⟨fun _ => List.not_mem_nil, List.Subset.refl _⟩
  · exact ⟨fun _ => List.not_mem_nil, List.Subset.refl _⟩
  next keyword arg args _ =>
    split
    · exact ⟨fun _ => List.not_mem_nil, List.Subset.refl _⟩
    · split
      · have included : Shallow (home.walkPatterns walk path (arg :: args) state.2) state.2 :=
          walkPatterns_shallow shallow path (arg :: args) few
        exact ⟨included.calls, included.grows⟩
      · exact ⟨fun _ => List.not_mem_nil, List.Subset.refl _⟩

theorem walkLines_shallow (shallow : ShallowBelow files depth walk) (path : Path) (lines : List Text)
    (state : Reader × List Path) (few : Disk.remaining files state.2 < depth) :
    (∀ other, .call 0 other ∉ (home.walkLines walk path lines state).1) ∧
      state.2 ⊆ (home.walkLines walk path lines state).2.2 := by
  induction lines generalizing state with
  | nil => exact ⟨fun _ => List.not_mem_nil, List.Subset.refl _⟩
  | cons line lines ih =>
    obtain ⟨calls, grows⟩ := @walkLine_shallow _ home walk _ files depth shallow path state line few
    obtain ⟨later, more⟩ := ih _ ((Disk.remaining_mono files grows).trans_lt few)
    refine ⟨?_, List.Subset.trans grows more⟩
    intro other member
    exact (List.mem_append.mp member).elim (calls other) (later other)

/-- Whatever includes what, the calls nest no deeper than the number of files: a file is read once. -/
theorem survey_shallow (known : ∀ path resolved raw, home.resolve path = some resolved →
    home.readText path = .text raw → resolved ∈ files) (depth : Nat) :
    ShallowBelow files depth (home.survey depth) := by
  induction depth with
  | zero => exact fun path visited few => absurd few (Nat.not_lt_zero _)
  | succ depth ih =>
    intro path visited few
    rw [survey]
    split
    · exact ⟨by simp, List.Subset.refl _⟩
    next resolved found =>
      split
      · exact ⟨by simp, List.Subset.refl _⟩
      next unseen =>
        split
        next raw read =>
          have fewer := Disk.remaining_cons (known path resolved raw found read) unseen
          obtain ⟨calls, grows⟩ := @walkLines_shallow _ home _ _ _ _ ih path (splitlines (universalNewlines raw))
            (.start, resolved :: visited) (Nat.lt_of_lt_of_le fewer (Nat.lt_succ_iff.mp few))
          refine ⟨?_, List.Subset.trans (List.subset_cons_self resolved visited) grows⟩
          intro other member
          rcases List.mem_cons.mp member with here | later
          · cases here
          · rcases List.mem_cons.mp later with file | inside
            · cases file
            · exact calls other inside
        · exact ⟨by simp, List.subset_cons_self _ _⟩

/-- A config whose files are fewer than the calls that may nest is read without one call too many. -/
theorem survey_calls (known : ∀ path resolved raw, home.resolve path = some resolved →
    home.readText path = .text raw → resolved ∈ files) {limit : Nat} (few : files.length < limit)
    (configPath path : Path) : .call 0 path ∉ (home.survey limit configPath []).visits :=
  (survey_shallow known limit configPath [] (Nat.lt_of_le_of_lt (List.length_filter_le _ _) few)).calls path

end Home

/-! ### Merging -/

instance (block : HostBlock) (hostAlias : Text) : Decidable (Disk.Names block hostAlias) :=
  inferInstanceAs (Decidable (_ ∧ _))

/-- The last value that the entries of an alias set, in the order of expansion. -/
def lastSet {α : Type} (field : HostBlock → Option α) (blocks : List HostBlock) (hostAlias : Text) : Option α :=
  (blocks.filter fun block => Disk.Names block hostAlias).reverse.findSome? field

theorem lastSet_append {α : Type} (field : HostBlock → Option α) (blocks : List HostBlock) (block : HostBlock)
    (hostAlias : Text) : lastSet field (blocks ++ [block]) hostAlias =
      if Disk.Names block hostAlias then (field block).or (lastSet field blocks hostAlias)
      else lastSet field blocks hostAlias := by
  unfold lastSet
  rw [List.filter_append]
  by_cases names : Disk.Names block hostAlias
  · rw [if_pos names, List.filter_cons_of_pos (by simpa using names), List.filter_nil, List.reverse_append,
      List.reverse_singleton, List.singleton_append, List.findSome?_cons]
    cases field block <;> rfl
  · rw [if_neg names, List.filter_cons_of_neg (by simpa using names), List.filter_nil, List.append_nil]

theorem lastSet_unnamed {α : Type} (field : HostBlock → Option α) {blocks : List HostBlock} {hostAlias : Text}
    (unnamed : ¬∃ block ∈ blocks, Disk.Names block hostAlias) : lastSet field blocks hostAlias = none := by
  have nothing : (blocks.filter fun block => Disk.Names block hostAlias) = [] := by
    rw [List.filter_eq_nil_iff]
    intro other member names
    exact unnamed ⟨other, member, by simpa using names⟩
  rw [lastSet, nothing]
  rfl

def lastEntry (blocks : List HostBlock) (hostAlias : Text) : HostBlock :=
  ⟨[hostAlias], lastSet HostBlock.hostname blocks hostAlias, lastSet HostBlock.port blocks hostAlias,
    lastSet HostBlock.user blocks hostAlias⟩

theorem resolveBlocks_eq (blocks : List HostBlock) (hostAlias : Text) :
    Disk.resolveBlocks blocks hostAlias =
      if ∃ block ∈ blocks, Disk.Names block hostAlias then some (lastEntry blocks hostAlias) else none := by
  induction blocks using List.reverseRecOn with
  | nil => simp [Disk.resolveBlocks]
  | append_singleton blocks block ih =>
    rw [Disk.resolveBlocks_append]
    by_cases names : Disk.Names block hostAlias
    · rw [if_pos (Disk.names_any.mpr names), if_pos ⟨block, by simp, names⟩, ih]
      simp only [lastEntry, lastSet_append, if_pos names]
      split
      · rfl
      next unnamed => simp [Disk.merge, HostBlock.fresh, lastSet_unnamed _ unnamed]
    · have same : (∃ other ∈ blocks ++ [block], Disk.Names other hostAlias) ↔
          ∃ other ∈ blocks, Disk.Names other hostAlias := by
        simp [or_and_right, exists_or, names]
      rw [if_neg (Disk.names_any.not.mpr names), ih]
      simp only [same, lastEntry, lastSet_append, if_neg names]

theorem merge_merge (existing block : HostBlock) :
    Disk.merge (Disk.merge existing block) block = Disk.merge existing block := by
  obtain ⟨patterns, hostname, port, user⟩ := block
  cases hostname <;> cases port <;> cases user <;> rfl

theorem lookup_map (merged : List (Text × HostBlock)) (change : Text → HostBlock → HostBlock) (hostAlias : Text) :
    (merged.map fun entry => (entry.1, change entry.1 entry.2)).lookup hostAlias =
      (merged.lookup hostAlias).map (change hostAlias) := by
  induction merged with
  | nil => rfl
  | cons entry merged ih =>
    obtain ⟨known, existing⟩ := entry
    rw [List.map_cons, List.lookup_cons, List.lookup_cons]
    by_cases same : hostAlias = known
    · simp [same]
    · rw [beq_eq_false_iff_ne.mpr same]
      exact ih

theorem lookup_mergePattern (block : HostBlock) (merged : List (Text × HostBlock)) (pattern hostAlias : Text) :
    (Disk.mergePattern block merged pattern).lookup hostAlias =
      if isLiteralPattern pattern = true ∧ hostAlias = pattern then
        some (Disk.merge ((merged.lookup hostAlias).getD (.fresh [hostAlias])) block)
      else merged.lookup hostAlias := by
  unfold Disk.mergePattern
  by_cases literal : isLiteralPattern pattern = true
  · rw [if_pos literal]
    by_cases known : (merged.any (·.1 = pattern)) = true
    · rw [if_pos known,
        lookup_map merged fun name existing => if name = pattern then Disk.merge existing block else existing]
      by_cases same : hostAlias = pattern
      · subst same
        obtain ⟨existing, held⟩ : ∃ existing, merged.lookup hostAlias = some existing := by
          obtain ⟨entry, member, same⟩ := List.any_eq_true.mp known
          rw [← Option.isSome_iff_exists, List.lookup_isSome_iff]
          exact ⟨entry, member, beq_iff_eq.mpr (of_decide_eq_true same).symm⟩
        simp [literal, held]
      · simp [same]
    · rw [if_neg known, List.lookup_append, List.lookup_cons, List.lookup_nil]
      by_cases same : hostAlias = pattern
      · subst same
        have fresh : merged.lookup hostAlias = none := by
          rw [List.lookup_eq_none_iff]
          intro entry member
          simp only [Bool.not_eq_true, List.any_eq_false, decide_eq_true_eq] at known
          exact bne_iff_ne.mpr fun same => known entry member same.symm
        simp [literal, fresh]
      · rw [beq_eq_false_iff_ne.mpr same, if_neg fun both => same both.2, Option.or_none]
  · rw [if_neg literal, if_neg fun both => literal both.1]

theorem lookup_mergePatterns (block : HostBlock) (patterns : List Text) (merged : List (Text × HostBlock))
    (hostAlias : Text) : (patterns.foldl (Disk.mergePattern block) merged).lookup hostAlias =
      if isLiteralPattern hostAlias = true ∧ hostAlias ∈ patterns then
        some (Disk.merge ((merged.lookup hostAlias).getD (.fresh [hostAlias])) block)
      else merged.lookup hostAlias := by
  induction patterns generalizing merged with
  | nil => simp
  | cons pattern patterns ih =>
    rw [List.foldl_cons, ih, lookup_mergePattern]
    by_cases literal : isLiteralPattern hostAlias = true
    · by_cases same : hostAlias = pattern
      · subst same
        simp [literal, merge_merge]
      · simp [literal, same]
    · have other : ¬(isLiteralPattern pattern = true ∧ hostAlias = pattern) := by
        rintro ⟨here, rfl⟩
        exact literal here
      simp [literal, other]

theorem lookup_mergeBlocks (blocks : List HostBlock) (hostAlias : Text) :
    (Disk.mergeBlocks blocks).lookup hostAlias = Disk.resolveBlocks blocks hostAlias := by
  induction blocks using List.reverseRecOn with
  | nil => rfl
  | append_singleton blocks block ih =>
    have step : Disk.mergeBlocks (blocks ++ [block]) =
        block.patterns.foldl (Disk.mergePattern block) (Disk.mergeBlocks blocks) := by
      rw [Disk.mergeBlocks, List.foldl_append]
      rfl
    rw [step, lookup_mergePatterns, Disk.resolveBlocks_append, ih]
    exact if_congr Disk.names_any.symm rfl rfl

theorem mergePattern_nodup {block : HostBlock} {merged : List (Text × HostBlock)} (pattern : Text)
    (nodup : (merged.map Prod.fst).Nodup) : ((Disk.mergePattern block merged pattern).map Prod.fst).Nodup := by
  unfold Disk.mergePattern
  split
  · split
    · rw [List.map_map]
      exact nodup
    next unknown =>
      rw [List.map_append, List.nodup_append]
      refine ⟨nodup, by simp, ?_⟩
      intro first known second new same
      obtain rfl := List.mem_singleton.mp new
      obtain ⟨entry, member, rfl⟩ := List.mem_map.mp known
      exact unknown (List.any_eq_true.mpr ⟨entry, member, by simpa using same⟩)
  · exact nodup

theorem mergeBlocks_nodup (blocks : List HostBlock) : ((Disk.mergeBlocks blocks).map Prod.fst).Nodup := by
  have patterns {block : HostBlock} (patterns : List Text) {merged : List (Text × HostBlock)}
      (nodup : (merged.map Prod.fst).Nodup) :
      ((patterns.foldl (Disk.mergePattern block) merged).map Prod.fst).Nodup := by
    induction patterns generalizing merged with
    | nil => exact nodup
    | cons pattern patterns ih => exact ih (mergePattern_nodup pattern nodup)
  have every {merged : List (Text × HostBlock)} (nodup : (merged.map Prod.fst).Nodup) :
      ((blocks.foldl (fun merged block => block.patterns.foldl (Disk.mergePattern block) merged) merged).map
        Prod.fst).Nodup := by
    induction blocks generalizing merged with
    | nil => exact nodup
    | cons block blocks ih => exact ih (patterns block.patterns nodup)
  exact every List.nodup_nil

theorem mem_mergeBlocks_iff {blocks : List HostBlock} {hostAlias : Text} {merged : HostBlock} :
    (hostAlias, merged) ∈ Disk.mergeBlocks blocks ↔
      (∃ block ∈ blocks, Disk.Names block hostAlias) ∧ merged = lastEntry blocks hostAlias := by
  have entry {existing : HostBlock} (member : (hostAlias, existing) ∈ Disk.mergeBlocks blocks) :
      existing = lastEntry blocks hostAlias := by
    obtain ⟨before, after, split⟩ := List.append_of_mem member
    have nodup := mergeBlocks_nodup blocks
    rw [split, List.map_append, List.map_cons, List.nodup_append] at nodup
    have found : (Disk.mergeBlocks blocks).lookup hostAlias = some existing := by
      rw [List.lookup_eq_some_iff]
      refine ⟨before, after, split, fun other earlier => bne_iff_ne.mpr fun same => ?_⟩
      exact nodup.2.2 other.1 (List.mem_map_of_mem earlier) hostAlias List.mem_cons_self same.symm
    rw [lookup_mergeBlocks, resolveBlocks_eq] at found
    split at found
    · exact (Option.some.inj found).symm
    · cases found
  constructor
  · intro member
    exact ⟨Disk.mem_mergeBlocks.mp (List.mem_map_of_mem member), entry member⟩
  · rintro ⟨named, rfl⟩
    obtain ⟨⟨known, existing⟩, member, rfl⟩ := List.mem_map.mp (Disk.mem_mergeBlocks.mpr named)
    exact entry member ▸ member

/-! ### Agreement -/

namespace Home

variable {Path : Type} [DecidableEq Path]

def blocks (home : Home Path) (limit : Nat) (configPath : Path) : List HostBlock :=
  (home.survey limit configPath []).blocks

structure Shows (blocks : List HostBlock) (option : SshHostAliasOption) : Prop where
  hostname : option.hostname = some ((lastSet HostBlock.hostname blocks option.hostAlias).getD option.hostAlias)
  port : option.port = lastSet HostBlock.port blocks option.hostAlias
  user : option.user = lastSet HostBlock.user blocks option.hostAlias

structure Agrees (home : Home Path) (limit : Nat) (configPath : Path) (options : List SshHostAliasOption) : Prop where
  listed : home.listHostAliases limit configPath = some options
  once : (options.map SshHostAliasOption.hostAlias).Nodup
  literal : ∀ hostAlias, hostAlias ∈ options.map SshHostAliasOption.hostAlias ↔
    ∃ block ∈ home.blocks limit configPath, Disk.Names block hostAlias
  shown : ∀ option ∈ options, Shows (home.blocks limit configPath) option
  resolved : ∀ hostAlias, ∃ host, home.resolveAlias limit configPath hostAlias = some host ∧
    (host.found = true ↔ hostAlias ∈ options.map SshHostAliasOption.hostAlias) ∧
    ∀ option ∈ options, option.hostAlias = hostAlias →
      host.hostname = option.hostname ∧ host.port = option.port ∧ host.user = option.user

/-- The walk comes to nothing that fails, and what an alias has set last is a port in bounds and no empty name. -/
structure Readable (home : Home Path) (limit : Nat) (configPath : Path) : Prop where
  sound : ∀ visit ∈ (home.survey limit configPath []).visits, home.Sound visit
  ports : ∀ hostAlias, PortAccepted (lastSet HostBlock.port (home.blocks limit configPath) hostAlias)
  hostnames : ∀ hostAlias, lastSet HostBlock.hostname (home.blocks limit configPath) hostAlias = some [] →
    hostAlias = []

variable {home : Home Path} {limit : Nat} {configPath : Path} {options : List SshHostAliasOption}

theorem iterBlocks_sound (sound : ∀ visit ∈ (home.survey limit configPath []).visits, home.Sound visit) :
    home.iterBlocks limit configPath [] =
      some (home.blocks limit configPath, (home.survey limit configPath []).visited) := by
  rw [iterBlocks_eq home limit configPath [], passed, if_pos sound]
  rfl

theorem sound_of_iterBlocks {read : List HostBlock × List Path}
    (returned : home.iterBlocks limit configPath [] = some read) :
    ∀ visit ∈ (home.survey limit configPath []).visits, home.Sound visit := by
  rw [iterBlocks_eq home limit configPath [], passed] at returned
  split at returned
  · assumption
  · cases returned

/-- The options of the listing, whether their ports are accepted or not. -/
def listing (blocks : List HostBlock) : List SshHostAliasOption :=
  (Disk.mergeBlocks blocks).map fun entry => Disk.toOption entry.1 entry.2

theorem mem_listing {blocks : List HostBlock} {option : SshHostAliasOption} : option ∈ listing blocks ↔
    (∃ block ∈ blocks, Disk.Names block option.hostAlias) ∧
      option = Disk.toOption option.hostAlias (lastEntry blocks option.hostAlias) := by
  unfold listing
  constructor
  · intro member
    obtain ⟨⟨hostAlias, merged⟩, held, rfl⟩ := List.mem_map.mp member
    obtain ⟨named, rfl⟩ := mem_mergeBlocks_iff.mp held
    exact ⟨named, rfl⟩
  · rintro ⟨named, same⟩
    exact List.mem_map.mpr ⟨_, mem_mergeBlocks_iff.mpr ⟨named, rfl⟩, same.symm⟩

theorem listing_aliases (blocks : List HostBlock) :
    (listing blocks).map SshHostAliasOption.hostAlias = (Disk.mergeBlocks blocks).map Prod.fst := by
  rw [listing, List.map_map]
  rfl

/-- The listing returns when the walk meets nothing that fails and the ports are in bounds. -/
theorem listHostAliases_eq_some_iff : home.listHostAliases limit configPath = some options ↔
    (∀ visit ∈ (home.survey limit configPath []).visits, home.Sound visit) ∧
      options = listing (home.blocks limit configPath) ∧ ∀ option ∈ options, PortAccepted option.port := by
  constructor
  · intro listed
    obtain ⟨read, returned, merged⟩ := Option.bind_eq_some_iff.mp listed
    have sound := sound_of_iterBlocks returned
    cases returned.symm.trans (iterBlocks_sound sound)
    dsimp only at merged
    split at merged
    next accepted =>
      cases merged
      exact ⟨sound, rfl, accepted⟩
    · cases merged
  · rintro ⟨sound, rfl, accepted⟩
    rw [listHostAliases, iterBlocks_sound sound]
    exact if_pos accepted

theorem hostnameOr_eq_getD {hostname : Option Text} {hostAlias : Text} :
    Disk.hostnameOr hostname hostAlias = hostname.getD hostAlias ↔ (hostname = some [] → hostAlias = []) := by
  cases hostname with
  | none => simp [Disk.hostnameOr]
  | some name =>
    cases name with
    | nil => simp [Disk.hostnameOr]
    | cons c rest => simp [Disk.hostnameOr]

/-- The listing and the lookup return and agree just where the config is readable. -/
theorem agrees_iff (home : Home Path) (limit : Nat) (configPath : Path) :
    (∃ options, Agrees home limit configPath options) ↔ Readable home limit configPath := by
  constructor
  · rintro ⟨options, agrees⟩
    obtain ⟨sound, listed, accepted⟩ := listHostAliases_eq_some_iff.mp agrees.listed
    -- A name that a block gives literally is listed, so its option shows what the code makes of it.
    have named_option {hostAlias : Text} (named : ∃ block ∈ home.blocks limit configPath, Disk.Names block hostAlias) :
        ∃ option ∈ options, option.hostAlias = hostAlias :=
      List.mem_map.mp ((agrees.literal hostAlias).mpr named)
    refine ⟨sound, ?_, ?_⟩
    · intro hostAlias
      by_cases named : ∃ block ∈ home.blocks limit configPath, Disk.Names block hostAlias
      · obtain ⟨option, member, rfl⟩ := named_option named
        exact (agrees.shown option member).port ▸ accepted option member
      · rw [lastSet_unnamed _ named]
        intro number set
        cases set
    · intro hostAlias empty
      have named : ∃ block ∈ home.blocks limit configPath, Disk.Names block hostAlias := by
        by_contra unnamed
        rw [lastSet_unnamed _ unnamed] at empty
        cases empty
      obtain ⟨option, member, rfl⟩ := named_option named
      have shown := (agrees.shown option member).hostname
      rw [listed, mem_listing] at member
      rw [member.2] at shown
      exact hostnameOr_eq_getD.mp (Option.some.inj shown) empty
  · intro readable
    -- Conversely, what is listed under a name is what the last block that sets a field has set.
    have accepted : ∀ option ∈ listing (home.blocks limit configPath), PortAccepted option.port := by
      intro option member
      rw [(mem_listing.mp member).2]
      exact readable.ports option.hostAlias
    refine ⟨listing (home.blocks limit configPath), ?_, ?_, ?_, ?_, ?_⟩
    · exact listHostAliases_eq_some_iff.mpr ⟨readable.sound, rfl, accepted⟩
    · rw [listing_aliases]
      exact mergeBlocks_nodup _
    · intro hostAlias
      rw [listing_aliases, Disk.mem_mergeBlocks]
    · intro option member
      have same := (mem_listing.mp member).2
      refine ⟨?_, ?_, ?_⟩
      · rw [← hostnameOr_eq_getD.mpr (readable.hostnames option.hostAlias)]
        exact congrArg SshHostAliasOption.hostname same
      · exact congrArg SshHostAliasOption.port same
      · exact congrArg SshHostAliasOption.user same
    · intro hostAlias
      rw [listing_aliases, Disk.mem_mergeBlocks, resolveAlias, iterBlocks_sound readable.sound, Option.bind_some]
      dsimp only
      rw [resolveBlocks_eq]
      by_cases named : ∃ block ∈ home.blocks limit configPath, Disk.Names block hostAlias
      · rw [if_pos named]
        have bounds : PortAccepted (lastEntry (home.blocks limit configPath) hostAlias).port := readable.ports hostAlias
        dsimp only
        rw [if_pos bounds]
        refine ⟨_, rfl, by simp [named], ?_⟩
        rintro option member rfl
        have same := (mem_listing.mp member).2
        exact ⟨(congrArg SshHostAliasOption.hostname same).symm, (congrArg SshHostAliasOption.port same).symm,
          (congrArg SshHostAliasOption.user same).symm⟩
      · rw [if_neg named]
        refine ⟨_, rfl, by simp [named], ?_⟩
        rintro option member rfl
        exact absurd (mem_listing.mp member).1 named

def single (raw : Text) : Home Unit where
  resolve := some
  readText _ := .text raw
  includePaths _ _ := some [()]

/-- One port out of bounds takes every alias from the list. -/
theorem port_out_of_bounds_raises :
    ¬∀ (Path : Type) (_ : DecidableEq Path) (home : Home Path) (limit : Nat) (configPath : Path),
      ∃ options, Agrees home limit configPath options := by
  intro every
  obtain ⟨options, agrees⟩ := every Unit inferInstance
    (single "Host lab\n    HostName lab.local\nHost old\n    Port 70000\n".toList) 900 ()
  have raised : (single "Host lab\n    HostName lab.local\nHost old\n    Port 70000\n".toList).listHostAliases 900 () =
      none := by
    decide +kernel
  cases raised.symm.trans agrees.listed

end Home

end PhysicalAiStudio.Remote.SshConfig
