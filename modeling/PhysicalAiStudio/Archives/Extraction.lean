import PhysicalAiStudio.Archives.SafeZip

/-! What the extraction of a validated archive writes, and where.

The extracted path drops the separators of the raw name, and the reported one those of the normalized name, where a
backslash is a separator too.
-/

set_option autoImplicit false

namespace PhysicalAiStudio.Archives

open Files.Unpacking Strings

/-! ### Parts of a path -/

@[simp] theorem parts_slash_cons (path : Text) : parts ('/' :: path) = parts path := by
  simp [parts, List.splitOn_cons_eq_if_modifyHead]

@[simp] theorem parts_append_slash (path : Text) : parts (path ++ ['/']) = parts path := by
  simp [parts, List.splitOn_append_cons_self]

@[simp] theorem parts_dot_slash (path : Text) : parts ('.' :: '/' :: path) = parts path := by
  have split : ('.' :: '/' :: path).splitOn '/' = ['.'].splitOn '/' ++ path.splitOn '/' :=
    List.splitOn_append_cons_self ['.'] path
  rw [parts, split]
  simp [parts, dot, List.splitOn_cons_eq_if_modifyHead]

theorem removeDotSlash_suffix (name : Text) : removeDotSlash name <:+ name := by
  unfold removeDotSlash
  split
  · exact (List.suffix_cons _ _).trans (List.suffix_cons _ _)
  · exact List.suffix_rfl

theorem parts_removeDotSlash (name : Text) : parts (removeDotSlash name) = parts name := by
  unfold removeDotSlash
  split
  · exact (parts_dot_slash _).symm
  · rfl

theorem parts_stripOf (name : Text) : parts (stripOf (· = '/') name) = parts name := by
  have front (path : Text) : parts (path.dropWhile (· = '/')) = parts path := by
    induction path with
    | nil => rfl
    | cons c rest ih =>
      by_cases slash : c = '/'
      · subst slash
        rw [List.dropWhile_cons_of_pos (by simp), ih, parts_slash_cons]
      · rw [List.dropWhile_cons_of_neg (by simpa using slash)]
  have back (path : Text) : parts (path.rdropWhile (· = '/')) = parts path := by
    induction path using List.reverseRecOn with
    | nil => rfl
    | append_singleton rest c ih =>
      by_cases slash : c = '/'
      · subst slash
        rw [List.rdropWhile_concat_pos _ _ _ (by simp), ih, parts_append_slash]
      · rw [List.rdropWhile_concat_neg _ _ _ (by simpa using slash)]
  rw [stripOf, back, front]

theorem exists_mem_splitOn {path : Text} {c : Char} (apart : c ≠ '/') :
    (∃ part ∈ path.splitOn '/', c ∈ part) ↔ c ∈ path := by
  induction path with
  | nil => simp
  | cons first rest ih =>
    rw [List.splitOn_cons_eq_if_modifyHead]
    split
    next slash =>
      have other : c ≠ first := fun same => apart (same.trans (beq_iff_eq.mp slash))
      simp [ih, other]
    next =>
      cases split : rest.splitOn '/' with
      | nil => exact absurd split (List.splitOn_ne_nil _ _)
      | cons part parts =>
        rw [split] at ih
        rw [List.mem_cons, ← ih, List.modifyHead_cons]
        simp only [List.mem_cons, or_and_right, exists_or, exists_eq_left, or_assoc]

theorem exists_mem_parts {path : Text} {c : Char} (slash : c ≠ '/') (point : c ≠ '.') :
    (∃ part ∈ parts path, c ∈ part) ↔ c ∈ path := by
  rw [← exists_mem_splitOn slash]
  constructor
  · rintro ⟨part, member, inside⟩
    exact ⟨part, List.mem_of_mem_filter member, inside⟩
  · rintro ⟨part, member, inside⟩
    refine ⟨part, List.mem_filter.mpr ⟨member, ?_⟩, inside⟩
    have full : part ≠ [] := List.ne_nil_of_mem inside
    have other : part ≠ dot := by
      rintro rfl
      exact point (List.mem_singleton.mp inside)
    simp [full, other]

theorem exists_mem_arcname {filename : Text} {c : Char} (slash : c ≠ '/') (point : c ≠ '.') :
    (∃ part ∈ arcname filename, c ∈ part) ↔ c ∈ filename := by
  rw [← exists_mem_parts slash point]
  constructor
  · rintro ⟨part, member, inside⟩
    exact ⟨part, List.mem_of_mem_filter member, inside⟩
  · rintro ⟨part, member, inside⟩
    refine ⟨part, List.mem_filter.mpr ⟨member, ?_⟩, inside⟩
    have other : part ≠ dotDot := by
      rintro rfl
      simp [dotDot, point] at inside
    simp [other]

/-! ### The two paths of a member -/

theorem mem_normalized {filename : Text} {c : Char} (member : c ∈ normalizeZipMemberName filename) : c ≠ '\\' := by
  have inside : c ∈ filename.map fun c => if c = '\\' then '/' else c := by
    have stripped := (removeDotSlash_suffix _).subset member
    exact (List.dropWhile_suffix _).subset ((List.rdropWhile_prefix _ _).subset stripped)
  obtain ⟨other, _, rfl⟩ := List.mem_map.mp inside
  split
  · decide
  · assumption

theorem parts_normalized {filename : Text} (plain : '\\' ∉ filename) :
    parts (normalizeZipMemberName filename) = parts filename := by
  have same : (filename.map fun c => if c = '\\' then '/' else c) = filename := by
    conv_rhs => rw [← List.map_id filename]
    refine List.map_congr_left fun c member => if_neg ?_
    rintro rfl
    exact plain member
  rw [normalizeZipMemberName, parts_removeDotSlash, parts_stripOf, same]

structure Accepted (filename : Text) : Prop where
  relative : isAbsolute (normalizeZipMemberName filename) = false
  inside : dotDot ∉ parts (normalizeZipMemberName filename)

theorem accepted_of_validateEntry {member : ZipInfo} (valid : validateEntry member = .ok ()) :
    Accepted member.filename := by
  by_cases symlink : isSymlink member.externalAttr
  · simp [validateEntry, symlink] at valid
  · by_cases unsafe_ : isAbsolute (normalizeZipMemberName member.filename) ∨
        dotDot ∈ parts (normalizeZipMemberName member.filename)
    · simp [validateEntry, symlink, unsafe_] at valid
    · obtain ⟨relative, inside⟩ := not_or.mp unsafe_
      exact ⟨by simpa using relative, inside⟩

theorem resolve_of_inside {names : List Text} (inside : dotDot ∉ names) : resolve names = names := by
  have walk (done : List Text) : names.foldl
      (fun done name => if name = dotDot then done.dropLast else done ++ [name]) done = done ++ names := by
    induction names generalizing done with
    | nil => simp
    | cons name rest ih =>
      obtain ⟨here, later⟩ := not_or.mp (fun either => inside (List.mem_cons.mpr either))
      rw [List.foldl_cons, if_neg (Ne.symm here), ih later, List.append_assoc, List.singleton_append]
  exact walk []

theorem reportedPath_eq {destination : List Text} {filename : Text} (resolved : dotDot ∉ destination)
    (accepted : Accepted filename) :
    reportedPath destination (normalizeZipMemberName filename) =
      destination ++ parts (normalizeZipMemberName filename) := by
  rw [reportedPath, accepted.relative, if_neg Bool.false_ne_true]
  exact resolve_of_inside (by simp [resolved, accepted.inside])

theorem extractedPath_eq {destination : List Text} (resolved : dotDot ∉ destination) (filename : Text) :
    extractedPath destination filename = destination ++ arcname filename :=
  resolve_of_inside (by simp [resolved, arcname])

theorem paths_agree_iff {destination : List Text} {filename : Text} (resolved : dotDot ∉ destination)
    (accepted : Accepted filename) :
    extractedPath destination filename = reportedPath destination (normalizeZipMemberName filename) ↔
      '\\' ∉ filename := by
  rw [extractedPath_eq resolved, reportedPath_eq resolved accepted, List.append_cancel_left_eq]
  constructor
  · intro same backslash
    obtain ⟨part, member, inside⟩ := (exists_mem_arcname (by decide) (by decide)).mpr backslash
    rw [same] at member
    have there := (exists_mem_parts (by decide) (by decide)).mp ⟨part, member, inside⟩
    exact mem_normalized there rfl
  · intro plain
    have inside := accepted.inside
    rw [parts_normalized plain] at inside ⊢
    refine List.filter_eq_self.mpr fun part member => ?_
    have other : part ≠ dotDot := fun same => inside (same ▸ member)
    simp [other]

/-! ### One member -/

/-- What a member is unpacked as, below the destination and on the disk. -/
def Member.packed (member : Member) : Packed Text (List UInt8) := ⟨arcname member.filename, member.content⟩

def Member.placed (destination : List Text) (member : Member) : Packed Text (List UInt8) :=
  ⟨extractedPath destination member.filename, member.content⟩

variable {destination : List Text} {entries : List (Packed Text (List UInt8))} {tree next : DiskTree}
  {members : List Member} {member : Member}

structure Holding (destination : List Text) (entries : List (Packed Text (List UInt8))) (tree : DiskTree) : Prop where
  resolved : dotDot ∉ destination
  unpacked : unpack entries = some tree
  there : ⟨destination, none⟩ ∈ entries

theorem Holding.of_disk (disk : Disk) :
    Holding disk.destination (disk.entries ++ [⟨disk.destination, none⟩]) disk.tree :=
  ⟨disk.resolved, disk.unpacked, by simp⟩

theorem Holding.directory (holding : Holding destination entries tree) {path : List Text} (nonempty : path ≠ [])
    (above : path <+: destination) : tree.get? path = some .directory :=
  ((Shows.of_unpack holding.unpacked).directory path).mpr ⟨nonempty, _, holding.there, above⟩

theorem extractMember_eq (holding : Holding destination entries tree) (member : Member) :
    extractMember destination tree member = unpack (entries ++ [member.placed destination]) := by
  rw [unpack_append, holding.unpacked, Option.bind_some]
  unfold extractMember
  split
  next empty =>
    symm
    rw [← Option.bind_some (f := fun tree => unpackOne tree (member.placed destination)) tree, ← holding.unpacked,
      ← unpack_append, unpack_eq_none_iff]
    refine ⟨member.placed destination, by simp, by simp [Member.placed, Member.content, empty.2], Or.inr ?_⟩
    refine ⟨⟨destination, none⟩, by simp [holding.there], ?_⟩
    rw [Member.placed, extractedPath_eq holding.resolved, empty.1, List.append_nil]
    exact List.prefix_rfl
  · rfl

theorem Holding.extracted (holding : Holding destination entries tree)
    (extracted : extractMember destination tree member = some next) :
    Holding destination (entries ++ [member.placed destination]) next :=
  ⟨holding.resolved, (extractMember_eq holding member).symm.trans extracted, List.mem_append_left _ holding.there⟩

theorem extractMember_outside (holding : Holding destination entries tree)
    (extracted : extractMember destination tree member = some next) {path : List Text}
    (outside : ¬destination <+: path) : next.get? path = tree.get? path := by
  have placed : unpackOne tree (member.placed destination) = some next := by
    rw [extractMember_eq holding, unpack_append, holding.unpacked] at extracted
    exact extracted
  have target : (member.placed destination).path = destination ++ arcname member.filename :=
    extractedPath_eq holding.resolved member.filename
  rcases unpackOne_cases tree (member.placed destination) with ⟨failed, _⟩ | ⟨result, done, step⟩
  · cases failed.symm.trans placed
  · cases done.symm.trans placed
    by_cases below : path ≠ [] ∧ path <+: (member.placed destination).directory
    · have inner := (member.placed destination).directory_isPrefix
      have above : path <+: destination := by
        have joint : path <+: destination ++ arcname member.filename := below.2.trans (target ▸ inner)
        rcases List.prefix_or_prefix_of_prefix joint (List.prefix_append _ _) with outer | under
        · exact outer
        · exact absurd under outside
      rw [step.made path below.1 below.2, holding.directory below.1 above]
    · refine step.kept path below fun _ same => outside ?_
      rw [same, target]
      exact List.prefix_append _ _

/-! ### All members -/

theorem exists_split_cons {α : Type} {first : α} {rest : List α} {P : List α → α → Prop} :
    (∃ before item after, first :: rest = before ++ item :: after ∧ P before item) ↔
      P [] first ∨ ∃ before item after, rest = before ++ item :: after ∧ P (first :: before) item := by
  constructor
  · rintro ⟨before, item, after, same, holds⟩
    cases before with
    | nil =>
      cases same
      exact Or.inl holds
    | cons other before =>
      cases same
      exact Or.inr ⟨before, item, after, rfl, holds⟩
  · rintro (holds | ⟨before, item, after, rfl, holds⟩)
    · exact ⟨[], first, rest, rfl, holds⟩
    · exact ⟨first :: before, item, after, rfl, holds⟩

theorem extractMembers_cons (holding : Holding destination entries tree) {rest : List Member}
    (accepted : ∀ other ∈ member :: rest, Accepted other.filename) (extractedCount : Nat) :
    (extractMember destination tree member = none ∧
      extractMembers destination (member :: rest) extractedCount tree = ⟨tree, [], .error .raised⟩) ∨
    ∃ next, extractMember destination tree member = some next ∧
      ((∃ error, member.extracted ≠ .complete ∧ extractMembers destination (member :: rest) extractedCount tree =
        ⟨next, [⟨member, extractedPath destination member.filename⟩], .error error⟩) ∨
      ∃ later, member.extracted = .complete ∧
        later = extractMembers destination rest (if member.isDir then extractedCount else extractedCount + 1) next ∧
        extractMembers destination (member :: rest) extractedCount tree =
          { later with written := ⟨member, extractedPath destination member.filename⟩ :: later.written }) := by
  have inside : destination <+: reportedPath destination (normalizeZipMemberName member.filename) := by
    rw [reportedPath_eq holding.resolved (accepted member List.mem_cons_self)]
    exact List.prefix_append _ _
  rw [extractMembers, if_neg (not_not.mpr inside)]
  cases placed : extractMember destination tree member with
  | none => exact Or.inl ⟨rfl, rfl⟩
  | some next =>
    refine Or.inr ⟨next, rfl, ?_⟩
    cases ending : member.extracted with
    | complete => exact Or.inr ⟨_, rfl, rfl, rfl⟩
    | badZipFile => exact Or.inl ⟨_, by decide, rfl⟩
    | failed => exact Or.inl ⟨_, by decide, rfl⟩

theorem mem_written_iff (holding : Holding destination entries tree)
    (accepted : ∀ member ∈ members, Accepted member.filename) (extractedCount : Nat) (write : Write) :
    write ∈ (extractMembers destination members extractedCount tree).written ↔
      ∃ before member after, members = before ++ member :: after ∧
        (∀ earlier ∈ before, earlier.extracted = .complete) ∧
        ¬Clash (entries ++ (before ++ [member]).map (Member.placed destination)) ∧
        write = ⟨member, extractedPath destination member.filename⟩ := by
  induction members generalizing entries tree extractedCount with
  | nil => simp [extractMembers]
  | cons first rest ih =>
    have fits {next : DiskTree} (placed : extractMember destination tree first = some next) :
        ¬Clash (entries ++ [first.placed destination]) := by
      rw [← unpack_eq_none_iff, ← extractMember_eq holding, placed]
      simp
    rw [exists_split_cons]
    -- The first member finds no place, breaks, or is extracted; only then do later ones matter.
    rcases extractMembers_cons holding accepted extractedCount with
      ⟨failed, run⟩ | ⟨next, placed, ⟨error, broken, run⟩ | ⟨later, complete, same, run⟩⟩
    · have clash (before : List Member) (member : Member) :
          Clash (entries ++ (first :: before ++ [member]).map (Member.placed destination)) := by
        have here : Clash (entries ++ [first.placed destination]) := by
          rw [← unpack_eq_none_iff, ← extractMember_eq holding, failed]
        refine here.mono fun entry member => ?_
        simp only [List.mem_append, List.mem_singleton] at member
        simp only [List.mem_append, List.cons_append, List.map_cons, List.mem_cons]
        exact member.imp_right Or.inl
      rw [run]
      constructor
      · intro member
        cases member
      · rintro (⟨_, free, _⟩ | ⟨before, member, after, _, _, free, _⟩)
        · rw [← unpack_eq_none_iff, List.nil_append, List.map_singleton, ← extractMember_eq holding] at free
          exact absurd failed free
        · exact absurd (clash before member) free
    · rw [run]
      constructor
      · intro member
        exact Or.inl ⟨by simp, fits placed, List.mem_singleton.mp member⟩
      · rintro (⟨_, _, same⟩ | ⟨before, member, after, _, whole, _⟩)
        · exact List.mem_singleton.mpr same
        · exact absurd (whole first List.mem_cons_self) broken
    · have later_iff := ih (holding.extracted placed)
        (fun member inside => accepted member (List.mem_cons_of_mem _ inside))
        (if first.isDir then extractedCount else extractedCount + 1)
      rw [run, List.mem_cons, same, later_iff]
      refine or_congr ?_ ?_
      · exact ⟨fun same => ⟨by simp, fits placed, same⟩, fun holds => holds.2.2⟩
      · simp only [List.mem_cons, forall_eq_or_imp, complete, true_and, List.cons_append, List.map_cons,
          List.append_assoc, List.nil_append]

theorem extractMembers_outside (holding : Holding destination entries tree)
    (accepted : ∀ member ∈ members, Accepted member.filename) (extractedCount : Nat) {path : List Text}
    (outside : ¬destination <+: path) :
    (extractMembers destination members extractedCount tree).tree.get? path = tree.get? path := by
  induction members generalizing entries tree extractedCount with
  | nil => rfl
  | cons first rest ih =>
    rcases extractMembers_cons holding accepted extractedCount with
      ⟨_, run⟩ | ⟨next, placed, ⟨error, _, run⟩ | ⟨later, _, same, run⟩⟩
    · rw [run]
    · rw [run]
      exact extractMember_outside holding placed outside
    · rw [run, same]
      exact (ih (holding.extracted placed) (fun member inside => accepted member (List.mem_cons_of_mem _ inside))
        _).trans (extractMember_outside holding placed outside)

/-- Where the loop returns, it has extracted its first member and comes to the others. -/
theorem extractMembers_cons_ok (holding : Holding destination entries tree) {rest : List Member}
    (accepted : ∀ other ∈ member :: rest, Accepted other.filename) {extractedCount count : Nat}
    (returned : (extractMembers destination (member :: rest) extractedCount tree).outcome = .ok count) :
    ∃ next later, extractMember destination tree member = some next ∧
      later = extractMembers destination rest (if member.isDir then extractedCount else extractedCount + 1) next ∧
      later.outcome = .ok count ∧ extractMembers destination (member :: rest) extractedCount tree =
        { later with written := ⟨member, extractedPath destination member.filename⟩ :: later.written } := by
  rcases extractMembers_cons holding accepted extractedCount with
    ⟨_, run⟩ | ⟨next, placed, ⟨error, _, run⟩ | ⟨later, _, same, run⟩⟩
  · rw [run] at returned
    cases returned
  · rw [run] at returned
    cases returned
  · rw [run] at returned
    exact ⟨next, later, placed, same, returned, run⟩

theorem extractMembers_written (holding : Holding destination entries tree)
    (accepted : ∀ member ∈ members, Accepted member.filename) {extractedCount count : Nat}
    (returned : (extractMembers destination members extractedCount tree).outcome = .ok count) :
    (extractMembers destination members extractedCount tree).written =
      members.map fun member => ⟨member, extractedPath destination member.filename⟩ := by
  induction members generalizing entries tree extractedCount with
  | nil => rfl
  | cons first rest ih =>
    obtain ⟨next, later, placed, rfl, returned, run⟩ := extractMembers_cons_ok holding accepted returned
    rw [run, List.map_cons, ih (holding.extracted placed)
      (fun member inside => accepted member (List.mem_cons_of_mem _ inside)) returned]

theorem extractMembers_ok (holding : Holding destination entries tree)
    (accepted : ∀ member ∈ members, Accepted member.filename) {extractedCount count : Nat}
    (returned : (extractMembers destination members extractedCount tree).outcome = .ok count) :
    (extractMembers destination members extractedCount tree).written.map Write.member = members := by
  rw [extractMembers_written holding accepted returned, List.map_map]
  exact List.map_id members

theorem Member.bytes_le (member : Member) (path : List Text) : Write.bytes ⟨member, path⟩ ≤ member.fileSize := by
  unfold Write.bytes Member.content
  split
  · exact Nat.zero_le _
  · exact member.bounded

theorem extractMembers_bytes (holding : Holding destination entries tree)
    (accepted : ∀ member ∈ members, Accepted member.filename) (extractedCount : Nat) :
    ((extractMembers destination members extractedCount tree).written.map Write.bytes).sum ≤
      (members.map fun member => member.fileSize).sum := by
  induction members generalizing entries tree extractedCount with
  | nil => exact Nat.le_refl _
  | cons first rest ih =>
    have here := first.bytes_le (extractedPath destination first.filename)
    rw [List.map_cons, List.sum_cons]
    rcases extractMembers_cons holding accepted extractedCount with
      ⟨_, run⟩ | ⟨next, placed, ⟨error, _, run⟩ | ⟨later, _, same, run⟩⟩
    · rw [run]
      exact Nat.zero_le _
    · rw [run, List.map_singleton, List.sum_singleton]
      exact here.trans (Nat.le_add_right _ _)
    · rw [run, List.map_cons, List.sum_cons, same]
      exact Nat.add_le_add here (ih (holding.extracted placed)
        (fun member inside => accepted member (List.mem_cons_of_mem _ inside)) _)

/-! ### A validated archive -/

theorem forM_validateEntry_iff (infos : List ZipInfo) :
    infos.forM validateEntry = .ok () ↔ ∀ info ∈ infos, validateEntry info = .ok () := by
  induction infos with
  | nil => exact iff_of_true rfl (List.forall_mem_nil _)
  | cons info rest ih =>
    have first : (info :: rest).forM validateEntry = (validateEntry info >>= fun _ => rest.forM validateEntry) := rfl
    rw [first, List.forall_mem_cons, ← ih]
    cases here : validateEntry info with
    | error error =>
      refine iff_of_false ?_ fun both => ?_
      · intro passed
        cases passed
      · cases both.1
    | ok _ => exact (and_iff_right rfl).symm

/-- Entries pass with their total size when the limits hold and each of them passes. -/
theorem validateZipEntries_eq_ok {infos : List ZipInfo} {maxFileCount : Option Nat} {maxUncompressedBytes total : Nat} :
    validateZipEntries infos maxFileCount maxUncompressedBytes = .ok total ↔
      infos.length ≤ maxFileCount.getD defaultMaxFileCount ∧ collectTotalUncompressed infos ≤ maxUncompressedBytes ∧
        (∀ info ∈ infos, validateEntry info = .ok ()) ∧ collectTotalUncompressed infos = total := by
  rw [← forM_validateEntry_iff]
  unfold validateZipEntries
  dsimp only
  split
  next many =>
    refine iff_of_false (fun passed => by cases passed) fun all => ?_
    exact absurd all.1 (Nat.not_le.mpr many)
  next few =>
    split
    next large =>
      refine iff_of_false (fun passed => by cases passed) fun all => ?_
      exact absurd all.2.1 (Nat.not_le.mpr large)
    next small =>
      rw [and_iff_right (Nat.not_lt.mp few), and_iff_right (Nat.not_lt.mp small)]
      cases infos.forM validateEntry with
      | error error =>
        refine iff_of_false (fun passed => by cases passed) fun both => ?_
        cases both.1
      | ok _ =>
        rw [and_iff_right rfl]
        exact ⟨fun same => Except.ok.inj same, congrArg Except.ok⟩

structure Validated (archive : SafeZipArchive) : Prop where
  accepted : ∀ member ∈ archive.members, Accepted member.filename
  total : (archive.members.map fun member => member.fileSize).sum ≤ archive.maxUncompressedBytes

theorem validated_of_validate {archive : SafeZipArchive} {total : Nat} (valid : archive.validate = .ok total) :
    Validated archive := by
  obtain ⟨_, small, each, _⟩ := validateZipEntries_eq_ok.mp valid
  refine ⟨fun member inside => accepted_of_validateEntry (each _ (List.mem_map_of_mem inside)), ?_⟩
  rw [collectTotalUncompressed, SafeZipArchive.infos, List.map_map] at small
  exact small

/-- The order of the members does not matter to validation. -/
theorem validate_perm {archive other : SafeZipArchive} {total : Nat} (valid : archive.validate = .ok total)
    (perm : other.members.Perm archive.members) (count : other.maxFileCount = archive.maxFileCount)
    (bytes : other.maxUncompressedBytes = archive.maxUncompressedBytes) : other.validate = .ok total := by
  have infos : other.infos.Perm archive.infos := perm.map _
  have same : collectTotalUncompressed other.infos = collectTotalUncompressed archive.infos :=
    (infos.map ZipInfo.fileSize).sum_eq
  obtain ⟨few, small, each, sum⟩ := validateZipEntries_eq_ok.mp valid
  refine validateZipEntries_eq_ok.mpr ⟨?_, ?_, ?_, ?_⟩
  · rw [infos.length_eq, count]
    exact few
  · rw [same, bytes]
    exact small
  · exact fun info inside => each info (infos.mem_iff.mp inside)
  · rw [same, sum]

/-! ### What an extraction promises -/

structure Contained (archive : SafeZipArchive) (disk : Disk) (extraction : Extraction) : Prop where
  outside : ∀ path, ¬disk.destination <+: path → extraction.tree.get? path = disk.tree.get? path
  inside : ∀ write ∈ extraction.written, disk.destination <+: write.path
  bytes : (extraction.written.map Write.bytes).sum ≤ archive.maxUncompressedBytes
  complete : ∀ count, extraction.outcome = .ok count → extraction.written.map Write.member = archive.members

structure Promised (archive : SafeZipArchive) (disk : Disk) (extraction : Extraction) : Prop
    extends Contained archive disk extraction where
  reported : ∀ write ∈ extraction.written,
    write.path = reportedPath disk.destination (normalizeZipMemberName write.member.filename)

/-- A member that the extraction comes to: the members before it are read in full, and no file among them and it is
where a directory has to be. -/
def Reached (members : List Member) (member : Member) : Prop :=
  ∃ before after, members = before ++ member :: after ∧ (∀ earlier ∈ before, earlier.extracted = .complete) ∧
    ¬Clash ((before ++ [member]).map Member.packed)

theorem Member.placed_eq (resolved : dotDot ∉ destination) (member : Member) :
    member.placed destination = ⟨destination ++ member.packed.path, member.packed.content⟩ := by
  rw [Member.placed, extractedPath_eq resolved]
  rfl

/-- The directory of a member on the disk, but for a file without a name. -/
theorem Member.placed_directory (resolved : dotDot ∉ destination)
    (named : member.content = none ∨ member.packed.path ≠ []) :
    (member.placed destination).directory = destination ++ member.packed.directory := by
  rw [member.placed_eq resolved]
  unfold Packed.directory
  cases content : member.packed.content with
  | none => rfl
  | some data =>
    have nonempty : member.packed.path ≠ [] :=
      named.resolve_left fun directory => Option.some_ne_none _ (content.symm.trans directory)
    exact List.dropLast_append_of_ne_nil nonempty

theorem clash_placed_iff (resolved : dotDot ∉ destination) (members : List Member) :
    Clash (⟨destination, none⟩ :: members.map (Member.placed destination)) ↔ Clash (members.map Member.packed) := by
  constructor
  · rintro ⟨entry, inside, file, why⟩
    obtain ⟨member, here, rfl⟩ : ∃ member ∈ members, member.placed destination = entry := by
      rcases List.mem_cons.mp inside with rfl | later
      · cases file
      · exact List.mem_map.mp later
    have clash (empty : member.packed.path = []) : Clash (members.map Member.packed) :=
      ⟨member.packed, List.mem_map_of_mem here, file, Or.inl empty⟩
    rw [member.placed_eq resolved] at why
    rcases why with empty | ⟨other, there, above⟩
    · exact clash (List.append_eq_nil_iff.mp empty).2
    · rcases List.mem_cons.mp there with rfl | later
      · have short : destination ++ member.packed.path <+: destination ++ [] := by
          rw [List.append_nil]
          exact above
        exact clash (List.prefix_nil.mp ((List.prefix_append_right_inj destination).mp short))
      · obtain ⟨holder, held, rfl⟩ := List.mem_map.mp later
        -- A file at the target itself has the target above it once it is placed, and is a clash of its own before.
        by_cases named : holder.content = none ∨ holder.packed.path ≠ []
        · rw [Member.placed_directory resolved named] at above
          exact ⟨member.packed, List.mem_map_of_mem here, file, Or.inr ⟨holder.packed, List.mem_map_of_mem held,
            (List.prefix_append_right_inj destination).mp above⟩⟩
        · obtain ⟨data, empty⟩ := not_or.mp named
          exact ⟨holder.packed, List.mem_map_of_mem held, Option.isSome_iff_ne_none.mpr data,
            Or.inl (not_not.mp empty)⟩
  · rintro ⟨entry, inside, file, why⟩
    obtain ⟨member, here, rfl⟩ := List.mem_map.mp inside
    refine ⟨member.placed destination, List.mem_cons_of_mem _ (List.mem_map_of_mem here), file, Or.inr ?_⟩
    have under (empty : member.packed.path = []) :
        ∃ other ∈ ⟨destination, none⟩ :: members.map (Member.placed destination),
          (member.placed destination).path <+: other.directory := by
      refine ⟨_, List.mem_cons_self, ?_⟩
      rw [member.placed_eq resolved, empty, List.append_nil]
      exact List.prefix_rfl
    rcases why with empty | ⟨other, there, above⟩
    · exact under empty
    · obtain ⟨holder, held, rfl⟩ := List.mem_map.mp there
      by_cases named : holder.content = none ∨ holder.packed.path ≠ []
      · refine ⟨holder.placed destination, List.mem_cons_of_mem _ (List.mem_map_of_mem held), ?_⟩
        rw [member.placed_eq resolved, Member.placed_directory resolved named]
        exact (List.prefix_append_right_inj destination).mpr above
      · obtain ⟨data, empty⟩ := not_or.mp named
        have nothing : holder.packed.directory = [] := by
          unfold Packed.directory
          split <;> simp [not_not.mp empty]
        rw [nothing] at above
        exact under (List.prefix_nil.mp above)

def emptyDisk : Disk where
  destination := ["dataset".toList]
  resolved := by decide
  entries := []
  tree := (∅ : DiskTree).set ["dataset".toList] .directory
  unpacked := rfl

/-- Whatever the names are, an extraction stays in its destination and in its limits. -/
theorem extraction_contained {archive : SafeZipArchive} {total : Nat} (valid : archive.validate = .ok total)
    (disk : Disk) (minFreeBytes free : Nat) : Contained archive disk (archive.extractTo disk minFreeBytes free) := by
  have validated := validated_of_validate valid
  have holding := Holding.of_disk disk
  have stopped (error : ArchiveError) : Contained archive disk ⟨disk.tree, [], .error error⟩ := by
    refine ⟨fun _ _ => rfl, ?_, Nat.zero_le _, ?_⟩
    · intro write member
      cases member
    · intro count returned
      cases returned
  rw [SafeZipArchive.extractTo, valid]
  dsimp only
  split
  · exact stopped _
  · refine ⟨?_, ?_, ?_, ?_⟩
    · intro path outside
      exact extractMembers_outside holding validated.accepted 0 outside
    · intro write written
      obtain ⟨_, member, _, _, _, _, rfl⟩ := (mem_written_iff holding validated.accepted 0 write).mp written
      rw [extractedPath_eq holding.resolved]
      exact List.prefix_append _ _
    · exact (extractMembers_bytes holding validated.accepted 0).trans validated.total
    · intro count returned
      exact extractMembers_ok holding validated.accepted returned

/-- The extraction of an accepted archive stays in its destination and in its limits, and writes each member to the
path that is reported for it just when no member that it comes to has a backslash in its name. -/
theorem extraction_reported_iff {archive : SafeZipArchive} {total : Nat} (valid : archive.validate = .ok total) :
    (∀ disk minFreeBytes free, Promised archive disk (archive.extractTo disk minFreeBytes free)) ↔
      ∀ member, Reached archive.members member → '\\' ∉ member.filename := by
  have validated := validated_of_validate valid
  constructor
  · rintro promised member ⟨before, after, here, whole, free⟩
    have written : ⟨member, extractedPath emptyDisk.destination member.filename⟩ ∈
        (extractMembers emptyDisk.destination archive.members 0 emptyDisk.tree).written := by
      refine (mem_written_iff (Holding.of_disk emptyDisk) validated.accepted 0 _).mpr
        ⟨before, member, after, here, whole, ?_, rfl⟩
      exact (clash_placed_iff emptyDisk.resolved (before ++ [member])).not.mpr free
    -- An empty disk that all fits on shows that a member that is reached is reported elsewhere.
    have kept := promised emptyDisk 0 0
    rw [SafeZipArchive.extractTo, valid] at kept
    refine (paths_agree_iff emptyDisk.resolved (validated.accepted member ?_)).mp (kept.reported _ written)
    rw [here]
    exact List.mem_append_right _ List.mem_cons_self
  · intro plain disk minFreeBytes free
    -- What is written stays within the target in any case; only the reported path depends on the names.
    refine ⟨extraction_contained valid disk minFreeBytes free, ?_⟩
    have holding := Holding.of_disk disk
    rw [SafeZipArchive.extractTo, valid]
    dsimp only
    split
    · intro write member
      cases member
    · intro write written
      obtain ⟨before, member, after, here, whole, fits, rfl⟩ :=
        (mem_written_iff holding validated.accepted 0 write).mp written
      have inside : member ∈ archive.members := by
        rw [here]
        exact List.mem_append_right _ List.mem_cons_self
      refine (paths_agree_iff disk.resolved (validated.accepted member inside)).mpr (plain member ?_)
      refine ⟨before, after, here, whole, fun clash => fits ?_⟩
      refine ((clash_placed_iff disk.resolved (before ++ [member])).mpr clash).mono fun entry held => ?_
      rcases List.mem_cons.mp held with rfl | placed
      · exact List.mem_append_left _ holding.there
      · exact List.mem_append_right _ placed

def nestedArchive : SafeZipArchive where
  members := [⟨⟨"set//".toList, 0x41ed0010, 0⟩, [], Nat.le_refl _, .complete⟩,
    ⟨⟨"./set/info.json".toList, 0x81a40000, 2⟩, [0x7b, 0x7d], Nat.le_refl _, .complete⟩]
  maxUncompressedBytes := 2
  maxFileCount := none

theorem nested_archive_reported : nestedArchive.validate = .ok 2 ∧
    ∀ disk minFreeBytes free, Promised nestedArchive disk (nestedArchive.extractTo disk minFreeBytes free) := by
  have valid : nestedArchive.validate = .ok 2 := by
    rfl
  refine ⟨valid, (extraction_reported_iff valid).mpr ?_⟩
  rintro member ⟨before, after, here, -, -⟩
  have plain : ∀ member ∈ nestedArchive.members, '\\' ∉ member.filename := by
    decide
  apply plain
  rw [here]
  exact List.mem_append_right _ List.mem_cons_self

def backslashArchive : SafeZipArchive where
  members := [⟨⟨"meta\\info.json".toList, 0, 0⟩, [], Nat.le_refl _, .complete⟩]
  maxUncompressedBytes := 0
  maxFileCount := none

/-- The file is extracted to the destination itself, under its whole name. -/
theorem backslash_not_reported :
    ¬∀ (archive : SafeZipArchive) (total : Nat), archive.validate = .ok total →
      ∀ disk minFreeBytes free, Promised archive disk (archive.extractTo disk minFreeBytes free) := by
  intro every
  have promised := every backslashArchive 0 rfl emptyDisk 0 0
  have reported := promised.reported ⟨_, ["dataset".toList, "meta\\info.json".toList]⟩ List.mem_cons_self
  revert reported
  decide

end PhysicalAiStudio.Archives
