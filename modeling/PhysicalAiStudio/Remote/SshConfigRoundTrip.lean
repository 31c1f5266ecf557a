import PhysicalAiStudio.Remote.SshConfig

/-! What the reader makes of an appended `Host` entry.

The entry is read as one more block at the end, whatever the text before it. The block has
the first shell word of each value, so the values come back when they are single words.
-/

set_option autoImplicit false

namespace PhysicalAiStudio.Remote.SshConfig

open Strings

/-! ### The lines of an entry -/

theorem isValueChar_line {c : Char} (value : isValueChar c = true) : isBoundary c = false ∧ c ≠ '\r' := by
  simp only [isValueChar, isBoundary, Bool.not_eq_true', Bool.or_eq_false_iff, Bool.and_eq_false_iff,
    decide_eq_false_iff_not, not_le] at value ⊢
  refine ⟨by omega, ?_⟩
  rintro rfl
  exact absurd value.1.1.1 (by decide)

theorem isAliasChar_value {c : Char} (known : isAliasChar c = true ∨ c = '.' ∨ c = '_' ∨ c = '-') :
    isValueChar c = true ∧ isPlain c = true ∧ isSpace c = false := by
  have ascii : c.toNat < 128 := by
    obtain known | rfl | rfl | rfl := known
    · simp only [isAliasChar, Bool.or_eq_true, Bool.and_eq_true, decide_eq_true_eq, Char.le_def,
        UInt32.le_iff_toNat_le] at known
      change c.val.toNat < 128
      have bounds : ('Z').val.toNat < 128 ∧ ('z').val.toNat < 128 ∧ ('9').val.toNat < 128 := by decide
      omega
    all_goals decide
  have every : ∀ code < 128, isAliasChar (Char.ofNat code) = true ∨ Char.ofNat code = '.' ∨ Char.ofNat code = '_' ∨
      Char.ofNat code = '-' → isValueChar (Char.ofNat code) = true ∧ isPlain (Char.ofNat code) = true ∧
        isSpace (Char.ofNat code) = false := by decide
  have same := every c.toNat ascii
  rw [Char.ofNat_toNat] at same
  exact same known

/-- A line of an entry, as the writer gives it: an indented keyword, a blank, and a value. -/
def entryLine (indent : Nat) (keyword value : Text) : Text := List.replicate indent ' ' ++ keyword ++ ' ' :: value

structure LineEnd (value : Text) : Prop where
  nonempty : value ≠ []
  starts : ∀ c ∈ value.head?, isSpace c = false
  ends : ∀ c ∈ value.getLast?, isSpace c = false
  line : ∀ c ∈ value, isBoundary c = false ∧ c ≠ '\r'

theorem directiveFrom_append {keyword : Text} (plain : ∀ c ∈ keyword, isSpace c = false ∧ c ≠ '=') {value : Text}
    (starts : ∀ c ∈ value.head?, isSpace c = false) :
    directiveFrom (keyword ++ ' ' :: value) = some (keyword, value) := by
  induction keyword with
  | nil =>
    have kept : value.dropWhile isSpace = value := by
      cases value with
      | nil => rfl
      | cons c rest => simp [List.dropWhile, starts c rfl]
    simp [directiveFrom, isSpace, kept]
  | cons c keyword ih =>
    have here := plain c List.mem_cons_self
    rw [List.cons_append, directiveFrom, if_neg (by simp [here]), ih fun d member => plain d (List.mem_cons_of_mem _ member)]
    rfl

structure Keyword (keyword : Text) : Prop where
  nonempty : keyword ≠ []
  comment : keyword.head? ≠ some '#'
  plain : ∀ c ∈ keyword, isSpace c = false ∧ c ≠ '=' ∧ isBoundary c = false ∧ c ≠ '\r'

theorem parseLine_entryLine {indent : Nat} {keyword value : Text} (named : Keyword keyword) (ends : LineEnd value) :
    parseLine (entryLine indent keyword value) =
      (shlexSplit value).map fun args => (keyword.map Char.toLower, args) := by
  have stripped : strip (entryLine indent keyword value) = keyword ++ ' ' :: value := by
    rw [entryLine, List.append_assoc]
    refine stripOf_append ?_ ?_ ?_
    · intro c member
      rw [(List.mem_replicate.mp member).2]
      rfl
    · intro c member
      rw [List.head?_append_of_ne_nil _ named.nonempty] at member
      exact (named.plain c (List.mem_of_mem_head? member)).1
    · intro c member
      rw [List.getLast?_append_of_ne_nil _ (by simp), List.getLast?_cons_of_ne_nil ends.nonempty] at member
      exact ends.ends c member
  have parsed : directive (keyword ++ ' ' :: value) = some (keyword, value) := by
    cases keyword with
    | nil => exact absurd rfl named.nonempty
    | cons c keyword =>
      have here := named.plain c List.mem_cons_self
      have rest : ∀ d ∈ keyword, isSpace d = false ∧ d ≠ '=' := fun d member =>
        ⟨(named.plain d (List.mem_cons_of_mem _ member)).1, (named.plain d (List.mem_cons_of_mem _ member)).2.1⟩
      rw [List.cons_append, directive, if_neg (by simp [here.1]), directiveFrom_append rest ends.starts]
      rfl
  have kept : ¬(keyword ++ ' ' :: value = [] ∨ (keyword ++ ' ' :: value).head? = some '#') := by
    rw [List.head?_append_of_ne_nil _ named.nonempty]
    simp [named.comment]
  rw [parseLine, stripped, if_neg kept, parsed, Option.bind_some]

theorem entryLine_line {indent : Nat} {keyword value : Text} (named : Keyword keyword) (ends : LineEnd value) :
    ∀ c ∈ entryLine indent keyword value, isBoundary c = false ∧ c ≠ '\r' := by
  intro c member
  rw [entryLine, List.append_assoc, List.mem_append, List.mem_append, List.mem_cons] at member
  obtain blank | known | rfl | known := member
  · rw [(List.mem_replicate.mp blank).2]
    decide
  · exact ⟨(named.plain c known).2.2.1, (named.plain c known).2.2.2⟩
  · decide
  · exact ends.line c known

theorem ends_of_strip {text : Text} (stripped : strip text = text) :
    (∀ c ∈ text.head?, isSpace c = false) ∧ ∀ c ∈ text.getLast?, isSpace c = false := by
  have suffix := List.dropWhile_suffix (l := text) isSpace
  have short : (strip text).length ≤ (text.dropWhile isSpace).length := (List.rdropWhile_prefix isSpace _).length_le
  rw [stripped] at short
  have front : text.dropWhile isSpace = text := suffix.eq_of_length_le short
  have back : text.rdropWhile isSpace = text := by
    rw [strip, stripOf, front] at stripped
    exact stripped
  constructor
  · intro c member
    cases text with
    | nil => cases member
    | cons d rest =>
      cases member
      have first := List.dropWhile_eq_self_iff.mp front (by simp)
      simpa using first
  · intro c member
    obtain ⟨nonempty, rfl⟩ := List.mem_getLast?_eq_getLast member
    simpa using List.rdropWhile_eq_self_iff.mp back nonempty

theorem ValuePattern.lineEnd {least most : Nat} {text : Text} (accepted : ValuePattern least most text)
    (nonempty : text ≠ []) : LineEnd text :=
  ⟨nonempty, (ends_of_strip accepted.stripped).1, (ends_of_strip accepted.stripped).2,
    fun c member => isValueChar_line (accepted.value c member)⟩

theorem plain_lineEnd {text : Text} (nonempty : text ≠ [])
    (plain : ∀ c ∈ text, isSpace c = false ∧ isBoundary c = false ∧ c ≠ '\r') : LineEnd text :=
  ⟨nonempty, fun c member => (plain c (List.mem_of_mem_head? member)).1,
    fun c member => (plain c (List.mem_of_getLast? member)).1, fun c member => (plain c member).2⟩

theorem decimal_plain {value : Nat} (positive : 0 < value) :
    decimal value ≠ [] ∧ ∀ c ∈ decimal value,
      isSpace c = false ∧ isBoundary c = false ∧ c ≠ '\r' ∧ isPlain c = true := by
  rw [decimal, if_neg (by omega)]
  refine ⟨?_, ?_⟩
  · simp [Nat.digits_eq_nil_iff_eq_zero]
    omega
  · intro c member
    obtain ⟨d, known, rfl⟩ := List.mem_map.mp member
    have small := Nat.digits_lt_base (by decide) (List.mem_reverse.mp known)
    have every : ∀ d < 10, isSpace (Nat.digitChar d) = false ∧ isBoundary (Nat.digitChar d) = false ∧
      Nat.digitChar d ≠ '\r' ∧ isPlain (Nat.digitChar d) = true := by decide
    exact every d small

section

variable (config : SshHostAliasCreate)

theorem alias_plain : config.hostAlias ≠ [] ∧ ∀ c ∈ config.hostAlias,
    isSpace c = false ∧ (isBoundary c = false ∧ c ≠ '\r') ∧ isPlain c = true := by
  obtain ⟨_, ⟨first, starts, _⟩, every⟩ := config.aliasAccepted
  refine ⟨?_, fun c member => ?_⟩
  · rintro empty
    rw [empty] at starts
    cases starts
  · obtain ⟨value, plain, space⟩ := isAliasChar_value (every c member)
    exact ⟨space, isValueChar_line value, plain⟩

theorem alias_lineEnd : LineEnd config.hostAlias :=
  plain_lineEnd (alias_plain config).1 fun c member =>
    ⟨((alias_plain config).2 c member).1, ((alias_plain config).2 c member).2.1⟩

theorem port_lineEnd : LineEnd (decimal config.port) := by
  obtain ⟨nonempty, plain⟩ := decimal_plain config.portAccepted.1
  exact plain_lineEnd nonempty fun c member => ⟨(plain c member).1, (plain c member).2.1, (plain c member).2.2.1⟩

theorem hostname_nonempty : config.hostname ≠ [] := by
  intro empty
  have least := config.hostnameAccepted.least
  rw [empty] at least
  cases least

end

theorem entryLines_eq (config : SshHostAliasCreate) :
    entryLines config = [entryLine 0 "Host".toList config.hostAlias, entryLine 4 "HostName".toList config.hostname,
      entryLine 4 "Port".toList (decimal config.port)] ++
      written config.user (fun text => [entryLine 4 "User".toList text]) ++
      written config.identityFile fun text => [entryLine 4 "IdentityFile".toList text,
        entryLine 4 "IdentitiesOnly".toList "yes".toList] := rfl

/-! ### The block of an entry -/

def firstWord (value : Text) : Option Text := (shlexSplit value).bind List.head?

def entryBlock (config : SshHostAliasCreate) : HostBlock where
  patterns := [config.hostAlias]
  hostname := firstWord config.hostname
  port := some config.port
  user := (config.user.filter (· ≠ [])).bind firstWord

namespace Disk

variable {Path : Type} {disk : Disk Path} {read : Read Path} {path : Path} {reader : Reader} {visited : List Path}

/-- A directive of the current block: one without a word is skipped. -/
theorem readLine_directive {indent : Nat} {keyword value : Text} {block : HostBlock} (named : Keyword keyword)
    (ends : LineEnd value) (host : keyword.map Char.toLower ≠ "host".toList)
    (include_ : keyword.map Char.toLower ≠ "include".toList) (current : reader.current = some block) :
    disk.readLine read path (reader, visited) (entryLine indent keyword value) =
      ({ reader with current := some (((shlexSplit value).filter (· ≠ [])).elim block
        (applyDirective block (keyword.map Char.toLower))) }, visited) := by
  obtain ⟨before, _, after⟩ := reader
  cases current
  rw [readLine, parseLine_entryLine named ends]
  cases words : shlexSplit value with
  | none => rfl
  | some args =>
    cases args with
    | nil => rfl
    | cons arg args =>
      simp only [Option.map_some]
      rw [if_neg host, if_neg include_]
      rfl

theorem readLine_host {indent : Nat} {value : Text} (ends : LineEnd value) (plain : ∀ c ∈ value, isPlain c = true) :
    disk.readLine read path (reader, visited) (entryLine indent "Host".toList value) =
      (reader.host [value], visited) := by
  have named : Keyword "Host".toList := ⟨by decide, by decide, by decide⟩
  rw [readLine, parseLine_entryLine named ends, shlexSplit_plain ends.nonempty plain]
  rfl

end Disk

/-- A directive that sets a field to its first word leaves an unset field as it is when it has none. -/
theorem elim_words (words : Option (List Text)) {block : HostBlock} {next : List Text → HostBlock}
    (assign : Option Text → HostBlock) (each : ∀ arg args, next (arg :: args) = assign (some arg))
    (unset : assign none = block) : (words.filter (· ≠ [])).elim block next = assign (words.bind List.head?) := by
  cases words with
  | none => exact unset.symm
  | some args =>
    cases args with
    | nil => exact unset.symm
    | cons arg args => exact each arg args

theorem applyDirective_port (block : HostBlock) {value : Text} {port : Int} (number : int value = some port) :
    applyDirective block "port".toList [value] = { block with port := some port } := by
  have known : [value].head?.bind int = some port := number
  simp only [applyDirective, known]
  rfl

namespace Disk

variable {Path : Type} {disk : Disk Path} {read : Read Path} {path : Path} {reader : Reader} {visited : List Path}

theorem readLine_hostname {block : HostBlock} {value : Text} (ends : LineEnd value)
    (current : reader.current = some block) (unset : block.hostname = none) :
    disk.readLine read path (reader, visited) (entryLine 4 "HostName".toList value) =
      ({ reader with current := some { block with hostname := firstWord value } }, visited) := by
  have named : Keyword "HostName".toList := ⟨by decide, by decide, by decide⟩
  rw [readLine_directive named ends (by decide) (by decide) current]
  rw [elim_words (shlexSplit value) (fun hostname => { block with hostname := hostname }) (fun arg args => rfl)
    (by rw [← unset])]
  rfl

theorem readLine_user {block : HostBlock} {value : Text} (ends : LineEnd value)
    (current : reader.current = some block) (unset : block.user = none) :
    disk.readLine read path (reader, visited) (entryLine 4 "User".toList value) =
      ({ reader with current := some { block with user := firstWord value } }, visited) := by
  have named : Keyword "User".toList := ⟨by decide, by decide, by decide⟩
  rw [readLine_directive named ends (by decide) (by decide) current]
  rw [elim_words (shlexSplit value) (fun user => { block with user := user }) (fun arg args => rfl) (by rw [← unset])]
  rfl

theorem readLine_port {block : HostBlock} {port : Nat} (bounds : 1 ≤ port ∧ port ≤ 65535)
    (current : reader.current = some block) :
    disk.readLine read path (reader, visited) (entryLine 4 "Port".toList (decimal port)) =
      ({ reader with current := some { block with port := some port } }, visited) := by
  have named : Keyword "Port".toList := ⟨by decide, by decide, by decide⟩
  obtain ⟨nonempty, plain⟩ := decimal_plain bounds.1
  have ends : LineEnd (decimal port) := plain_lineEnd nonempty fun c member =>
    ⟨(plain c member).1, (plain c member).2.1, (plain c member).2.2.1⟩
  have short : (Nat.digits 10 port).length ≤ 4300 := by
    have := (Nat.digits_length_le_iff (b := 10) (by decide) port (k := 5)).mpr (by omega)
    omega
  rw [readLine_directive named ends (by decide) (by decide) current,
    shlexSplit_plain nonempty fun c member => (plain c member).2.2.2]
  exact congrArg (fun block => ({ reader with current := some block }, visited))
    (applyDirective_port block (int_decimal bounds.1 short))

/-- The lines on the identity file say nothing that is read. -/
theorem readLine_identity {keyword value : Text} {block : HostBlock} (named : Keyword keyword) (ends : LineEnd value)
    (current : reader.current = some block) (host : keyword.map Char.toLower ≠ "host".toList)
    (include_ : keyword.map Char.toLower ≠ "include".toList)
    (ignored : ∀ args, applyDirective block (keyword.map Char.toLower) args = block) :
    disk.readLine read path (reader, visited) (entryLine 4 keyword value) = (reader, visited) := by
  rw [readLine_directive named ends host include_ current,
    elim_words (shlexSplit value) (fun _ => block) (fun arg args => ignored (arg :: args)) rfl]
  obtain ⟨before, _, after⟩ := reader
  cases current
  rfl

theorem foldl_user {block : HostBlock} {user : Option Text} (accepted : ∀ text ∈ user, ValuePattern 0 255 text)
    (current : reader.current = some block) (unset : block.user = none) :
    (written user fun text => [entryLine 4 "User".toList text]).foldl (disk.readLine read path) (reader, visited) =
      ({ reader with current := some { block with user := (user.filter (· ≠ [])).bind firstWord } }, visited) := by
  have same : ({ reader with current := some { block with user := none } }, visited) = (reader, visited) := by
    obtain ⟨before, _, after⟩ := reader
    cases current
    rw [← unset]
  cases user with
  | none => exact same.symm
  | some text =>
    cases text with
    | nil => exact same.symm
    | cons c rest => exact readLine_user ((accepted (c :: rest) rfl).lineEnd (by simp)) current unset

theorem foldl_identity {block : HostBlock} {identityFile : Option Text}
    (accepted : ∀ text ∈ identityFile, ValuePattern 0 4096 text) (current : reader.current = some block) :
    (written identityFile fun text => [entryLine 4 "IdentityFile".toList text,
      entryLine 4 "IdentitiesOnly".toList "yes".toList]).foldl (disk.readLine read path) (reader, visited) =
      (reader, visited) := by
  cases identityFile with
  | none => rfl
  | some text =>
    cases text with
    | nil => rfl
    | cons c rest =>
      have file : disk.readLine read path (reader, visited) (entryLine 4 "IdentityFile".toList (c :: rest)) =
          (reader, visited) :=
        readLine_identity ⟨by decide, by decide, by decide⟩ ((accepted (c :: rest) rfl).lineEnd (by simp)) current
          (by decide) (by decide) fun args => rfl
      have only : disk.readLine read path (reader, visited) (entryLine 4 "IdentitiesOnly".toList "yes".toList) =
          (reader, visited) :=
        readLine_identity ⟨by decide, by decide, by decide⟩ (plain_lineEnd (by decide) (by decide)) current
          (by decide) (by decide) fun args => rfl
      simp only [written, List.foldl_cons, List.foldl_nil, file, only]

theorem foldl_entry (config : SshHostAliasCreate) :
    (entryLines config).foldl (disk.readLine read path) (reader, visited) =
      (⟨reader.blocks, some (entryBlock config), []⟩, visited) := by
  rw [entryLines_eq, List.foldl_append, List.foldl_append, List.foldl_cons, List.foldl_cons, List.foldl_cons,
    List.foldl_nil, readLine_host (alias_lineEnd config) fun c member => ((alias_plain config).2 c member).2.2,
    readLine_hostname (config.hostnameAccepted.lineEnd (hostname_nonempty config)) rfl rfl,
    readLine_port config.portAccepted rfl, foldl_user config.userAccepted rfl rfl,
    foldl_identity config.identityFileAccepted rfl]
  rfl

end Disk

/-! ### The text of the file -/

theorem written_forall {value : Option Text} {lines : Text → List Text} {P : Text → Prop}
    (each : ∀ text ∈ value, text ≠ [] → ∀ line ∈ lines text, P line) : ∀ line ∈ written value lines, P line := by
  cases value with
  | none => simp [written]
  | some text =>
    cases text with
    | nil => simp [written]
    | cons c rest => exact each (c :: rest) rfl (by simp)

theorem entryLines_line (config : SshHostAliasCreate) :
    ∀ line ∈ entryLines config, ∀ c ∈ line, isBoundary c = false ∧ c ≠ '\r' := by
  intro line member
  rw [entryLines_eq, List.mem_append, List.mem_append] at member
  obtain (member | member) | member := member
  · simp only [List.mem_cons, List.not_mem_nil, or_false] at member
    obtain rfl | rfl | rfl := member
    · exact entryLine_line ⟨by decide, by decide, by decide⟩ (alias_lineEnd config)
    · exact entryLine_line ⟨by decide, by decide, by decide⟩
        (config.hostnameAccepted.lineEnd (hostname_nonempty config))
    · exact entryLine_line ⟨by decide, by decide, by decide⟩ (port_lineEnd config)
  · revert line
    refine written_forall fun text given nonempty line member => ?_
    rw [List.mem_singleton.mp member]
    exact entryLine_line ⟨by decide, by decide, by decide⟩ ((config.userAccepted text given).lineEnd nonempty)
  · revert line
    refine written_forall fun text given nonempty line member => ?_
    obtain rfl | member := List.mem_cons.mp member
    · exact entryLine_line ⟨by decide, by decide, by decide⟩ ((config.identityFileAccepted text given).lineEnd nonempty)
    · rw [List.mem_singleton.mp member]
      decide

theorem splitlines_lines {lines : List Text} (whole : ∀ line ∈ lines, ∀ c ∈ line, isBoundary c = false) :
    splitlines (lines.flatMap (· ++ ['\n'])) = lines := by
  induction lines with
  | nil => rfl
  | cons line lines ih =>
    rw [List.flatMap_cons, List.append_assoc, List.singleton_append, splitlines_cons (whole line List.mem_cons_self),
      ih fun other member => whole other (List.mem_cons_of_mem _ member)]

theorem splitlines_appended (raw : Text) (config : SshHostAliasCreate) :
    ∃ blanks : List Text, (∀ blank ∈ blanks, blank = []) ∧
      splitlines (universalNewlines (raw ++ appended (universalNewlines raw) config)) =
        splitlines (universalNewlines raw) ++ blanks ++ entryLines config := by
  -- The entry is split into its own lines, wherever it stands.
  have entry : splitlines (universalNewlines (renderEntry config)) = entryLines config := by
    rw [universalNewlines_self, renderEntry,
      splitlines_lines fun line member c known => (entryLines_line config line member c known).1]
    intro c member
    obtain ⟨line, known, member⟩ := List.mem_flatMap.mp member
    obtain member | rfl := List.mem_append.mp member |>.imp_right List.mem_singleton.mp
    · exact (entryLines_line config line known c member).2
    · decide
  unfold appended
  split
  · next empty =>
    have none : raw = [] := by
      cases raw with
      | nil => rfl
      | cons c rest =>
        rw [universalNewlines, newlinesFrom] at empty
        split at empty
        · cases empty
        · rw [if_neg (by simp)] at empty
          cases empty
    subst none
    exact ⟨[], by simp, entry⟩
  · split
    · obtain ⟨blanks, empty, lines⟩ := splitlines_append raw (renderEntry config)
      exact ⟨blanks, empty, by rw [List.nil_append, lines, entry]⟩
    · obtain ⟨blanks, empty, lines⟩ := splitlines_append raw ('\n' :: renderEntry config)
      obtain ⟨others, none, rest⟩ := splitlines_append [] (renderEntry config)
      refine ⟨blanks ++ others, ?_, ?_⟩
      · intro blank member
        exact (List.mem_append.mp member).elim (empty blank) (none blank)
      · rw [List.singleton_append, lines, ← List.nil_append ('\n' :: renderEntry config), rest, entry]
        simp [universalNewlines, newlinesFrom, splitlines, splitlinesFrom]

/-! ### The files that are included -/

namespace Disk

def Grows {Path : Type} (read : Read Path) : Prop := ∀ path visited, visited ⊆ (read path visited).2

/-- Two functions read the same once some paths have been visited. -/
def Agree {Path : Type} (known : List Path) (read read' : Read Path) : Prop :=
  ∀ path visited, known ⊆ visited → read path visited = read' path visited

variable {Path : Type} {disk disk' : Disk Path} {read read' : Read Path} {path : Path} {reader : Reader}
  {known visited : List Path}

theorem readAll_grows (grows : Grows read) (paths : List Path) (visited : List Path) :
    visited ⊆ (readAll read paths visited).2 := by
  induction paths generalizing visited with
  | nil => exact List.Subset.refl visited
  | cons path paths ih => exact List.Subset.trans (grows path visited) (ih _)

theorem readAll_agree (grows : Grows read) (agree : Agree known read read') (paths : List Path)
    (before : known ⊆ visited) : readAll read paths visited = readAll read' paths visited := by
  induction paths generalizing visited with
  | nil => rfl
  | cons path paths ih =>
    have later : known ⊆ (read path visited).2 := List.Subset.trans before (grows path visited)
    simp only [readAll, ← agree path visited before, ih later]

theorem readLine_grows (grows : Grows read) (state : Reader × List Path) (line : Text) :
    state.2 ⊆ (disk.readLine read path state line).2 := by
  obtain ⟨reader, visited⟩ := state
  simp only [readLine]
  split
  · exact List.Subset.refl _
  · exact List.Subset.refl _
  · split
    · exact List.Subset.refl _
    · split
      · exact readAll_grows grows _ _
      · exact List.Subset.refl _

theorem readLine_agree (same : disk'.includePaths = disk.includePaths) (grows : Grows read)
    (agree : Agree known read read') {state : Reader × List Path} (before : known ⊆ state.2) (line : Text) :
    disk.readLine read path state line = disk'.readLine read' path state line := by
  simp only [readLine, same, readAll_agree grows agree _ before]

theorem foldl_grows (grows : Grows read) (lines : List Text) (state : Reader × List Path) :
    state.2 ⊆ (lines.foldl (disk.readLine read path) state).2 := by
  induction lines generalizing state with
  | nil => exact List.Subset.refl _
  | cons line lines ih => exact List.Subset.trans (readLine_grows grows state line) (ih _)

theorem foldl_agree (same : disk'.includePaths = disk.includePaths) (grows : Grows read)
    (agree : Agree known read read') (lines : List Text) {state : Reader × List Path} (before : known ⊆ state.2) :
    lines.foldl (disk.readLine read path) state = lines.foldl (disk'.readLine read' path) state := by
  induction lines generalizing state with
  | nil => rfl
  | cons line lines ih =>
    rw [List.foldl_cons, List.foldl_cons, ← readLine_agree same grows agree before]
    exact ih (List.Subset.trans before (readLine_grows grows state line))

theorem foldl_blanks {blanks : List Text} (empty : ∀ blank ∈ blanks, blank = []) (state : Reader × List Path) :
    blanks.foldl (disk.readLine read path) state = state := by
  induction blanks with
  | nil => rfl
  | cons blank blanks ih =>
    rw [List.foldl_cons, empty blank List.mem_cons_self]
    exact ih fun other member => empty other (List.mem_cons_of_mem _ member)

variable [DecidableEq Path]

theorem iterBlocks_grows (depth : Nat) : Grows (disk.iterBlocks depth) := by
  induction depth with
  | zero => exact fun path visited => List.Subset.refl visited
  | succ depth ih =>
    intro path visited
    rw [iterBlocks]
    split
    · exact List.Subset.refl visited
    · split
      · exact List.subset_cons_self _ _
      · refine List.Subset.trans (List.subset_cons_self (disk.resolve path) visited) ?_
        exact foldl_grows ih _ (Reader.start, disk.resolve path :: visited)

def remaining (files visited : List Path) : Nat := (files.filter (· ∉ visited)).length

theorem remaining_mono (files : List Path) {visited later : List Path} (more : visited ⊆ later) :
    remaining files later ≤ remaining files visited := by
  refine (List.monotone_filter_right files fun path => ?_).length_le
  simp only [decide_eq_true_eq]
  exact fun unseen seen => unseen (more seen)

theorem remaining_cons {files visited : List Path} {path : Path} (member : path ∈ files) (unseen : path ∉ visited) :
    remaining files (path :: visited) < remaining files visited := by
  have split : files.filter (· ∉ path :: visited) = (files.filter (· ∉ visited)).filter (· ≠ path) := by
    rw [List.filter_filter]
    congr 1
    funext other
    simp [not_or]
  rw [remaining, split]
  refine List.length_filter_lt_length_iff_exists.mpr ⟨path, ?_, by simp⟩
  simp [member, unseen]

def unvisited (disk : Disk Path) (visited : List Path) : Nat := (disk.paths.filter (· ∉ visited)).length

theorem unvisited_mono {later : List Path} (more : visited ⊆ later) : disk.unvisited later ≤ disk.unvisited visited :=
  remaining_mono disk.paths more

theorem unvisited_cons (member : path ∈ disk.paths) (unseen : path ∉ visited) :
    disk.unvisited (path :: visited) < disk.unvisited visited := remaining_cons member unseen

/-- A nesting deeper than the number of files is never reached. -/
theorem iterBlocks_enough {depth : Nat} (enough : disk.unvisited visited < depth) :
    disk.iterBlocks depth path visited = disk.iterBlocks (depth + 1) path visited := by
  induction depth generalizing path visited with
  | zero => cases enough
  | succ depth ih =>
    rw [iterBlocks, iterBlocks]
    split
    · rfl
    · next unseen =>
      cases present : disk.file (disk.resolve path) with
      | none => rfl
      | some raw =>
        have fewer := unvisited_cons (disk.complete _ (by rw [present]; simp)) unseen
        have agree : Agree (disk.resolve path :: visited) (disk.iterBlocks depth) (disk.iterBlocks (depth + 1)) := by
          intro other later more
          have bound : disk.unvisited later ≤ disk.unvisited (disk.resolve path :: visited) := unvisited_mono more
          exact ih (by omega)
        simp only
        rw [foldl_agree rfl (iterBlocks_grows depth) agree _ (List.Subset.refl _)]

/-- What is written to a file that has been visited is not read. -/
theorem iterBlocks_write (resolved : Path) (raw : Text) (depth : Nat) :
    Agree [resolved] (disk.iterBlocks depth) ((disk.write resolved raw).iterBlocks depth) := by
  induction depth with
  | zero => exact fun path visited _ => rfl
  | succ depth ih =>
    intro path visited seen
    rw [iterBlocks, iterBlocks]
    have elsewhere : (disk.write resolved raw).resolve path = disk.resolve path := rfl
    rw [elsewhere]
    split
    · rfl
    · next unseen =>
      have other : disk.resolve path ≠ resolved := fun same => unseen (same ▸ seen List.mem_cons_self)
      have kept : (disk.write resolved raw).file (disk.resolve path) = disk.file (disk.resolve path) :=
        Function.update_of_ne other _ _
      rw [kept]
      cases disk.file (disk.resolve path) with
      | none => rfl
      | some text =>
        simp only
        rw [foldl_agree rfl (iterBlocks_grows depth) ih _ (List.Subset.trans seen (List.subset_cons_self _ _))]
        rfl

/-- The blocks of a config, from its text; a missing file is like an empty one. -/
theorem blocks_eq (configPath : Path) : disk.blocks configPath =
    ((splitlines (universalNewlines ((disk.file (disk.resolve configPath)).getD []))).foldl
      (disk.readLine (disk.iterBlocks disk.paths.length) configPath) (.start, [disk.resolve configPath])).1.blocks := by
  rw [blocks, iterBlocks, if_neg (by simp)]
  cases disk.file (disk.resolve configPath) <;> rfl

theorem blocks_appended (configPath : Path) (config : SshHostAliasCreate) {raw : Text}
    (before : (disk.file (disk.resolve configPath)).getD [] = raw) :
    (disk.write (disk.resolve configPath) (raw ++ appended (universalNewlines raw) config)).blocks configPath =
      disk.blocks configPath ++ [entryBlock config] := by
  obtain ⟨blanks, empty, lines⟩ := splitlines_appended raw config
  have present : (disk.write (disk.resolve configPath) (raw ++ appended (universalNewlines raw) config)).file
      (disk.resolve configPath) = some (raw ++ appended (universalNewlines raw) config) := Function.update_self ..
  have text : splitlines (universalNewlines (((disk.write (disk.resolve configPath)
      (raw ++ appended (universalNewlines raw) config)).file (disk.resolve configPath)).getD [])) =
      splitlines (universalNewlines raw) ++ blanks ++ entryLines config := by
    rw [present, Option.getD_some, lines]
  -- the files that the text before includes are read as before: the config is not read again
  have reads : (splitlines (universalNewlines raw)).foldl
      (disk.readLine (disk.iterBlocks disk.paths.length) configPath) (.start, [disk.resolve configPath]) =
      (splitlines (universalNewlines raw)).foldl
        ((disk.write (disk.resolve configPath) (raw ++ appended (universalNewlines raw) config)).readLine
          ((disk.write (disk.resolve configPath) (raw ++ appended (universalNewlines raw) config)).iterBlocks
            (disk.paths.length + 1)) configPath) (.start, [disk.resolve configPath]) := by
    cases was : disk.file (disk.resolve configPath) with
    | none =>
      rw [was] at before
      cases before
      rfl
    | some text =>
      refine foldl_agree rfl (iterBlocks_grows _) ?_ _ (List.Subset.refl _)
      intro path visited seen
      have member : disk.resolve configPath ∈ disk.paths := disk.complete _ (by rw [was]; simp)
      have fewer : disk.unvisited [disk.resolve configPath] < disk.unvisited [] := unvisited_cons member (by simp)
      have bound : disk.unvisited visited ≤ disk.unvisited [disk.resolve configPath] := unvisited_mono seen
      have most : disk.unvisited [] ≤ disk.paths.length := List.length_filter_le _ _
      rw [← iterBlocks_write _ _ _ path visited seen]
      exact iterBlocks_enough (by omega)
  have resolved : (disk.write (disk.resolve configPath) (raw ++ appended (universalNewlines raw) config)).resolve
      configPath = disk.resolve configPath := rfl
  have size : (disk.write (disk.resolve configPath) (raw ++ appended (universalNewlines raw) config)).paths.length =
      disk.paths.length + 1 := rfl
  rw [blocks_eq, blocks_eq, before, resolved, size, text, List.foldl_append, List.foldl_append, foldl_blanks empty,
    ← reads]
  generalize (splitlines (universalNewlines raw)).foldl
    (disk.readLine (disk.iterBlocks disk.paths.length) configPath) (.start, [disk.resolve configPath]) = state
  obtain ⟨reader, visited⟩ := state
  rw [foldl_entry]
  simp [Reader.blocks]

end Disk

/-! ### Listing and resolving -/

namespace Disk

def Names (block : HostBlock) (hostAlias : Text) : Prop := isLiteralPattern hostAlias = true ∧ hostAlias ∈ block.patterns

theorem mem_mergePattern {block : HostBlock} {merged : List (Text × HostBlock)} {pattern hostAlias : Text} :
    hostAlias ∈ (mergePattern block merged pattern).map Prod.fst ↔
      hostAlias ∈ merged.map Prod.fst ∨ isLiteralPattern pattern = true ∧ hostAlias = pattern := by
  unfold mergePattern
  split
  · next literal =>
    split
    · next known =>
      have same : (merged.map fun entry => (entry.1, if entry.1 = pattern then merge entry.2 block else entry.2)).map
          Prod.fst = merged.map Prod.fst := by rw [List.map_map]; rfl
      rw [same]
      refine ⟨.inl, fun member => member.elim id ?_⟩
      rintro ⟨_, rfl⟩
      obtain ⟨entry, member, same⟩ := List.any_eq_true.mp known
      exact List.mem_map.mpr ⟨entry, member, by simpa using same⟩
    · simp [literal]
  · next other => simp [other]

theorem mem_mergePatterns {block : HostBlock} {patterns : List Text} {merged : List (Text × HostBlock)}
    {hostAlias : Text} : hostAlias ∈ (patterns.foldl (mergePattern block) merged).map Prod.fst ↔
      hostAlias ∈ merged.map Prod.fst ∨ isLiteralPattern hostAlias = true ∧ hostAlias ∈ patterns := by
  induction patterns generalizing merged with
  | nil => simp
  | cons pattern patterns ih =>
    rw [List.foldl_cons, ih, mem_mergePattern, List.mem_cons]
    constructor
    · rintro ((known | ⟨literal, rfl⟩) | ⟨literal, member⟩)
      · exact .inl known
      · exact .inr ⟨literal, .inl rfl⟩
      · exact .inr ⟨literal, .inr member⟩
    · rintro (known | ⟨literal, rfl | member⟩)
      · exact .inl (.inl known)
      · exact .inl (.inr ⟨literal, rfl⟩)
      · exact .inr ⟨literal, member⟩

theorem mem_mergeBlocks {blocks : List HostBlock} {hostAlias : Text} :
    hostAlias ∈ (mergeBlocks blocks).map Prod.fst ↔ ∃ block ∈ blocks, Names block hostAlias := by
  induction blocks using List.reverseRecOn with
  | nil => simp [mergeBlocks]
  | append_singleton blocks block ih =>
    have step : mergeBlocks (blocks ++ [block]) = block.patterns.foldl (mergePattern block) (mergeBlocks blocks) := by
      rw [mergeBlocks, List.foldl_append]
      rfl
    rw [step, mem_mergePatterns, ih]
    constructor
    · rintro (⟨known, member, names⟩ | names)
      · exact ⟨known, List.mem_append_left _ member, names⟩
      · exact ⟨block, by simp, names⟩
    · rintro ⟨known, member, names⟩
      obtain member | rfl := List.mem_append.mp member |>.imp_right List.mem_singleton.mp
      · exact .inl ⟨known, member, names⟩
      · exact .inr names

theorem names_any {block : HostBlock} {hostAlias : Text} :
    (block.patterns.any fun pattern => isLiteralPattern pattern && pattern = hostAlias) = true ↔
      Names block hostAlias := by
  simp only [List.any_eq_true, Bool.and_eq_true, decide_eq_true_eq, Names]
  constructor
  · rintro ⟨pattern, member, literal, rfl⟩
    exact ⟨literal, member⟩
  · rintro ⟨literal, member⟩
    exact ⟨hostAlias, member, literal, rfl⟩

theorem resolveBlocks_append (blocks : List HostBlock) (block : HostBlock) (hostAlias : Text) :
    resolveBlocks (blocks ++ [block]) hostAlias =
      if block.patterns.any fun pattern => isLiteralPattern pattern && pattern = hostAlias then
        some (merge ((resolveBlocks blocks hostAlias).getD (.fresh [hostAlias])) block)
      else resolveBlocks blocks hostAlias := by
  rw [resolveBlocks, List.foldl_append]
  rfl

theorem resolveBlocks_none {blocks : List HostBlock} {hostAlias : Text}
    (unknown : ∀ block ∈ blocks, ¬Names block hostAlias) : resolveBlocks blocks hostAlias = none := by
  induction blocks using List.reverseRecOn with
  | nil => rfl
  | append_singleton blocks block ih =>
    rw [resolveBlocks_append, if_neg (names_any.not.mpr (unknown block (by simp))),
      ih fun other member => unknown other (List.mem_append_left _ member)]

end Disk

theorem alias_literal (config : SshHostAliasCreate) : isLiteralPattern config.hostAlias = true := by
  obtain ⟨_, _, every⟩ := config.aliasAccepted
  have absent : ∀ c, ¬(isAliasChar c = true ∨ c = '.' ∨ c = '_' ∨ c = '-') → c ∉ config.hostAlias :=
    fun c other member => other (every c member)
  have first : config.hostAlias.head? ≠ some '!' := fun same =>
    absent '!' (by decide) (List.mem_of_mem_head? same)
  simp [isLiteralPattern, first, absent '*' (by decide), absent '?' (by decide)]

namespace Disk

variable {Path : Type} [DecidableEq Path] {disk after : Disk Path} {configPath : Path} {config : SshHostAliasCreate}
  {option : SshHostAliasOption} {entries : List SshHostAliasOption}

theorem entryBlock_names {hostAlias : Text} : Names (entryBlock config) hostAlias ↔ hostAlias = config.hostAlias := by
  constructor
  · rintro ⟨_, member⟩
    exact List.mem_singleton.mp member
  · rintro rfl
    exact ⟨alias_literal config, List.mem_singleton_self _⟩

def readBack (config : SshHostAliasCreate) : SshHostAliasOption :=
  ⟨config.hostAlias, some (hostnameOr (entryBlock config).hostname config.hostAlias), some config.port,
    (entryBlock config).user⟩

/-- What `add_host_alias` leaves behind: one more entry in the list, at its end. -/
structure Appends (before after : Disk Path) (configPath : Path) (config : SshHostAliasCreate)
    (entries : List SshHostAliasOption) : Prop where
  listed : before.listHostAliases configPath = some entries
  unknown : ∀ entry ∈ entries, entry.hostAlias ≠ config.hostAlias
  lists : after.listHostAliases configPath = some (entries ++ [readBack config])
  resolves : after.resolveAlias configPath config.hostAlias =
    some ⟨config.hostAlias, (readBack config).hostname, (readBack config).port, (readBack config).user, true⟩
  others : ∀ other, other ≠ config.hostAlias →
    after.resolveAlias configPath other = before.resolveAlias configPath other

theorem listHostAliases_eq_some : disk.listHostAliases configPath = some entries ↔
    entries = (mergeBlocks (disk.blocks configPath)).map (fun entry => toOption entry.1 entry.2) ∧
      ∀ entry ∈ entries, PortAccepted entry.port := by
  rw [listHostAliases]
  constructor
  · intro listed
    split at listed
    · next accepted =>
      cases listed
      exact ⟨rfl, accepted⟩
    · cases listed
  · rintro ⟨rfl, accepted⟩
    exact if_pos accepted

theorem mergeBlocks_append (blocks : List HostBlock) (unknown : config.hostAlias ∉ (mergeBlocks blocks).map Prod.fst) :
    mergeBlocks (blocks ++ [entryBlock config]) =
      mergeBlocks blocks ++ [(config.hostAlias, merge (.fresh [config.hostAlias]) (entryBlock config))] := by
  have absent : (mergeBlocks blocks).any (·.1 = config.hostAlias) = false := by
    rw [List.any_eq_false]
    intro entry member same
    exact unknown (List.mem_map.mpr ⟨entry, member, by simpa using same⟩)
  rw [mergeBlocks, List.foldl_append]
  change mergePattern (entryBlock config) (mergeBlocks blocks) config.hostAlias = _
  rw [mergePattern, if_pos (alias_literal config), absent, if_neg Bool.false_ne_true]

theorem merge_entryBlock :
    merge (.fresh [config.hostAlias]) (entryBlock config) = entryBlock config := by
  simp [merge, HostBlock.fresh, entryBlock]

theorem addHostAlias_appends (added : disk.addHostAlias configPath config = some (after, option)) :
    ∃ entries, Appends disk after configPath config entries := by
  obtain ⟨entries, listed, step⟩ := Option.bind_eq_some_iff.mp added
  split at step
  · cases step
  · next absent =>
    simp only [Option.some.injEq, Prod.mk.injEq] at step
    obtain ⟨rfl, _⟩ := step
    have unknown : ∀ entry ∈ entries, entry.hostAlias ≠ config.hostAlias := by
      intro entry member same
      exact absent (List.any_eq_true.mpr ⟨entry, member, by simpa using same⟩)
    obtain ⟨same, accepted⟩ := listHostAliases_eq_some.mp listed
    have fresh : config.hostAlias ∉ (mergeBlocks (disk.blocks configPath)).map Prod.fst := by
      intro member
      obtain ⟨entry, member, named⟩ := List.mem_map.mp member
      refine unknown (toOption entry.1 entry.2) ?_ named
      rw [same]
      exact List.mem_map.mpr ⟨entry, member, rfl⟩
    -- No block names the alias, so the new block alone decides for it.
    have unnamed : ∀ block ∈ disk.blocks configPath, ¬Names block config.hostAlias := fun block member names =>
      fresh (mem_mergeBlocks.mpr ⟨block, member, names⟩)
    have port : PortAccepted (some (config.port : Int)) := by
      intro number given
      cases given
      have bounds := config.portAccepted
      omega
    refine ⟨entries, listed, unknown, ?_, ?_, ?_⟩
    · refine listHostAliases_eq_some.mpr ⟨?_, ?_⟩
      · rw [blocks_appended configPath config rfl, mergeBlocks_append _ fresh, merge_entryBlock, List.map_append, same]
        rfl
      · intro entry member
        obtain member | rfl := List.mem_append.mp member |>.imp_right List.mem_singleton.mp
        · exact accepted entry member
        · exact port
    · rw [resolveAlias, blocks_appended configPath config rfl, resolveBlocks_append,
        if_pos (names_any.mpr (entryBlock_names.mpr rfl)), resolveBlocks_none unnamed, Option.getD_none,
        merge_entryBlock]
      exact if_pos port
    · intro other differs
      rw [resolveAlias, blocks_appended configPath config rfl, resolveBlocks_append,
        if_neg (names_any.not.mpr fun names => differs (entryBlock_names.mp names))]
      rfl

/-- The requested entry comes back, and no other one has changed. -/
structure RoundTrip (before after : Disk Path) (configPath : Path) (config : SshHostAliasCreate) : Prop where
  resolved : after.resolveAlias configPath config.hostAlias =
    some ⟨config.hostAlias, some config.hostname, some config.port, config.user, true⟩
  listed : ∃ entries, after.listHostAliases configPath = some entries ∧
    entries.filter (·.hostAlias = config.hostAlias) =
      [⟨config.hostAlias, some config.hostname, some config.port, config.user⟩]
  othersResolved : ∀ other, other ≠ config.hostAlias →
    after.resolveAlias configPath other = before.resolveAlias configPath other
  othersListed : ∃ entries, after.listHostAliases configPath = some entries ∧
    before.listHostAliases configPath = some (entries.filter (·.hostAlias ≠ config.hostAlias))

def SingleWord (value : Text) : Prop := ∀ c ∈ value, isPlain c = true

instance (value : Text) : Decidable (SingleWord value) := inferInstanceAs (Decidable (∀ c ∈ value, isPlain c = true))

theorem firstWord_eq_self {value : Text} (nonempty : value ≠ []) : firstWord value = some value ↔ SingleWord value := by
  constructor
  · intro same
    obtain ⟨words, split, first⟩ := Option.bind_eq_some_iff.mp same
    cases words with
    | nil => cases first
    | cons word words =>
      cases first
      exact plain_of_shlexSplit split
  · intro plain
    rw [firstWord, shlexSplit_plain nonempty plain]
    rfl

/-- The hostname comes back when it is one word; the alias stands for one that is lost. -/
theorem hostname_readBack : (readBack config).hostname = some config.hostname ↔ SingleWord config.hostname := by
  have nonempty := hostname_nonempty config
  rw [← firstWord_eq_self nonempty]
  have differs (broken : ¬SingleWord config.hostname) : config.hostAlias ≠ config.hostname := fun same =>
    broken fun c member => ((alias_plain config).2 c (same ▸ member)).2.2
  have known : (entryBlock config).hostname = firstWord config.hostname := rfl
  simp only [readBack, known, Option.some.injEq]
  cases word : firstWord config.hostname with
  | none =>
    refine ⟨fun same => absurd same (differs fun plain => ?_), fun same => by cases same⟩
    rw [(firstWord_eq_self nonempty).mpr plain] at word
    cases word
  | some text =>
    cases text with
    | nil =>
      refine ⟨fun same => absurd same (differs fun plain => ?_), fun same => ?_⟩
      · rw [(firstWord_eq_self nonempty).mpr plain, Option.some.injEq] at word
        exact nonempty word
      · exact absurd (Option.some.inj same).symm nonempty
    | cons c rest => exact ⟨fun same => congrArg some same, Option.some.inj⟩

theorem user_readBack :
    (readBack config).user = config.user ↔ ∀ user ∈ config.user, user ≠ [] ∧ SingleWord user := by
  have known : (readBack config).user = (config.user.filter (· ≠ [])).bind firstWord := rfl
  rw [known]
  cases given : config.user with
  | none => simp
  | some user =>
    cases user with
    | nil =>
      have dropped : (some ([] : Text)).filter (· ≠ []) = none := rfl
      rw [dropped]
      simp
    | cons c rest =>
      have kept : (some (c :: rest)).filter (· ≠ []) = some (c :: rest) := rfl
      rw [kept, Option.bind_some, firstWord_eq_self (by simp)]
      simp

/-- Once an entry has been added, the requested values are read back if and only if the hostname is a single shell
word and the user, if one is given, is too and is not empty. -/
theorem added_alias_read_back (added : disk.addHostAlias configPath config = some (after, option)) :
    RoundTrip disk after configPath config ↔
      SingleWord config.hostname ∧ ∀ user ∈ config.user, user ≠ [] ∧ SingleWord user := by
  obtain ⟨entries, appends⟩ := addHostAlias_appends added
  have others : (entries ++ [readBack config]).filter (·.hostAlias ≠ config.hostAlias) = entries := by
    rw [List.filter_append, List.filter_eq_self.mpr fun entry member => by simpa using appends.unknown entry member]
    simp [readBack]
  have own : (entries ++ [readBack config]).filter (·.hostAlias = config.hostAlias) = [readBack config] := by
    rw [List.filter_append, List.filter_eq_nil_iff.mpr fun entry member => by simpa using appends.unknown entry member]
    simp [readBack]
  rw [← hostname_readBack, ← user_readBack]
  constructor
  · intro trip
    have same := appends.resolves.symm.trans trip.resolved
    rw [Option.some.injEq, ResolvedSshHost.mk.injEq] at same
    exact ⟨same.2.1, same.2.2.2.1⟩
  · rintro ⟨hostname, user⟩
    have whole : readBack config = ⟨config.hostAlias, some config.hostname, some config.port, config.user⟩ := by
      rw [← hostname, ← user]
      rfl
    refine ⟨?_, ⟨_, appends.lists, by rw [own, whole]⟩, appends.others, ⟨_, appends.lists, by rw [others]; exact appends.listed⟩⟩
    rw [appends.resolves, hostname, user]
    rfl

/-- A config with an open quote and no line end. -/
def openDisk : Disk Unit where
  file _ := some "Host a\n Port 1\n User \"b".toList
  resolve := id
  includePaths _ _ := []
  paths := [()]
  complete path _ := List.mem_singleton_self path

def plainConfig : SshHostAliasCreate where
  hostAlias := "g-1".toList
  hostname := "h=é".toList
  port := 2222
  user := some "u".toList
  identityFile := some "~/my key".toList
  aliasAccepted := ⟨by decide, ⟨'g', by decide, by decide⟩, by decide⟩
  hostnameAccepted := ⟨by decide, by decide, by decide, by decide⟩
  portAccepted := by decide
  userAccepted := fun text given => by cases given; exact ⟨by decide, by decide, by decide, by decide⟩
  identityFileAccepted := fun text given => by cases given; exact ⟨by decide, by decide, by decide, by decide⟩

theorem plain_alias_read_back : ∃ after option, openDisk.addHostAlias () plainConfig = some (after, option) ∧
    RoundTrip openDisk after () plainConfig := by
  obtain ⟨⟨after, option⟩, added⟩ : ∃ done, openDisk.addHostAlias () plainConfig = some done :=
    Option.isSome_iff_exists.mp (by decide +kernel)
  exact ⟨after, option, added, (added_alias_read_back added).mpr ⟨by decide, fun user given => by cases given; decide⟩⟩

def spacedConfig : SshHostAliasCreate :=
  { plainConfig with
    hostname := "my host".toList
    hostnameAccepted := ⟨by decide, by decide, by decide, by decide⟩ }

/-- A hostname with a blank in it is accepted, written as it is, and read back as its first word. -/
theorem spaced_hostname_lost :
    ¬∀ (disk after : Disk Unit) (config : SshHostAliasCreate) (option : SshHostAliasOption),
      disk.addHostAlias () config = some (after, option) → RoundTrip disk after () config := by
  intro every
  obtain ⟨⟨after, option⟩, added⟩ : ∃ done, openDisk.addHostAlias () spacedConfig = some done :=
    Option.isSome_iff_exists.mp (by decide +kernel)
  have resolved := (every openDisk after spacedConfig option added).resolved
  have first : (openDisk.addHostAlias () spacedConfig).bind (fun done => done.1.resolveAlias () "g-1".toList) =
      some ⟨"g-1".toList, some "my".toList, some 2222, some "u".toList, true⟩ := by decide +kernel
  rw [added, Option.bind_some] at first
  have same := first.symm.trans resolved
  exact absurd same (by decide)

end Disk

end PhysicalAiStudio.Remote.SshConfig
