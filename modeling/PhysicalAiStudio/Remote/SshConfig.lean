import PhysicalAiStudio.Strings.Shlex

/-! The user's SSH config: the reader of `Host` entries and the writer that appends one.

A disk has the text of its files by resolved path. Which files an `Include` argument names
is up to the disk: the names of the files do not change when an entry is appended.
-/

set_option autoImplicit false

namespace PhysicalAiStudio.Remote.SshConfig

open Strings

/-! ### Schemas -/

/-- `SSH_HOST_ALIAS_PATTERN`. -/
def isAliasChar (c : Char) : Bool :=
  ('A' ≤ c && c ≤ 'Z') || ('a' ≤ c && c ≤ 'z') || ('0' ≤ c && c ≤ '9')

def AliasPattern (text : Text) : Prop :=
  text.length ≤ 255 ∧ (∃ c ∈ text.head?, isAliasChar c = true) ∧
    ∀ c ∈ text, isAliasChar c = true ∨ c = '.' ∨ c = '_' ∨ c = '-'

/-- `SSH_CONFIG_VALUE_PATTERN`. -/
def isValueChar (c : Char) : Bool :=
  !(c.toNat ≤ 0x1f || (0x7f ≤ c.toNat && c.toNat ≤ 0x9f) || c.toNat = 0x2028 || c.toNat = 0x2029)

/-- A value after `str_strip_whitespace`, within its length. -/
structure ValuePattern (least most : Nat) (text : Text) : Prop where
  stripped : strip text = text
  least : least ≤ text.length
  most : text.length ≤ most
  value : ∀ c ∈ text, isValueChar c = true

structure SshHostAliasCreate where
  hostAlias : Text
  hostname : Text
  port : Nat
  user : Option Text
  identityFile : Option Text
  aliasAccepted : AliasPattern hostAlias
  hostnameAccepted : ValuePattern 1 255 hostname
  portAccepted : 1 ≤ port ∧ port ≤ 65535
  userAccepted : ∀ text ∈ user, ValuePattern 0 255 text
  identityFileAccepted : ∀ text ∈ identityFile, ValuePattern 0 4096 text

structure SshHostAliasOption where
  hostAlias : Text
  hostname : Option Text
  port : Option Int
  user : Option Text
  deriving DecidableEq

structure ResolvedSshHost where
  hostAlias : Text
  hostname : Option Text
  port : Option Int
  user : Option Text
  found : Bool
  deriving DecidableEq

def PortAccepted (port : Option Int) : Prop := ∀ number ∈ port, 1 ≤ number ∧ number ≤ 65535

instance (port : Option Int) : Decidable (PortAccepted port) :=
  inferInstanceAs (Decidable (∀ number ∈ port, 1 ≤ number ∧ number ≤ 65535))

/-! ### The reader -/

structure HostBlock where
  patterns : List Text
  hostname : Option Text
  port : Option Int
  user : Option Text
  deriving DecidableEq

def HostBlock.fresh (patterns : List Text) : HostBlock := ⟨patterns, none, none, none⟩

def isLiteralPattern (pattern : Text) : Bool :=
  pattern.head? ≠ some '!' && !pattern.contains '*' && !pattern.contains '?'

/-- `_DIRECTIVE_PATTERN` after the first character: the shortest keyword, its separator, and the rest. -/
def directiveFrom : Text → Option (Text × Text)
  | [] => none
  | c :: rest =>
    if isSpace c ∨ c = '=' then some ([], rest.dropWhile isSpace)
    else (directiveFrom rest).map fun (keyword, value) => (c :: keyword, value)

def directive : Text → Option (Text × Text)
  | [] => none
  | c :: rest =>
    if isSpace c then none else (directiveFrom rest).map fun (keyword, value) => (c :: keyword, value)

/-- `_parse_line`. No keyword that is compared has a letter with other cases than the ASCII ones. -/
def parseLine (line : Text) : Option (Text × List Text) :=
  let stripped := strip line
  if stripped = [] ∨ stripped.head? = some '#' then none
  else
    (directive stripped).bind fun (keyword, value) =>
      (shlexSplit value).map fun args => (keyword.map Char.toLower, args)

def credentialDirectivePrefixes : List Text :=
  ["identityfile".toList, "identityagent".toList, "certificatefile".toList, "password".toList]

def applyDirective (current : HostBlock) (keyword : Text) (args : List Text) : HostBlock :=
  if credentialDirectivePrefixes.any (·.isPrefixOf keyword) then current
  else if keyword = "hostname".toList then { current with hostname := args.head? }
  else if keyword = "port".toList then
    match args.head?.bind int with
    | some port => { current with port := some port }
    | none => current
  else if keyword = "user".toList then { current with user := args.head? }
  else current

structure Reader where
  before : List HostBlock
  current : Option HostBlock
  after : List HostBlock

namespace Reader

def start : Reader := ⟨[], none, []⟩

def blocks (reader : Reader) : List HostBlock := reader.before ++ reader.current.toList ++ reader.after

def host (reader : Reader) (patterns : List Text) : Reader := ⟨reader.blocks, some (.fresh patterns), []⟩

def extend (reader : Reader) (blocks : List HostBlock) : Reader := { reader with after := reader.after ++ blocks }

end Reader

/-- What the reader and the writer see of the file system. -/
structure Disk (Path : Type) where
  file : Path → Option Text
  /-- `Path.resolve`. -/
  resolve : Path → Path
  /-- `_resolve_include_paths` in the directory of a file. -/
  includePaths : Path → Text → List Path
  paths : List Path
  complete : ∀ path, file path ≠ none → path ∈ paths

namespace Disk

variable {Path : Type} [DecidableEq Path] (disk : Disk Path)

abbrev Read (Path : Type) := Path → List Path → List HostBlock × List Path

def readAll (read : Read Path) : List Path → List Path → List HostBlock × List Path
  | [], visited => ([], visited)
  | path :: paths, visited =>
    let (blocks, visited) := read path visited
    let (others, visited) := readAll read paths visited
    (blocks ++ others, visited)

/-- The body of the loop of `_iter_blocks`. -/
def readLine (read : Read Path) (path : Path) (state : Reader × List Path) (line : Text) : Reader × List Path :=
  let (reader, visited) := state
  match parseLine line with
  | none => (reader, visited)
  | some (_, []) => (reader, visited)
  | some (keyword, arg :: args) =>
    if keyword = "host".toList then (reader.host (arg :: args), visited)
    else if keyword = "include".toList then
      let (blocks, visited) := readAll read ((arg :: args).flatMap (disk.includePaths path)) visited
      (reader.extend blocks, visited)
    else ({ reader with current := reader.current.map fun block => applyDirective block keyword (arg :: args) }, visited)

/-- `_iter_blocks`, with a bound on the nesting of `Include`. -/
def iterBlocks : Nat → Read Path
  | 0, _, visited => ([], visited)
  | depth + 1, path, visited =>
    let resolved := disk.resolve path
    if resolved ∈ visited then ([], visited)
    else
      match disk.file resolved with
      -- An unreadable file counts as visited.
      | none => ([], resolved :: visited)
      | some raw =>
        let (reader, visited) := (splitlines (universalNewlines raw)).foldl (disk.readLine (iterBlocks depth) path)
          (.start, resolved :: visited)
        (reader.blocks, visited)

def blocks (configPath : Path) : List HostBlock := (disk.iterBlocks (disk.paths.length + 1) configPath []).1

def merge (existing block : HostBlock) : HostBlock :=
  { existing with
    hostname := block.hostname.or existing.hostname
    port := block.port.or existing.port
    user := block.user.or existing.user }

def mergePattern (block : HostBlock) (merged : List (Text × HostBlock)) (pattern : Text) : List (Text × HostBlock) :=
  if isLiteralPattern pattern then
    if merged.any (·.1 = pattern) then
      merged.map fun (hostAlias, existing) =>
        (hostAlias, if hostAlias = pattern then merge existing block else existing)
    else merged ++ [(pattern, merge (.fresh [pattern]) block)]
  else merged

def hostnameOr (hostname : Option Text) (hostAlias : Text) : Text :=
  match hostname with
  | none | some [] => hostAlias
  | some (c :: rest) => c :: rest

def toOption (hostAlias : Text) (merged : HostBlock) : SshHostAliasOption :=
  ⟨hostAlias, some (hostnameOr merged.hostname hostAlias), merged.port, merged.user⟩

def mergeBlocks (blocks : List HostBlock) : List (Text × HostBlock) :=
  blocks.foldl (fun merged block => block.patterns.foldl (mergePattern block) merged) []

def listHostAliases (configPath : Path) : Option (List SshHostAliasOption) :=
  let options := (mergeBlocks (disk.blocks configPath)).map fun (hostAlias, merged) => toOption hostAlias merged
  if ∀ option ∈ options, PortAccepted option.port then some options else none

def resolveBlocks (blocks : List HostBlock) (hostAlias : Text) : Option HostBlock :=
  blocks.foldl
    (fun found block =>
      if block.patterns.any fun pattern => isLiteralPattern pattern && pattern = hostAlias then
        some (merge (found.getD (.fresh [hostAlias])) block)
      else found)
    none

def resolveAlias (configPath : Path) (hostAlias : Text) : Option ResolvedSshHost :=
  match resolveBlocks (disk.blocks configPath) hostAlias with
  | none => some ⟨hostAlias, none, none, none, false⟩
  | some merged =>
    if PortAccepted merged.port then
      some ⟨hostAlias, some (hostnameOr merged.hostname hostAlias), merged.port, merged.user, true⟩
    else none

end Disk

/-! ### The writer -/

/-- `if config.user` and `if config.identity_file`. -/
def written (value : Option Text) (line : Text → List Text) : List Text :=
  match value with
  | none | some [] => []
  | some (c :: rest) => line (c :: rest)

def entryLines (config : SshHostAliasCreate) : List Text :=
  ["Host ".toList ++ config.hostAlias, "    HostName ".toList ++ config.hostname,
      "    Port ".toList ++ decimal config.port] ++
    written config.user (fun user => ["    User ".toList ++ user]) ++
    written config.identityFile fun identityFile =>
      ["    IdentityFile ".toList ++ identityFile, "    IdentitiesOnly yes".toList]

def renderEntry (config : SshHostAliasCreate) : Text := (entryLines config).flatMap (· ++ ['\n'])

def appended (existing : Text) (config : SshHostAliasCreate) : Text :=
  if existing = [] then renderEntry config
  else (if existing.getLast? = some '\n' then [] else ['\n']) ++ '\n' :: renderEntry config

namespace Disk

variable {Path : Type} [DecidableEq Path] (disk : Disk Path)

def write (path : Path) (raw : Text) : Disk Path where
  file := Function.update disk.file path (some raw)
  resolve := disk.resolve
  includePaths := disk.includePaths
  paths := path :: disk.paths
  complete := by
    intro other present
    by_cases same : other = path
    · exact same ▸ List.mem_cons_self
    · rw [Function.update_of_ne same] at present
      exact List.mem_cons_of_mem _ (disk.complete other present)

/-- `add_host_alias`, where the operating system lets it write; `none` where it raises. -/
def addHostAlias (configPath : Path) (config : SshHostAliasCreate) : Option (Disk Path × SshHostAliasOption) :=
  (disk.listHostAliases configPath).bind fun existing =>
    if existing.any (·.hostAlias = config.hostAlias) then none
    else
      let resolved := disk.resolve configPath
      let raw := (disk.file resolved).getD []
      some (disk.write resolved (raw ++ appended (universalNewlines raw) config),
        ⟨config.hostAlias, some config.hostname, some config.port, config.user⟩)

end Disk

end PhysicalAiStudio.Remote.SshConfig
