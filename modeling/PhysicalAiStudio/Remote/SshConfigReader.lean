import PhysicalAiStudio.Remote.SshConfigRoundTrip

/-! The reader of the SSH config with all that it can raise: `ssh_config_reader.py`.

A home answers what the reader asks the file system. The reader nests as deep as the interpreter lets it, and its
survey is the same walk along the `Include` graph, which passes over what fails and notes what it comes to.
-/

set_option autoImplicit false

namespace PhysicalAiStudio.Remote.SshConfig

open Strings

/-- What `read_text` makes of a path: an `OSError`, bytes that are no text, or a text. -/
inductive FileText where
  | unreadable
  | undecodable
  | text (raw : Text)
  deriving DecidableEq

structure Home (Path : Type) where
  /-- `Path.resolve`, which raises `RuntimeError` at a loop of symbolic links; after an `OSError` the path itself. -/
  resolve : Path → Option Path
  readText : Path → FileText
  /-- `_resolve_include_paths` in the directory of a file, which raises where `expanduser` or `glob` does. -/
  includePaths : Path → Text → Option (List Path)

namespace Home

variable {Path : Type} (home : Home Path)

abbrev Read (Path : Type) := Path → List Path → Option (List HostBlock × List Path)

/-- `blocks.extend(_iter_blocks(include_path, visited))` for each path. -/
def readPaths (read : Read Path) : List Path → List Path → Option (List HostBlock × List Path)
  | [], visited => some ([], visited)
  | path :: paths, visited =>
    (read path visited).bind fun (blocks, visited) =>
      (readPaths read paths visited).map fun (others, visited) => (blocks ++ others, visited)

def readPatterns (read : Read Path) (path : Path) : List Text → List Path → Option (List HostBlock × List Path)
  | [], visited => some ([], visited)
  | pattern :: patterns, visited =>
    (home.includePaths path pattern).bind fun paths =>
      (readPaths read paths visited).bind fun (blocks, visited) =>
        (readPatterns read path patterns visited).map fun (others, visited) => (blocks ++ others, visited)

def readLine (read : Read Path) (path : Path) (state : Reader × List Path) (line : Text) :
    Option (Reader × List Path) :=
  match parseLine line with
  | none => some state
  -- A keyword without an argument is no directive.
  | some (_, []) => some state
  | some (keyword, arg :: args) =>
    if keyword = "host".toList then some (state.1.host (arg :: args), state.2)
    else if keyword = "include".toList then
      (home.readPatterns read path (arg :: args) state.2).map fun (blocks, visited) =>
        (state.1.extend blocks, visited)
    else
      some ({ state.1 with current := state.1.current.map fun block => applyDirective block keyword (arg :: args) },
        state.2)

/-- `_iter_blocks`, with the number of calls that the interpreter still lets nest. -/
def iterBlocks [DecidableEq Path] : Nat → Read Path
  | 0, _, _ => none
  | depth + 1, path, visited =>
    (home.resolve path).bind fun resolved =>
      if resolved ∈ visited then some ([], visited)
      else
        match home.readText path with
        | .unreadable => some ([], resolved :: visited)
        | .undecodable => none
        | .text raw =>
          ((splitlines (universalNewlines raw)).foldlM (home.readLine (iterBlocks depth) path)
            (.start, resolved :: visited)).map fun (reader, visited) => (reader.blocks, visited)

def listHostAliases [DecidableEq Path] (limit : Nat) (configPath : Path) : Option (List SshHostAliasOption) :=
  (home.iterBlocks limit configPath []).bind fun (blocks, _) =>
    let options := (Disk.mergeBlocks blocks).map fun (hostAlias, merged) => Disk.toOption hostAlias merged
    if ∀ option ∈ options, PortAccepted option.port then some options else none

def resolveAlias [DecidableEq Path] (limit : Nat) (configPath : Path) (hostAlias : Text) :
    Option ResolvedSshHost :=
  (home.iterBlocks limit configPath []).bind fun (blocks, _) =>
    match Disk.resolveBlocks blocks hostAlias with
    | none => some ⟨hostAlias, none, none, none, false⟩
    | some merged =>
      if PortAccepted merged.port then
        some ⟨hostAlias, some (Disk.hostnameOr merged.hostname hostAlias), merged.port, merged.user, true⟩
      else none

/-! ### The survey -/

/-- What the walk comes to: a call, with the calls that may still nest; a file that is read; an `Include` argument. -/
inductive Visit (Path : Type) where
  | call (depth : Nat) (path : Path)
  | file (path : Path)
  | pattern (path : Path) (pattern : Text)

def Sound : Visit Path → Prop
  | .call depth path => depth ≠ 0 ∧ (home.resolve path).isSome = true
  | .file path => home.readText path ≠ .undecodable
  | .pattern path pattern => (home.includePaths path pattern).isSome = true

instance : DecidablePred home.Sound
  | .call depth path => inferInstanceAs (Decidable (depth ≠ 0 ∧ (home.resolve path).isSome = true))
  | .file path => inferInstanceAs (Decidable (home.readText path ≠ .undecodable))
  | .pattern path pattern => inferInstanceAs (Decidable ((home.includePaths path pattern).isSome = true))

/-- A walk: what it came to, the blocks it met in order, and the resolved paths that have been visited. -/
structure Walk (Path : Type) where
  visits : List (Visit Path)
  blocks : List HostBlock
  visited : List Path

def walkPaths (walk : Path → List Path → Walk Path) : List Path → List Path → Walk Path
  | [], visited => ⟨[], [], visited⟩
  | path :: paths, visited =>
    let first := walk path visited
    let rest := walkPaths walk paths first.visited
    ⟨first.visits ++ rest.visits, first.blocks ++ rest.blocks, rest.visited⟩

def walkPatterns (walk : Path → List Path → Walk Path) (path : Path) : List Text → List Path → Walk Path
  | [], visited => ⟨[], [], visited⟩
  | pattern :: patterns, visited =>
    let first := walkPaths walk ((home.includePaths path pattern).getD []) visited
    let rest := walkPatterns walk path patterns first.visited
    ⟨.pattern path pattern :: (first.visits ++ rest.visits), first.blocks ++ rest.blocks, rest.visited⟩

def walkLine (walk : Path → List Path → Walk Path) (path : Path) (state : Reader × List Path) (line : Text) :
    List (Visit Path) × Reader × List Path :=
  match parseLine line with
  | none => ([], state)
  | some (_, []) => ([], state)
  | some (keyword, arg :: args) =>
    if keyword = "host".toList then ([], state.1.host (arg :: args), state.2)
    else if keyword = "include".toList then
      let included := home.walkPatterns walk path (arg :: args) state.2
      (included.visits, state.1.extend included.blocks, included.visited)
    else
      ([], { state.1 with current := state.1.current.map fun block => applyDirective block keyword (arg :: args) },
        state.2)

def walkLines (walk : Path → List Path → Walk Path) (path : Path) :
    List Text → Reader × List Path → List (Visit Path) × Reader × List Path
  | [], state => ([], state)
  | line :: lines, state =>
    let (visits, state) := home.walkLine walk path state line
    let (others, state) := walkLines walk path lines state
    (visits ++ others, state)

/-- The walk along the `Include` graph, depth first; what fails has no blocks. -/
def survey [DecidableEq Path] : Nat → Path → List Path → Walk Path
  | 0, path, visited => ⟨[.call 0 path], [], visited⟩
  | depth + 1, path, visited =>
    match home.resolve path with
    | none => ⟨[.call (depth + 1) path], [], visited⟩
    | some resolved =>
      if resolved ∈ visited then ⟨[.call (depth + 1) path], [], visited⟩
      else
        match home.readText path with
        | .text raw =>
          let (visits, reader, visited) := home.walkLines (survey depth) path (splitlines (universalNewlines raw))
            (.start, resolved :: visited)
          ⟨.call (depth + 1) path :: .file path :: visits, reader.blocks, visited⟩
        | _ => ⟨[.call (depth + 1) path, .file path], [], resolved :: visited⟩

end Home

end PhysicalAiStudio.Remote.SshConfig
