import Mathlib.Data.Char
import Mathlib.Data.Finset.Lattice.Basic
import Mathlib.Data.List.Lex
import PhysicalAiStudio.Archives.LeRobotCommit

/-! What a LeRobot import shows for review: `resolve_member_name` and the reads of `SafeZipArchive`, `detect` and
`_load_episode_metadata` of `LeRobotV3Adapter`.

What pandas makes of a parquet file is a parameter. A reading that fails otherwise than with a bad ZIP file is taken to
be no `OSError`, and what was reported before an error is left out.
-/

set_option autoImplicit false

namespace PhysicalAiStudio.Archives

open Strings

/-! ### Reads -/

/-- A name is the target, or ends with it below some directory. -/
def isNamed (target name : Text) : Bool := name = target || ('/' :: target).isSuffixOf name

namespace SafeZipArchive

def resolveMemberName (archive : SafeZipArchive) (targetName : Text) : Except ArchiveError (Option Text) :=
  archive.validate.map fun _ =>
    (archive.members.find? fun member =>
      isNamed (normalizeZipMemberName targetName) (normalizeZipMemberName member.filename)).map fun member =>
        member.filename

/-- `ZipFile.getinfo`: the last member of a name. -/
def getinfo (archive : SafeZipArchive) (name : Text) : Option Member :=
  archive.members.reverse.find? fun member => member.filename = name

def readMember (archive : SafeZipArchive) (targetName : Text) : Except ArchiveError (Option (List UInt8)) :=
  match archive.resolveMemberName targetName with
  | .error error => .error error
  | .ok none => .ok none
  | .ok (some name) =>
    match archive.getinfo name with
    | none => .error .raised
    | some member =>
      match member.ending with
      | .complete => .ok (some member.data)
      -- Only a bad member is reported as an invalid archive; any other failure of the read goes on as it is.
      | .badZipFile => .error (.invalidArchive ("Unable to read '".toList ++ targetName ++ "' from archive".toList))
      | .failed => .error .raised

def opened (archive : SafeZipArchive) (targetName : Text) : Option Member :=
  match archive.resolveMemberName targetName with
  | .ok (some name) => archive.getinfo name
  | _ => none

end SafeZipArchive

/-! ### Detection -/

def infoName : Text := "meta/info.json".toList

def tasksName : Text := "meta/tasks.parquet".toList

def contains (part text : Text) : Bool := decide (part <:+: text)

def isV3Data (name : Text) : Bool :=
  (contains "data/".toList name || "data/".toList.isPrefixOf name) && contains "/file-".toList name &&
    ".parquet".toList.isSuffixOf name && !contains "episode_".toList name

def v2Marker (name : Text) : Option Text :=
  if isNamed "meta/episodes.jsonl".toList name then some "'meta/episodes.jsonl'".toList
  else if isNamed "meta/tasks.jsonl".toList name then some "'meta/tasks.jsonl'".toList
  else none

structure Markers where
  hasInfo : Bool
  hasTasksParquet : Bool
  hasV3Data : Bool

def Markers.unseen : Markers := ⟨false, false, false⟩

def Markers.add (markers : Markers) (name : Text) : Markers where
  hasInfo := markers.hasInfo || isNamed infoName name
  hasTasksParquet := markers.hasTasksParquet || isNamed tasksName name
  hasV3Data := markers.hasV3Data || isV3Data name

def Markers.all (markers : Markers) : Bool := markers.hasInfo && markers.hasTasksParquet && markers.hasV3Data

/-- How the loop over the names ends. -/
inductive Detection where
  | matched
  | rejected (marker : Text)
  | exhausted (markers : Markers)

inductive Verdict where
  | accepted
  | unsupportedV2
  | notRecognised
  deriving DecidableEq

def Detection.verdict : Detection → Verdict
  | .matched => .accepted
  | .rejected _ => .unsupportedV2
  | .exhausted _ => .notRecognised

def detectFrom : List Text → Markers → Detection
  | [], markers => .exhausted markers
  | name :: rest, markers =>
    match v2Marker name with
    | some marker => .rejected marker
    | none =>
      let markers := markers.add name
      if markers.all then .matched else detectFrom rest markers

def SafeZipArchive.detection (archive : SafeZipArchive) : Except ArchiveError Detection :=
  archive.iterNormalizedNames.map fun names => detectFrom names .unseen

def Markers.missing (markers : Markers) : List Text :=
  (if markers.hasInfo then [] else ["'meta/info.json'".toList]) ++
    (if markers.hasTasksParquet then [] else ["'meta/tasks.parquet'".toList]) ++
    (if markers.hasV3Data then [] else ["v3 data files ('data/chunk-*/file-*.parquet')".toList])

inductive Severity where
  | error
  | warning

structure ImportValidationMessage where
  severity : Severity
  message : Text

abbrev ImportValidationReport := List ImportValidationMessage

def ImportValidationReport.addError (report : ImportValidationReport) (message : Text) : ImportValidationReport :=
  report ++ [⟨.error, message⟩]

def ImportValidationReport.addWarning (report : ImportValidationReport) (message : Text) : ImportValidationReport :=
  report ++ [⟨.warning, message⟩]

def Detection.answer : Detection → Bool × ImportValidationReport
  | .matched => (true, [])
  | .rejected marker =>
    (false, ImportValidationReport.addError [] ("Archive contains LeRobot v2 markers (".toList ++ marker ++
      "); use the lerobot_v2 dataset format instead.".toList))
  | .exhausted markers =>
    (false, if markers.missing = [] then [] else
      ImportValidationReport.addError []
        ("LeRobot v3 markers not found: ".toList ++ ", ".toList.intercalate markers.missing ++ ".".toList))

def SafeZipArchive.detect (archive : SafeZipArchive) : Except ArchiveError (Bool × ImportValidationReport) :=
  archive.detection.map Detection.answer

/-! ### Episode shards -/

def isNumber (text : Text) : Bool := text ≠ [] && text.all fun c => (digit c).isSome

/-- The groups of `_EPISODE_PARQUET_PATTERN` in the parts of a path; its end may stand before a line feed. -/
def shardGroups : List Text → Option (Text × Text)
  | [first, second, chunk, file] =>
    if first = "meta".toList ∧ second = "episodes".toList then
      (chunk.dropPrefix? "chunk-".toList).bind fun chunkIndex =>
        (file.dropPrefix? "file-".toList).bind fun file =>
          let file := if file.getLast? = some '\n' then file.dropLast else file
          (file.dropSuffix? ".parquet".toList).bind fun fileIndex =>
            if isNumber chunkIndex ∧ isNumber fileIndex then some (chunkIndex, fileIndex) else none
    else none
  | _ => none

/-- `_EPISODE_PARQUET_PATTERN.search`, which can only match the last parts of a name. -/
def searchEpisodeParquet (name : Text) : Option (Text × Text) :=
  let parts := name.splitOn '/'
  shardGroups (parts.drop (parts.length - 4))

structure EpisodeShard where
  chunkIndex : Int
  fileIndex : Int
  name : Text

/-- The order of the sort keys. -/
def EpisodeShard.le (first second : EpisodeShard) : Bool :=
  decide (first.chunkIndex < second.chunkIndex ∨ first.chunkIndex = second.chunkIndex ∧
    (first.fileIndex < second.fileIndex ∨ first.fileIndex = second.fileIndex ∧ first.name ≤ second.name))

def episodeShard (name : Text) (groups : Text × Text) : Option EpisodeShard :=
  (int groups.1).bind fun chunkIndex => (int groups.2).map fun fileIndex => ⟨chunkIndex, fileIndex, name⟩

/-- The shards in the order they are read, or nothing where `int` raises. -/
def episodeShards (names : List Text) : Option (List EpisodeShard) :=
  let found := names.filterMap fun name => (searchEpisodeParquet name).map fun groups => (name, groups)
  (found.mapM fun shard => episodeShard shard.1 shard.2).map fun shards => shards.mergeSort EpisodeShard.le

/-- What pandas reads of a shard: the numbers among the episode indices, the sum of the lengths, and the texts in the
lists of tasks, where the shard has these columns. -/
structure EpisodesFrame where
  rows : Nat
  episodeIndex : Option (List Int)
  lengths : Option Int
  tasks : Option (List Text)

/-- The counters and sets of the loop over the shards. -/
structure EpisodeTotals where
  readable : Nat
  withEpisodeIndex : Nat
  withoutEpisodeIndex : Nat
  withoutLength : Nat
  rows : Nat
  rowsWithoutEpisodeIndex : Nat
  uniqueEpisodeIndices : Finset Int
  frameCount : Int
  tasks : Finset Text

def EpisodeTotals.zero : EpisodeTotals := ⟨0, 0, 0, 0, 0, 0, ∅, 0, ∅⟩

def EpisodeTotals.add (totals : EpisodeTotals) (frame : EpisodesFrame) : EpisodeTotals where
  readable := totals.readable + 1
  withEpisodeIndex := totals.withEpisodeIndex + if frame.episodeIndex.isSome then 1 else 0
  withoutEpisodeIndex := totals.withoutEpisodeIndex + if frame.episodeIndex.isSome then 0 else 1
  withoutLength := totals.withoutLength + if frame.lengths.isSome then 0 else 1
  rows := totals.rows + frame.rows
  rowsWithoutEpisodeIndex := totals.rowsWithoutEpisodeIndex + if frame.episodeIndex.isSome then 0 else frame.rows
  uniqueEpisodeIndices := totals.uniqueEpisodeIndices ∪ (frame.episodeIndex.getD []).toFinset
  frameCount := totals.frameCount + frame.lengths.getD 0
  tasks := totals.tasks ∪ (frame.tasks.getD []).toFinset

def EpisodeTotals.episodeCount (totals : EpisodeTotals) : Nat :=
  if totals.withEpisodeIndex = 0 then totals.rows
  else if totals.withoutEpisodeIndex = 0 then totals.uniqueEpisodeIndices.card
  else totals.uniqueEpisodeIndices.card + totals.rowsWithoutEpisodeIndex

/-- `pd.read_parquet`, with the name of the type of its error. -/
abbrev ParquetReader := List UInt8 → Except Text EpisodesFrame

def addShard (readParquet : ParquetReader) (state : EpisodeTotals × ImportValidationReport)
    (shard : Text × Option (List UInt8)) : EpisodeTotals × ImportValidationReport :=
  match shard.2 with
  | none => (state.1, state.2.addWarning ("Could not read episode parquet '".toList ++ shard.1 ++ "'.".toList))
  | some content =>
    match readParquet content with
    | .error kind =>
      (state.1, state.2.addWarning ("Could not parse episode parquet '".toList ++ shard.1 ++ "' (".toList ++ kind ++
        "); skipping this shard.".toList))
    | .ok frame => (state.1.add frame, state.2)

/-- The integers among the totals of `meta/info.json`. -/
structure InfoTotals where
  totalEpisodes : Option Int
  totalFrames : Option Int

structure EpisodeMetadata where
  episodeCount : Int
  frameCount : Int
  tasks : Finset Text
  report : ImportValidationReport

def integer (value : Int) : Text := (if value < 0 then ['-'] else []) ++ decimal value.natAbs

/-- The warning of a total that the shards do not confirm. -/
def checkTotal (expected : Option Int) (counted : Int) (before middle after : Text) (report : ImportValidationReport) :
    ImportValidationReport :=
  match expected with
  | none => report
  | some expected =>
    if expected = counted then report
    else report.addWarning (before ++ integer expected ++ middle ++ integer counted ++ after)

def EpisodeTotals.metadata (totals : EpisodeTotals) (info : InfoTotals) (report : ImportValidationReport) :
    EpisodeMetadata :=
  if totals.readable = 0 then
    ⟨0, 0, totals.tasks, report.addError
      "No readable episode parquet found under 'meta/episodes/chunk-*/file-*.parquet'.".toList⟩
  else
    let count : Int := totals.episodeCount
    let report :=
      -- A count by rows alone, or by rows in some shards, is reported; a mismatch below is an error on its own.
      if totals.withEpisodeIndex = 0 then report.addWarning
        "Episode parquet shards are missing 'episode_index'; episode count is based on row count.".toList
      else if totals.withoutEpisodeIndex = 0 then report
      else report.addWarning
        "Some episode parquet shards are missing 'episode_index'; episode count may be approximate.".toList
    let report :=
      if totals.withoutLength = 0 then report
      else report.addWarning (decimal totals.withoutLength ++
        " episode parquet shard(s) are missing 'length'; frame count may be incomplete.".toList)
    let report := checkTotal info.totalEpisodes count "Episode count mismatch: metadata reports ".toList
      ", parsed episode shards report ".toList ".".toList report
    let report := checkTotal info.totalFrames totals.frameCount "Frame count mismatch: metadata reports ".toList
      ", parsed episode shards report ".toList ".".toList report
    ⟨count, totals.frameCount, totals.tasks,
      if totals.tasks = ∅ then report.addWarning "Could not infer tasks from episode metadata.".toList else report⟩

inductive DraftError where
  | archive (error : ArchiveError)
  | valueError

namespace SafeZipArchive

/-- The contents of shards; the first that cannot be read ends the loop. -/
def readShards (archive : SafeZipArchive) : List EpisodeShard → Except ArchiveError (List (Text × Option (List UInt8)))
  | [] => .ok []
  | shard :: rest =>
    match archive.readMember shard.name with
    | .error error => .error error
    | .ok content => (archive.readShards rest).map fun later => (shard.name, content) :: later

def loadEpisodeMetadata (archive : SafeZipArchive) (readParquet : ParquetReader) (info : InfoTotals) :
    Except DraftError EpisodeMetadata :=
  match archive.iterNormalizedNames with
  | .error error => .error (.archive error)
  | .ok names =>
    match episodeShards names with
    -- A chunk or file number that int() does not read raises.
    | none => .error .valueError
    | some [] => .ok ⟨0, 0, ∅, ImportValidationReport.addError []
        "No episode parquet found under 'meta/episodes/chunk-*/file-*.parquet'.".toList⟩
    | some shards =>
      match archive.readShards shards with
      | .error error => .error (.archive error)
      | .ok contents =>
        let state := contents.foldl (addShard readParquet) (.zero, [])
        .ok (state.1.metadata info state.2)

/-- The members that are opened for the shards, nothing where that raises before. -/
def openedShards (archive : SafeZipArchive) : Option (List (Option Member)) :=
  match archive.iterNormalizedNames with
  | .error _ => none
  | .ok names => (episodeShards names).map fun shards => shards.map fun shard => archive.opened shard.name

end SafeZipArchive

end PhysicalAiStudio.Archives
