import Mathlib.Data.Char
import Mathlib.Data.List.Lex
import Mathlib.Data.List.Sort
import PhysicalAiStudio.Concurrency.Transition
import PhysicalAiStudio.Strings.Growing
import PhysicalAiStudio.Strings.Json

/-! The stream of a job's log, while the job's sink writes and rotates the log.

The sink writes each record as a JSON object on a line of its own (`serialize=True`). To
rotate, it closes the active file, renames it to a name with a timestamp, and creates a
new active file. An open file stays the same file under its new name, so a file is known
here by how many were rotated before it. `tail_log_file` lists the rotated files once.
-/

set_option autoImplicit false

namespace PhysicalAiStudio.Streams

open Strings Concurrency

structure LogRecord where
  text : Text
  line : IsLine text
  object : text.getLast? = some Json.closeBrace

structure RotatedFile where
  name : Text
  records : List LogRecord

structure ActiveFile where
  records : List LogRecord
  bytes : Nat

inductive LogPhase where
  | list
  | rotated (remaining : List Text)
  | reading (file position : Nat) (remaining : List Text)
  | following (file position : Nat)
  | raised
deriving DecidableEq

structure LogState where
  rotated : List RotatedFile
  active : Option ActiveFile
  phase : LogPhase
  paths : List Text
  sent : List Text

variable (ending : LineEnd)

def fileOf (records : List LogRecord) : Text := fileText ending (records.map LogRecord.text)

namespace LogState

def activeThere (state : LogState) : Text × Bool :=
  match state.active with
  | some active => shown (fileOf ending active.records) active.bytes
  | none => ([], false)

def there (state : LogState) (file : Nat) : Text × Bool :=
  match state.rotated[file]? with
  | some closed => (fileOf ending closed.records, false)
  | none => state.activeThere ending

def rstrip (line : Text) : Text := line.rdropWhile isSpace

/-- `_get_all_job_log_paths` without the active file. -/
def rotatedPaths (state : LogState) : List Text :=
  (state.rotated.map RotatedFile.name).insertionSort (· ≤ ·)

def tailLogFile (state : LogState) : LogState :=
  match state.phase with
  | .list => { state with phase := .rotated state.rotatedPaths, paths := state.rotatedPaths }
  -- The files were listed once; one that is gone since is passed over.
  | .rotated (path :: remaining) =>
    match state.rotated.findIdx? fun closed => closed.name = path with
    | none => { state with phase := .rotated remaining }
    | some file => { state with phase := .reading file 0 remaining }
  | .rotated [] =>
    if state.active.isSome then { state with phase := .following state.rotated.length 0 }
    else { state with phase := .raised }
  | .reading file position remaining =>
    match readline (state.there ending file) position with
    | none => { state with phase := .raised }
    | some read =>
      if read.line = [] then { state with phase := .rotated remaining }
      else { state with phase := .reading file (position + read.taken) remaining, sent := state.sent ++ [rstrip read.line] }
  -- The handle follows its file through a rotation.
  | .following file position =>
    match readline (state.there ending file) position with
    | none => { state with phase := .raised }
    | some read =>
      if read.line = [] then state
      else { state with phase := .following file (position + read.taken), sent := state.sent ++ [rstrip read.line] }
  | .raised => state

end LogState

inductive LogEvent where
  | create
  | write (record : LogRecord)
  | flush (bytes : Nat)
  | rotate (name : Text)
  | advance

def logStep (state : LogState) : LogEvent → Option LogState
  | .create =>
    match state.active with
    | none => some { state with active := some ⟨[], 0⟩ }
    | some _ => none
  | .write record => state.active.map fun file => { state with active := some ⟨file.records ++ [record], file.bytes⟩ }
  | .flush bytes => state.active.bind fun file =>
    if file.bytes ≤ bytes then some { state with active := some ⟨file.records, bytes⟩ } else none
  | .rotate name => state.active.bind fun file =>
    -- The sink takes a name that no file has.
    if name ∈ state.rotated.map RotatedFile.name then none
    else some { state with rotated := state.rotated ++ [⟨name, file.records⟩], active := none }
  | .advance => some (state.tailLogFile ending)

/-- Every interleaving of the sink's writes and rotations with the stream is a run. -/
def logSystem : System LogState LogEvent := ⟨⟨[], none, .list, [], []⟩, logStep ending⟩

end PhysicalAiStudio.Streams
