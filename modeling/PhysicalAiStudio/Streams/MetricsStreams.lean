import PhysicalAiStudio.Collections.Dict
import PhysicalAiStudio.Concurrency.Transition
import PhysicalAiStudio.Strings.Csv
import PhysicalAiStudio.Strings.Json

/-! The three streams of a training run's metrics.

`tail_csv_file` follows a file of the host, `job_metrics` follows one of the trainer until
the job has ended, and `tail_batch_csv_file` looks at snapshots of the file that the job
publishes. The file grows by whole rows, of which any number of bytes may be there when a
stream looks. What `float` reads is a parameter.
-/

set_option autoImplicit false

namespace PhysicalAiStudio.Streams

open Strings Collections Concurrency

/-- A float: a whole number, one with a fraction by its `repr`, or one that is not finite. -/
inductive PyFloat where
  | whole (value : Int)
  | fraction (repr : Text)
  | infinite (negative : Bool)
  | nan
deriving DecidableEq

/-- `float` of a text, which raises `ValueError` where it is `none`. -/
structure FloatReader where
  float : Text → Option PyFloat
  numeral : ∀ text repr, float text = some (.fraction repr) → Json.IsNumber repr

variable (reader : FloatReader)

def FloatReader.parseValue (s : Text) : Json.Value :=
  match reader.float s with
  | some (.whole value) => .number (.int value)
  | some (.fraction repr) => .number (.float repr)
  | some (.infinite negative) => .number (.infinite negative)
  | some .nan => .number .nan
  | none => if s = [] then .null else .text s

def underscored (header : Text) : Text := header.map fun c => if c = '/' then '_' else c

/-! ### The file -/

structure MetricsFile where
  header : Csv.Row
  rows : List Csv.Row
  ending : LineEnd
  complete : ∀ row ∈ rows, row.values.length = header.values.length

namespace MetricsFile

variable (file : MetricsFile)

def bodies : List Text := (file.header :: file.rows).map Csv.Row.text

def text : Text := fileText file.ending file.bodies

def there (bytes : Option Nat) : Text := (shown file.text (bytes.getD 0)).1

def torn (bytes : Option Nat) : Bool := (shown file.text (bytes.getD 0)).2

end MetricsFile

/-! ### The two streams that follow the file -/

inductive Sent where
  | issues (standing : Bool)
  | data (payload : Text)
deriving DecidableEq

def Sent.payload? : Sent → Option Text
  | issues _ => none
  | data payload => some payload

inductive Phase where
  | waiting
  | header
  | rows (headers : List Text)
  | returned
  | raised
deriving DecidableEq

/-- A stream that follows the file, and how many characters of it it has read. -/
structure Follower where
  phase : Phase
  position : Nat
  sent : List Sent

def payloads (sent : List Sent) : List Text := sent.filterMap Sent.payload?

/-- The headers that a line gives; `none` where the reader of the line raises. -/
def headersOf (line : Text) : Option (List Text) := (Csv.row line).map (List.map underscored)

def rowEvent (headers : List Text) (line : Text) : Option Sent :=
  (Csv.row line).map fun row => .data (Json.dumps (Dict.setAll ∅ (headers.zip (row.map reader.parseValue))).items)

namespace Follower

def raise (stream : Follower) : Follower := ⟨.raised, stream.position, stream.sent⟩

def readHeader (stream : Follower) (read : LineRead) (events : List Sent) : Follower :=
  match headersOf read.line with
  | none => stream.raise
  | some headers => ⟨.rows headers, stream.position + read.taken, stream.sent ++ events⟩

def readRow (stream : Follower) (headers : List Text) (read : LineRead) : Follower :=
  match rowEvent reader headers read.line with
  | none => stream.raise
  | some event => ⟨.rows headers, stream.position + read.taken, stream.sent ++ [event]⟩

end Follower

def tailCsvFile (file : MetricsFile) (bytes : Option Nat) (stream : Follower) : Follower :=
  match stream.phase with
  | .header =>
    match bytes.bind fun bytes => readline (shown file.text bytes) stream.position with
    | none => stream.raise
    | some read => stream.readHeader read [.issues false]
  | .rows headers =>
    match readline (shown file.text (bytes.getD 0)) stream.position with
    | none => stream.raise
    | some read => if read.line = [] then stream else stream.readRow reader headers read
  | _ => stream

/-- `job_metrics` up to its next `readline`, or the look for the file; the second is that nothing was found. -/
def jobRead (file : MetricsFile) (bytes : Option Nat) (moved : Bool) (stream : Follower) : Follower × Bool :=
  match stream.phase with
  -- The wait opens the file by its path, and from then on the handle follows it through the move.
  | .waiting => if bytes.isSome && !moved then (⟨.header, stream.position, stream.sent⟩, false) else (stream, true)
  | .header =>
    match readline (shown file.text (bytes.getD 0)) stream.position with
    | none => (stream.raise, false)
    | some read => if read.line = [] then (stream, true) else (stream.readHeader read [], false)
  | .rows headers =>
    match readline (shown file.text (bytes.getD 0)) stream.position with
    | none => (stream.raise, false)
    | some read => if read.line = [] then (stream, true) else (stream.readRow reader headers read, false)
  | _ => (stream, false)

/-- `job_metrics` after it found nothing: the look at the state of the job. -/
def jobCheck (bytes : Option Nat) (moved terminal : Bool) (stream : Follower) : Follower :=
  if terminal then
    -- A completed run has moved the file to its model.
    if stream.phase = .waiting ∧ bytes.isSome ∧ moved then ⟨.header, stream.position, stream.sent⟩
    else ⟨.returned, stream.position, stream.sent⟩
  else stream

/-! ### The stream of the snapshots -/

structure BatchStream where
  phase : Phase
  rowsSent : Nat
  needsIssueSnapshot : Bool
  sent : List Sent

/-- The lines of a snapshot without a last one that is not ended. -/
def endedLines (contents : Text) : List Text :=
  match (keptLines contents).getLast? with
  | none => keptLines contents
  | some last => if last.getLast? = some '\n' then keptLines contents else (keptLines contents).dropLast

/-- `csv.DictReader`: the names are those of the first record, and blank records are none. -/
def dictReader : List (List Text) → List (List Text × List Text)
  | [] => []
  | fieldnames :: records => (records.filter (· ≠ [])).map fun row => (fieldnames, row)

def dictEvent (row : List Text × List Text) : Option Sent :=
  -- A value that is missing is `None`, which `float` refuses; one too many is under a key that has no `replace`.
  if row.2.length = row.1.length then
    some (.data (Json.dumps (Dict.setAll ∅ ((Dict.setAll ∅ (row.1.zip row.2)).items.map fun item =>
      (underscored item.1, reader.parseValue item.2))).items))
  else none

def dictEvents : List (List Text × List Text) → List Sent × Bool
  | [] => ([], false)
  | row :: rows =>
    match dictEvent reader row with
    | none => ([], true)
    | some event => (event :: (dictEvents rows).1, (dictEvents rows).2)

inductive Answer where
  | object
  | authenticationIssue
  | otherError
deriving DecidableEq

def batchPoll (file : MetricsFile) (published : Option Nat) (answer : Answer) (stream : BatchStream) : BatchStream :=
  if stream.phase = .returned ∨ stream.phase = .raised then stream
  else match answer with
  | .authenticationIssue => ⟨stream.phase, stream.rowsSent, true, stream.sent ++ [.issues true]⟩
  | .otherError => ⟨.returned, stream.rowsSent, stream.needsIssueSnapshot, stream.sent⟩
  | .object =>
    -- Without an object there are no contents.
    if file.torn published then ⟨.raised, stream.rowsSent, stream.needsIssueSnapshot, stream.sent⟩
    else match Csv.reader (endedLines (file.there published)) with
    | none => ⟨.raised, stream.rowsSent, stream.needsIssueSnapshot, stream.sent⟩
    | some records =>
      let rows := dictReader records
      let events := dictEvents reader (rows.drop stream.rowsSent)
      ⟨if events.2 then .raised else stream.phase, if events.2 then stream.rowsSent else max stream.rowsSent rows.length,
        false, stream.sent ++ (if stream.needsIssueSnapshot then [.issues false] else []) ++ events.1⟩

/-! ### The file, the job and the three streams -/

structure State where
  bytes : Option Nat
  moved : Bool
  terminal : Bool
  published : Option Nat
  tail : Follower
  job : Follower
  jobEmpty : Bool
  batch : BatchStream

inductive Event where
  | grow (bytes : Nat)
  | move
  | finish
  | publish (bytes : Nat)
  | tailRead
  | jobRead
  | jobCheck
  | batchPoll (answer : Answer)
deriving DecidableEq

def start : State :=
  ⟨none, false, false, none, ⟨.header, 0, []⟩, ⟨.waiting, 0, []⟩, false, ⟨.header, 0, true, []⟩⟩

def step (file : MetricsFile) (state : State) : Event → Option State
  | .grow bytes => if state.bytes.getD 0 ≤ bytes then some { state with bytes := some bytes } else none
  | .move => if state.bytes.isSome then some { state with moved := true } else none
  | .finish => some { state with terminal := true }
  | .publish bytes =>
    if state.bytes.isSome ∧ bytes ≤ state.bytes.getD 0 then some { state with published := some bytes } else none
  | .tailRead => some { state with tail := tailCsvFile reader file state.bytes state.tail }
  | .jobRead =>
    if state.jobEmpty then none
    else some { state with
      job := (jobRead reader file state.bytes state.moved state.job).1
      jobEmpty := (jobRead reader file state.bytes state.moved state.job).2 }
  | .jobCheck =>
    if state.jobEmpty then
      some { state with job := jobCheck state.bytes state.moved state.terminal state.job, jobEmpty := false }
    else none
  | .batchPoll answer => some { state with batch := batchPoll reader file state.published answer state.batch }

/-- Every interleaving of the file's growth, the job's end and the polls of the streams is a run. -/
def system (file : MetricsFile) : System State Event := ⟨start, step reader file⟩

end PhysicalAiStudio.Streams
