import PhysicalAiStudio.Streams.MetricsStreams

/-! What the streams of the metrics send.

Where every look of a stream at the file finds the end of a line, or nothing, the three send
the rows of the file as they stand there. The two that follow the file take what there is
of a line for a line, and a number that is not finite is sent under a name that is no JSON.
-/

set_option autoImplicit false

namespace PhysicalAiStudio.Streams

open Strings Collections Concurrency

variable (reader : FloatReader)

namespace MetricsFile

variable (file : MetricsFile)

def names : List Text := file.header.values.map underscored

def payload (row : Csv.Row) : Text := Json.dumps (file.names.zip (row.values.map reader.parseValue))

def payloads : List Text := file.rows.map (file.payload reader)

/-- The rows that are wholly there, the first line being the header. -/
def payloadsThere (bytes : Option Nat) : List Text :=
  (file.payloads reader).take ((file.there bytes).count '\n' - 1)

/-- No name is that of two columns, no line ends inside a row, no value is too long, and every number is finite. -/
structure Regular : Prop where
  apart : file.names.Nodup
  lines : ∀ body ∈ file.bodies, IsBody body
  short : ∀ row ∈ file.header :: file.rows, row.Short
  finite : ∀ row ∈ file.rows, ∀ value ∈ row.values, (reader.parseValue value).Finite

def FindsLine (bytes : Option Nat) (stream : Follower) : Prop := '\n' ∈ (file.there bytes).drop stream.position

def FindsNothing (bytes : Option Nat) (stream : Follower) : Prop :=
  (file.there bytes).drop stream.position = [] ∧ file.torn bytes = false

/-- No look at the file ends inside a line, and the job has ended at a look only when all of the file was read. -/
def Careful (state : State) : Event → Prop
  | .tailRead => file.FindsLine state.bytes state.tail ∨ state.tail.phase ≠ .header ∧ file.FindsNothing state.bytes state.tail
  | .jobRead => state.job.phase = .waiting ∨ file.FindsLine state.bytes state.job ∨ file.FindsNothing state.bytes state.job
  | .jobCheck => state.terminal = true →
      state.job.phase = .waiting ∧ state.bytes.isSome ∧ state.moved ∨ state.job.position = file.text.length
  | .batchPoll answer => answer = .object → file.torn state.published = false
  | _ => True

instance (bytes : Option Nat) (stream : Follower) : Decidable (file.FindsLine bytes stream) :=
  inferInstanceAs (Decidable ('\n' ∈ (file.there bytes).drop stream.position))

instance (bytes : Option Nat) (stream : Follower) : Decidable (file.FindsNothing bytes stream) :=
  inferInstanceAs (Decidable (_ ∧ _))

instance (state : State) : ∀ event, Decidable (file.Careful state event)
  | .tailRead => inferInstanceAs (Decidable (_ ∨ _ ∧ _))
  | .jobRead => inferInstanceAs (Decidable (_ ∨ _ ∨ _))
  | .jobCheck => inferInstanceAs (Decidable (_ → _ ∧ _ ∧ _ ∨ _))
  | .batchPoll _ => inferInstanceAs (Decidable (_ → _))
  | .grow _ => isTrue trivial
  | .move => isTrue trivial
  | .finish => isTrue trivial
  | .publish _ => isTrue trivial

end MetricsFile

structure Promised (file : MetricsFile) (state : State) : Prop where
  tail_rows : payloads state.tail.sent <+: file.payloads reader
  job_rows : payloads state.job.sent <+: file.payloads reader
  batch_rows : payloads state.batch.sent <+: file.payloads reader
  agree : ∀ first ∈ [payloads state.tail.sent, payloads state.job.sent, payloads state.batch.sent],
    ∀ second ∈ [payloads state.tail.sent, payloads state.job.sent, payloads state.batch.sent],
      first <+: second ∨ second <+: first
  json : ∀ payload ∈ payloads state.tail.sent ++ payloads state.job.sent ++ payloads state.batch.sent,
    Json.IsJson payload
  running : state.tail.phase ≠ .raised ∧ state.job.phase ≠ .raised ∧ state.batch.phase ≠ .raised
  tail_all : (file.there state.bytes).drop state.tail.position = [] →
    payloads state.tail.sent = file.payloadsThere reader state.bytes
  job_all : (file.there state.bytes).drop state.job.position = [] →
    payloads state.job.sent = file.payloadsThere reader state.bytes
  job_end : state.job.phase = .returned → payloads state.job.sent = file.payloads reader
  batch_all : state.batch.phase ≠ .returned → file.torn state.published = false →
    file.payloadsThere reader state.published <+:
      payloads (batchPoll reader file state.published .object state.batch).sent

namespace MetricsFile

variable {reader} {file : MetricsFile} (regular : file.Regular reader)

/-! ### One row -/

theorem shown_parseValue (s : Text) : (reader.parseValue s).Shown := by
  intro shown same
  unfold FloatReader.parseValue at same
  split at same
  · cases same
  · next repr read =>
    cases same
    exact reader.numeral s _ read
  · cases same
  · cases same
  · split at same
    · cases same
    · cases same

theorem json_payload_iff {row : Csv.Row} (member : row ∈ file.rows) :
    Json.IsJson (file.payload reader row) ↔ ∀ value ∈ row.values, (reader.parseValue value).Finite := by
  have width : (row.values.map reader.parseValue).length = file.names.length := by
    rw [List.length_map, names, List.length_map, file.complete row member]
  have columns : (file.names.zip (row.values.map reader.parseValue)).map Prod.snd = row.values.map reader.parseValue :=
    List.map_snd_zip (Nat.le_of_eq width)
  rw [payload, Json.isJson_dumps_iff]
  · constructor
    · intro finite value known
      have listed : reader.parseValue value ∈ (file.names.zip (row.values.map reader.parseValue)).map Prod.snd := by
        rw [columns]
        exact List.mem_map_of_mem known
      obtain ⟨pair, there, same⟩ := List.mem_map.mp listed
      exact same ▸ finite pair there
    · intro finite pair there
      obtain ⟨value, known, same⟩ := List.mem_map.mp (List.of_mem_zip there).2
      exact same ▸ finite value known
  · intro pair there
    obtain ⟨value, _, same⟩ := List.mem_map.mp (List.of_mem_zip there).2
    exact same ▸ shown_parseValue value

theorem items_zip {names : List Text} (apart : names.Nodup) {α : Type} {values : List α}
    (complete : values.length = names.length) :
    (Dict.setAll (∅ : Dict Text α) (names.zip values)).items = names.zip values := by
  have keys : (names.zip values).map Prod.fst = names := List.map_fst_zip (Nat.le_of_eq complete.symm)
  rw [Dict.items_setAll]
  · rfl
  · intro item _
    exact AList.notMem_empty item.1
  · rw [keys]
    exact apart

include regular

theorem Regular.header_event (rest : LineEnd) : headersOf (file.header.text ++ rest.text) = some file.names := by
  rw [headersOf, Csv.row_text _ (regular.short _ List.mem_cons_self)]
  rfl

theorem Regular.row_event {row : Csv.Row} (member : row ∈ file.rows) (rest : LineEnd) :
    rowEvent reader file.names (row.text ++ rest.text) = some (.data (file.payload reader row)) := by
  have complete : (row.values.map reader.parseValue).length = file.names.length := by
    rw [List.length_map, names, List.length_map, file.complete row member]
  rw [rowEvent, Csv.row_text _ (regular.short _ (List.mem_cons_of_mem _ member)), Option.map_some,
    items_zip regular.apart complete]
  rfl

theorem Regular.dict_event {row : Csv.Row} (member : row ∈ file.rows) :
    dictEvent reader (file.header.values, row.values) = some (.data (file.payload reader row)) := by
  have complete := file.complete row member
  have raw : file.header.values.Nodup := List.Nodup.of_map _ regular.apart
  have renamed : (file.header.values.zip row.values).map (fun item => (underscored item.1, reader.parseValue item.2)) =
      file.names.zip (row.values.map reader.parseValue) := by
    rw [names, List.zip_map]
    rfl
  have parsed : (row.values.map reader.parseValue).length = file.names.length := by
    rw [List.length_map, names, List.length_map, complete]
  rw [dictEvent, if_pos complete, items_zip raw complete, renamed, items_zip regular.apart parsed]
  rfl

theorem Regular.dict_events (rows : List Csv.Row) (known : ∀ row ∈ rows, row ∈ file.rows) :
    dictEvents reader (rows.map fun row => (file.header.values, row.values)) =
      (rows.map fun row => .data (file.payload reader row), false) := by
  induction rows with
  | nil => rfl
  | cons row rows ih =>
    rw [List.map_cons, dictEvents, regular.dict_event (known row List.mem_cons_self),
      ih fun other member => known other (List.mem_cons_of_mem _ member)]
    rfl

/-! ### The streams that follow the file -/

omit regular in
theorem bodies_length : file.bodies.length = file.rows.length + 1 := by
  rw [bodies, List.length_map, List.length_cons]

omit regular in
theorem there_none : file.there none = [] := by
  unfold there
  cases file.text with
  | nil => rfl
  | cons c rest => rw [shown, if_neg (by have := c.utf8Size_pos; simp; omega)]

/-- How many lines a stream has read, by where it stands. -/
def Placed (file : MetricsFile) (count : Nat) : Phase → Prop
  | .waiting => count = 0
  | .header => count = 0
  | .rows headers => headers = file.names ∧ 0 < count
  | .returned => count = file.bodies.length
  | .raised => False

structure Follows (reader : FloatReader) (file : MetricsFile) (bytes : Option Nat) (stream : Follower) (count : Nat) :
    Prop where
  read : ReadTo file.ending file.bodies (file.there bytes) count stream.position
  placed : file.Placed count stream.phase
  sent : Streams.payloads stream.sent = (file.payloads reader).take (count - 1)

variable {bytes : Option Nat} {stream : Follower} {count : Nat}

omit regular in
theorem payloads_append (sent : List Sent) (event : Sent) :
    Streams.payloads (sent ++ [event]) = Streams.payloads sent ++ event.payload?.toList := by
  rw [Streams.payloads, List.filterMap_append, List.filterMap_cons]
  cases event.payload? <;> rfl

theorem Regular.isLine : ∀ body ∈ file.bodies, IsLine body :=
  fun body member => (regular.lines body member).isLine

theorem Follows.next (follows : file.Follows reader bytes stream count) (line : file.FindsLine bytes stream) :
    ∃ body, file.bodies[count]? = some body ∧
      readline (shown file.text (bytes.getD 0)) stream.position =
        some ⟨body ++ LineEnd.newline.text, (body ++ file.ending.text).length, true⟩ ∧
      ReadTo file.ending file.bodies (file.there bytes) (count + 1)
        (stream.position + (body ++ file.ending.text).length) :=
  ReadTo.next (shown_isPrefix _ _) follows.read regular.isLine line

theorem Follows.readHeader (follows : file.Follows reader bytes stream 0) (line : file.FindsLine bytes stream)
    (events : List Sent) (quiet : events.filterMap Sent.payload? = []) :
    ∃ read, readline (shown file.text (bytes.getD 0)) stream.position = some read ∧ read.line ≠ [] ∧
      file.Follows reader bytes (stream.readHeader read events) 1 := by
  obtain ⟨body, first, found, later⟩ := follows.next regular line
  obtain rfl : file.header.text = body := Option.some.inj first
  refine ⟨_, found, by simp [LineEnd.text], ?_⟩
  rw [Follower.readHeader, regular.header_event .newline]
  refine ⟨later, ⟨rfl, Nat.one_pos⟩, ?_⟩
  have sent := follows.sent
  simp only [Streams.payloads, List.filterMap_append, quiet, List.append_nil]
  exact sent

theorem Follows.readRow (follows : file.Follows reader bytes stream count) (started : 0 < count)
    (line : file.FindsLine bytes stream) :
    ∃ read, readline (shown file.text (bytes.getD 0)) stream.position = some read ∧ read.line ≠ [] ∧
      file.Follows reader bytes (stream.readRow reader file.names read) (count + 1) := by
  obtain ⟨body, here, found, later⟩ := follows.next regular line
  refine ⟨_, found, by simp [LineEnd.text], ?_⟩
  obtain ⟨before, rfl⟩ : ∃ before, count = before + 1 := ⟨count - 1, by omega⟩
  rw [bodies, List.map_cons, List.getElem?_cons_succ, List.getElem?_map, Option.map_eq_some_iff] at here
  obtain ⟨row, listed, rfl⟩ := here
  rw [Follower.readRow, regular.row_event (List.mem_of_getElem? listed) .newline]
  refine ⟨later, ⟨rfl, Nat.succ_pos _⟩, ?_⟩
  have payload : (file.payloads reader)[before]? = some (file.payload reader row) := by
    rw [payloads, List.getElem?_map, listed]
    rfl
  show Streams.payloads (stream.sent ++ [_]) = (file.payloads reader).take (before + 1)
  rw [payloads_append, follows.sent, List.take_add_one, payload]
  rfl

theorem Follows.tail (follows : file.Follows reader bytes stream count)
    (careful : file.FindsLine bytes stream ∨ stream.phase ≠ .header ∧ file.FindsNothing bytes stream) :
    ∃ count, file.Follows reader bytes (tailCsvFile reader file bytes stream) count := by
  unfold tailCsvFile
  cases phase : stream.phase with
  | waiting => exact ⟨count, follows⟩
  | returned => exact ⟨count, follows⟩
  | raised => exact absurd follows.placed (by rw [phase]; exact id)
  | header =>
    obtain line | ⟨other, _⟩ := careful
    · have first : count = 0 := by
        have placed := follows.placed
        rwa [phase] at placed
      subst first
      obtain ⟨read, found, _, later⟩ := follows.readHeader regular line [.issues false] rfl
      cases bytes with
      | none =>
        rw [FindsLine, there_none, List.drop_nil] at line
        cases line
      | some bytes =>
        refine ⟨1, ?_⟩
        rw [Option.getD_some] at found
        simp only [Option.bind_some, found]
        exact later
    · exact absurd phase other
  | rows headers =>
    obtain ⟨rfl, started⟩ : headers = file.names ∧ 0 < count := by
      have placed := follows.placed
      rwa [phase] at placed
    obtain line | ⟨_, nothing⟩ := careful
    · obtain ⟨read, found, more, later⟩ := follows.readRow regular started line
      refine ⟨count + 1, ?_⟩
      simp only [found, if_neg more]
      exact later
    · refine ⟨count, ?_⟩
      simp only [readline_nothing nothing.1 nothing.2, if_true]
      exact follows

theorem Follows.job {moved : Bool} (follows : file.Follows reader bytes stream count)
    (careful : stream.phase = .waiting ∨ file.FindsLine bytes stream ∨ file.FindsNothing bytes stream) :
    ∃ count, file.Follows reader bytes (jobRead reader file bytes moved stream).1 count := by
  unfold jobRead
  cases phase : stream.phase with
  | waiting =>
    by_cases found : (bytes.isSome && !moved) = true
    · simp only [found, if_true]
      refine ⟨count, follows.read, ?_, follows.sent⟩
      have placed := follows.placed
      rwa [phase] at placed
    · simp only [found]
      exact ⟨count, follows⟩
  | returned => exact ⟨count, follows⟩
  | raised => exact absurd follows.placed (by rw [phase]; exact id)
  | header =>
    have first : count = 0 := by
      have placed := follows.placed
      rwa [phase] at placed
    subst first
    -- A careful read finds a whole line or nothing at all; a torn row is what the condition leaves out.
    obtain waits | line | nothing := careful
    · cases phase.symm.trans waits
    · obtain ⟨read, found, more, later⟩ := follows.readHeader regular line [] rfl
      refine ⟨1, ?_⟩
      simp only [found, if_neg more]
      exact later
    · refine ⟨0, ?_⟩
      simp only [readline_nothing nothing.1 nothing.2, if_true]
      exact follows
  | rows headers =>
    obtain ⟨rfl, started⟩ : headers = file.names ∧ 0 < count := by
      have placed := follows.placed
      rwa [phase] at placed
    obtain waits | line | nothing := careful
    · cases phase.symm.trans waits
    · obtain ⟨read, found, more, later⟩ := follows.readRow regular started line
      refine ⟨count + 1, ?_⟩
      simp only [found, if_neg more]
      exact later
    · refine ⟨count, ?_⟩
      simp only [readline_nothing nothing.1 nothing.2, if_true]
      exact follows

theorem Follows.count_end (follows : file.Follows reader bytes stream count) (last : stream.position = file.text.length) :
    count = file.bodies.length := by
  have length := follows.read.place.symm.trans last
  have whole : fileText file.ending (file.bodies.take count) = file.text :=
    (follows.read.there.trans (shown_isPrefix _ _)).eq_of_length length
  have counted := congrArg (List.count '\n') whole
  rw [text, count_fileText regular.isLine,
    count_fileText fun body member => regular.isLine body (List.mem_of_mem_take member), List.length_take] at counted
  have bound := follows.read.bound
  omega

theorem Follows.check {moved terminal : Bool} (follows : file.Follows reader bytes stream count)
    (careful : terminal = true → stream.phase = .waiting ∧ bytes.isSome ∧ moved ∨ stream.position = file.text.length) :
    file.Follows reader bytes (jobCheck bytes moved terminal stream) count := by
  unfold jobCheck
  split
  · next ended =>
    split
    · next waits =>
      refine ⟨follows.read, ?_, follows.sent⟩
      have placed := follows.placed
      rwa [waits.1] at placed
    · next found =>
      obtain waits | last := careful ended
      · exact absurd waits found
      · exact ⟨follows.read, follows.count_end regular last, follows.sent⟩
  · exact follows

omit regular in
theorem Follows.mono {more : Nat} (grows : bytes.getD 0 ≤ more) (follows : file.Follows reader bytes stream count) :
    file.Follows reader (some more) stream count :=
  ⟨follows.read.mono (shown_mono _ grows), follows.placed, follows.sent⟩

theorem Follows.all (follows : file.Follows reader bytes stream count)
    (nothing : (file.there bytes).drop stream.position = []) :
    Streams.payloads stream.sent = file.payloadsThere reader bytes := by
  rw [payloadsThere, follows.read.count_eq regular.isLine nothing, follows.sent]

/-! ### The stream of the snapshots -/

theorem Regular.endedLines (seen : Text) (there : seen <+: file.text) :
    endedLines seen = (file.bodies.take (seen.count '\n')).map fun body => body ++ file.ending.text := by
  obtain ⟨part, kept, unended⟩ := keptLines_shown regular.lines there
  have ends : ∀ lines : List Text, ∀ last ∈ (lines.map fun body => body ++ file.ending.text).getLast?,
      last.getLast? = some '\n' := by
    intro lines last member
    obtain ⟨body, _, rfl⟩ := List.mem_map.mp (List.mem_of_getLast? member)
    cases file.ending <;> simp [LineEnd.text]
  unfold Streams.endedLines
  rw [kept]
  by_cases empty : part = []
  · rw [if_pos empty, List.append_nil]
    cases last : ((file.bodies.take (seen.count '\n')).map fun body => body ++ file.ending.text).getLast? with
    | none => rfl
    | some line => exact if_pos (ends _ line last)
  · rw [if_neg empty, List.getLast?_append, List.getLast?_singleton, Option.some_or, List.dropLast_concat]
    exact if_neg unended

theorem Regular.snapshot (seen : Text) (there : seen <+: file.text) :
    (Csv.reader (Streams.endedLines seen)).map dictReader =
      some ((file.rows.take (seen.count '\n' - 1)).map fun row => (file.header.values, row.values)) := by
  have lines : (file.bodies.take (seen.count '\n')).map (fun body => body ++ file.ending.text) =
      ((file.header :: file.rows).take (seen.count '\n')).map fun row => row.text ++ file.ending.text := by
    rw [bodies, ← List.map_take, List.map_map]
    rfl
  rw [regular.endedLines seen there, lines,
    Csv.records_rows _ (fun row member => regular.short row (List.mem_of_mem_take member)), Option.map_some]
  cases seen.count '\n' with
  | zero => rfl
  | succ count =>
    rw [List.take_succ_cons, List.map_cons, dictReader, Nat.add_sub_cancel, List.filter_eq_self.mpr, List.map_map]
    · rfl
    · intro values member
      obtain ⟨row, listed, rfl⟩ := List.mem_map.mp member
      have width := file.complete row (List.mem_of_mem_take listed)
      have cells : file.header.cells ≠ [] := by
        intro empty
        exact file.header.nonblank (by rw [empty]; rfl)
      simp only [decide_eq_true_eq]
      intro empty
      rw [empty, List.length_nil, Csv.Row.values, List.length_map] at width
      exact cells (List.eq_nil_of_length_eq_zero width.symm)

omit regular in
/-- What a longer beginning has more than a shorter one comes after it. -/
theorem take_append_drop_take {α : Type} (all : List α) (few many : Nat) :
    all.take few ++ (all.take many).drop few = all.take (max few many) := by
  obtain less | more := Nat.le_total few many
  · rw [Nat.max_eq_right less]
    nth_rewrite 2 [← List.take_append_drop few (all.take many)]
    rw [List.take_take, Nat.min_eq_left less]
  · have none : (all.take many).drop few = [] := by
      rw [List.drop_eq_nil_iff, List.length_take]
      omega
    rw [Nat.max_eq_left more, none, List.append_nil]

/-- The rows of the snapshots were sent, and none of them twice. -/
structure Polled (reader : FloatReader) (file : MetricsFile) (stream : BatchStream) : Prop where
  running : stream.phase ≠ .raised
  bound : stream.rowsSent ≤ file.rows.length
  sent : Streams.payloads stream.sent = (file.payloads reader).take stream.rowsSent

omit regular in
theorem payloads_data (rows : List Csv.Row) :
    Streams.payloads (rows.map fun row => .data (file.payload reader row)) = rows.map (file.payload reader) := by
  rw [Streams.payloads, List.filterMap_map]
  have every : Sent.payload? ∘ (fun row => .data (file.payload reader row)) = some ∘ file.payload reader := rfl
  rw [every, List.filterMap_eq_map]

/-- A poll of a snapshot that does not end inside a character sends its rows from the first unsent one on. -/
theorem batchPoll_object {published : Option Nat} {stream : BatchStream} (running : stream.phase ≠ .raised)
    (listening : stream.phase ≠ .returned) (whole : file.torn published = false) :
    batchPoll reader file published .object stream =
      ⟨stream.phase, max stream.rowsSent (file.rows.take ((file.there published).count '\n' - 1)).length, false,
        stream.sent ++ (if stream.needsIssueSnapshot then [.issues false] else []) ++
          ((file.rows.take ((file.there published).count '\n' - 1)).drop stream.rowsSent).map fun row =>
            .data (file.payload reader row)⟩ := by
  obtain ⟨records, read, rows⟩ := Option.map_eq_some_iff.mp (regular.snapshot (file.there published) (shown_isPrefix _ _))
  have events := regular.dict_events ((file.rows.take ((file.there published).count '\n' - 1)).drop stream.rowsSent)
    fun row member => List.mem_of_mem_take (List.mem_of_mem_drop member)
  rw [List.map_drop] at events
  unfold batchPoll
  rw [if_neg (by rw [not_or]; exact ⟨listening, running⟩)]
  simp only [whole, Bool.false_eq_true, if_false, read, rows, events, List.length_map]

omit regular in
theorem payloads_polled {stream : BatchStream} (polled : file.Polled reader stream) (count : Nat) (snapshot : Bool) :
    Streams.payloads (stream.sent ++ (if snapshot then [.issues false] else []) ++
      ((file.rows.take count).drop stream.rowsSent).map fun row => .data (file.payload reader row)) =
        (file.payloads reader).take (max stream.rowsSent count) := by
  have quiet : (if snapshot then [Sent.issues false] else []).filterMap Sent.payload? = [] := by
    cases snapshot <;> rfl
  have data : Streams.payloads (((file.rows.take count).drop stream.rowsSent).map fun row =>
      .data (file.payload reader row)) = ((file.rows.take count).drop stream.rowsSent).map (file.payload reader) :=
    payloads_data _
  have before := polled.sent
  rw [Streams.payloads] at data before
  rw [Streams.payloads, List.filterMap_append, List.filterMap_append, before, data, quiet, List.append_nil,
    List.map_drop, List.map_take, ← payloads, take_append_drop_take]

theorem Polled.object {published : Option Nat} {stream : BatchStream} (polled : file.Polled reader stream)
    (listening : stream.phase ≠ .returned) (whole : file.torn published = false) :
    file.Polled reader (batchPoll reader file published .object stream) ∧
      file.payloadsThere reader published <+:
        Streams.payloads (batchPoll reader file published .object stream).sent := by
  rw [batchPoll_object regular polled.running listening whole]
  refine ⟨⟨polled.running, ?_, ?_⟩, ?_⟩
  · show max stream.rowsSent _ ≤ _
    have bound := polled.bound
    rw [List.length_take]
    omega
  · show Streams.payloads (_ ++ _ ++ _) = (file.payloads reader).take (max _ _)
    rw [payloads_polled polled, List.take_eq_take_iff, List.length_take, payloads, List.length_map]
    omega
  · show file.payloadsThere reader published <+: Streams.payloads (_ ++ _ ++ _)
    rw [payloads_polled polled, payloadsThere]
    exact List.take_prefix_take_left (by omega)

theorem Polled.poll {published : Option Nat} {stream : BatchStream} (polled : file.Polled reader stream)
    {answer : Answer} (whole : answer = .object → file.torn published = false) :
    file.Polled reader (batchPoll reader file published answer stream) := by
  by_cases ended : stream.phase = .returned
  · unfold batchPoll
    rw [if_pos (.inl ended)]
    exact polled
  · cases answer with
    | object => exact (polled.object regular ended (whole rfl)).1
    | authenticationIssue =>
      unfold batchPoll
      rw [if_neg (by rw [not_or]; exact ⟨ended, polled.running⟩)]
      refine ⟨polled.running, polled.bound, ?_⟩
      show Streams.payloads (_ ++ _) = _
      rw [payloads_append, polled.sent]
      simp [Sent.payload?]
    | otherError =>
      unfold batchPoll
      rw [if_neg (by rw [not_or]; exact ⟨ended, polled.running⟩)]
      exact ⟨by simp, polled.bound, polled.sent⟩

/-! ### Runs -/

structure Inv (reader : FloatReader) (file : MetricsFile) (state : State) : Prop where
  tail : ∃ count, file.Follows reader state.bytes state.tail count
  job : ∃ count, file.Follows reader state.bytes state.job count
  batch : file.Polled reader state.batch

omit regular in
theorem inv_start : file.Inv reader start :=
  ⟨⟨0, .start, rfl, rfl⟩, ⟨0, .start, rfl, rfl⟩, ⟨by simp [start], Nat.zero_le _, rfl⟩⟩

theorem Inv.step {state next : State} {event : Event} (inv : file.Inv reader state) (careful : file.Careful state event)
    (stepped : step reader file state event = some next) : file.Inv reader next := by
  obtain ⟨⟨tailCount, tail⟩, ⟨jobCount, job⟩, batch⟩ := inv
  cases event with
  | grow bytes =>
    simp only [Streams.step, Option.ite_none_right_eq_some, Option.some.injEq] at stepped
    obtain ⟨grows, rfl⟩ := stepped
    exact ⟨⟨tailCount, tail.mono grows⟩, ⟨jobCount, job.mono grows⟩, batch⟩
  | move =>
    simp only [Streams.step, Option.ite_none_right_eq_some, Option.some.injEq] at stepped
    obtain ⟨_, rfl⟩ := stepped
    exact ⟨⟨tailCount, tail⟩, ⟨jobCount, job⟩, batch⟩
  | finish =>
    cases stepped
    exact ⟨⟨tailCount, tail⟩, ⟨jobCount, job⟩, batch⟩
  | publish bytes =>
    simp only [Streams.step, Option.ite_none_right_eq_some, Option.some.injEq] at stepped
    obtain ⟨_, rfl⟩ := stepped
    exact ⟨⟨tailCount, tail⟩, ⟨jobCount, job⟩, batch⟩
  | tailRead =>
    cases stepped
    exact ⟨tail.tail regular careful, ⟨jobCount, job⟩, batch⟩
  | jobRead =>
    simp only [Streams.step, Option.ite_none_left_eq_some, Option.some.injEq] at stepped
    obtain ⟨_, rfl⟩ := stepped
    exact ⟨⟨tailCount, tail⟩, job.job regular careful, batch⟩
  | jobCheck =>
    simp only [Streams.step, Option.ite_none_right_eq_some, Option.some.injEq] at stepped
    obtain ⟨_, rfl⟩ := stepped
    exact ⟨⟨tailCount, tail⟩, ⟨jobCount, job.check regular careful⟩, batch⟩
  | batchPoll answer =>
    cases stepped
    exact ⟨⟨tailCount, tail⟩, ⟨jobCount, job⟩, batch.poll regular careful⟩

omit regular in
theorem Follows.running (follows : file.Follows reader bytes stream count) : stream.phase ≠ .raised := by
  intro raised
  have placed := follows.placed
  rw [raised] at placed
  exact placed

theorem Inv.promised {state : State} (inv : file.Inv reader state) : Promised reader file state := by
  obtain ⟨⟨tailCount, tail⟩, ⟨jobCount, job⟩, batch⟩ := inv
  -- Each stream has sent the rows of the file up to its count.
  have rows : ∀ sent ∈ [Streams.payloads state.tail.sent, Streams.payloads state.job.sent,
      Streams.payloads state.batch.sent], sent <+: file.payloads reader := by
    intro sent member
    simp only [List.mem_cons, List.not_mem_nil, or_false] at member
    obtain rfl | rfl | rfl := member
    · exact tail.sent ▸ List.take_prefix _ _
    · exact job.sent ▸ List.take_prefix _ _
    · exact batch.sent ▸ List.take_prefix _ _
  refine
    { tail_rows := rows _ (by simp)
      job_rows := rows _ (by simp)
      batch_rows := rows _ (by simp)
      agree := fun first here second there => List.prefix_or_prefix_of_prefix (rows first here) (rows second there)
      json := ?_
      running := ⟨tail.running, job.running, batch.running⟩
      tail_all := tail.all regular
      job_all := job.all regular
      job_end := ?_
      batch_all := fun listening whole => (batch.object regular listening whole).2 }
  · intro payload member
    have listed : payload ∈ file.payloads reader := by
      simp only [List.mem_append] at member
      obtain (sent | sent) | sent := member
      · exact (rows _ (by simp)).subset sent
      · exact (rows _ (by simp)).subset sent
      · exact (rows _ (by simp)).subset sent
    obtain ⟨row, known, rfl⟩ := List.mem_map.mp listed
    exact (json_payload_iff known).mpr (regular.finite row known)
  · intro ended
    have placed := job.placed
    rw [ended] at placed
    have every : jobCount = file.bodies.length := placed
    rw [job.sent, every, bodies_length, Nat.add_sub_cancel]
    exact List.take_of_length_le (by rw [payloads, List.length_map])

end MetricsFile

/-- In a run whose looks at the file never end inside a line the streams send the rows of the file. -/
theorem metrics_promised {file : MetricsFile} (regular : file.Regular reader) {history : List Event} {state : State}
    (careful : (system reader file).Throughout file.Careful history)
    (reached : (system reader file).reached history = some state) : Promised reader file state :=
  MetricsFile.Inv.promised regular (System.invariant (P := file.Inv reader) MetricsFile.inv_start
    (fun _ _ _ inv here stepped => MetricsFile.Inv.step regular inv here stepped) careful reached)

/-! ### A run that keeps the promise, and one that does not -/

def wholeNumbers : FloatReader where
  float := fun text => if text = ['n', 'a', 'n'] then some .nan else (int text).map .whole
  numeral := by
    intro text repr read
    split at read
    · cases read
    · obtain ⟨value, _, same⟩ := Option.map_eq_some_iff.mp read
      cases same

def cell (value : Text) (plain : ∀ c ∈ value, c ≠ ',' ∧ c ≠ doubleQuote ∧ Csv.isNewline c = false) : Csv.Cell :=
  ⟨value, false, fun _ => plain⟩

def stepTwelve : MetricsFile where
  header := ⟨[cell ['s'] (by decide)], by decide⟩
  rows := [⟨[cell ['1', '2'] (by decide)], by decide⟩]
  ending := .returned
  complete := by decide

def lossNan : MetricsFile where
  header := ⟨[cell ['l'] (by decide)], by decide⟩
  rows := [⟨[cell ['n', 'a', 'n'] (by decide)], by decide⟩]
  ending := .newline
  complete := by decide

theorem stepTwelve_regular : stepTwelve.Regular wholeNumbers where
  apart := by decide
  lines := by decide
  short := by
    intro row member cell known
    simp only [stepTwelve, List.mem_cons, List.not_mem_nil, or_false] at member
    obtain rfl | rfl := member <;>
      · rw [List.mem_singleton.mp known]
        decide
  finite := by
    intro row member value known
    rw [List.mem_singleton.mp member] at known
    rw [List.mem_singleton.mp known]
    trivial

/-- Every look finds whole lines, and the job ends when its stream has read all of them. -/
def wholeLooks : List Event :=
  [.jobCheck, .jobRead, .finish, .batchPoll .object, .publish 7, .tailRead, .jobRead, .tailRead, .grow 7, .tailRead,
    .jobRead, .jobRead, .grow 3]

theorem wholeLooks_led : ((system wholeNumbers stepTwelve).reached wholeLooks).isSome = true := by decide

theorem wholeLooks_promised : ∃ state, (system wholeNumbers stepTwelve).reached wholeLooks = some state ∧
    Promised wholeNumbers stepTwelve state ∧ state.job.phase = .returned ∧
    payloads state.job.sent = payloads state.tail.sent ∧ payloads state.batch.sent = payloads state.tail.sent := by
  refine ⟨_, (Option.some_get wholeLooks_led).symm, metrics_promised wholeNumbers stepTwelve_regular (by decide)
    (Option.some_get wholeLooks_led).symm, ?_, ?_, ?_⟩
  · decide
  · decide
  · decide

def partialLook : List Event := [.tailRead, .tailRead, .grow 4]

def lossLook : List Event := [.tailRead, .tailRead, .grow 6]

theorem partialLook_led : ((system wholeNumbers stepTwelve).reached partialLook).isSome = true := by decide

theorem lossLook_led : ((system wholeNumbers lossNan).reached lossLook).isSome = true := by decide

/-- What is there of a row is sent for the row, and a loss that is no number is sent as no JSON. -/
theorem partialLook_sent :
    (∃ state, (system wholeNumbers stepTwelve).reached partialLook = some state ∧
      ¬Promised wholeNumbers stepTwelve state) ∧
    ∃ state, (system wholeNumbers lossNan).reached lossLook = some state ∧
      payloads state.tail.sent = lossNan.payloads wholeNumbers ∧ ¬Promised wholeNumbers lossNan state := by
  refine ⟨⟨_, (Option.some_get partialLook_led).symm, fun promised => ?_⟩, _, (Option.some_get lossLook_led).symm, ?_,
    fun promised => ?_⟩
  · have rows := promised.tail_rows
    revert rows
    decide
  · decide
  · obtain ⟨row, known⟩ : ∃ row, row ∈ lossNan.rows := ⟨_, List.mem_singleton.mpr rfl⟩
    have sent : lossNan.payload wholeNumbers row ∈
        payloads (((system wholeNumbers lossNan).reached lossLook).get lossLook_led).tail.sent := by
      rw [List.mem_singleton.mp known]
      decide
    have json := promised.json _ (List.mem_append_left _ (List.mem_append_left _ sent))
    rw [MetricsFile.json_payload_iff known, List.mem_singleton.mp known] at json
    exact json ['n', 'a', 'n'] (by decide)

end PhysicalAiStudio.Streams
