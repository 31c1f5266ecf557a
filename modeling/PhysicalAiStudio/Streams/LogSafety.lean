import PhysicalAiStudio.Streams.LogStream

/-! What the stream of a log sends.

A stream that opens the active file before anything is written to a file it did not list,
and finds whole lines, sends the log. One rotation more and it stays with a file that is
no longer written, or never sees the file that was rotated.
-/

set_option autoImplicit false

namespace PhysicalAiStudio.Streams

open Strings Concurrency

variable {ending : LineEnd}

namespace LogState

def texts (records : List LogRecord) : List Text := records.map LogRecord.text

def activeRecords (state : LogState) : List LogRecord := (state.active.map ActiveFile.records).getD []

def recordsAt (state : LogState) (file : Nat) : List LogRecord :=
  (state.rotated[file]?.map RotatedFile.records).getD state.activeRecords

def before (state : LogState) (file : Nat) : List Text :=
  (state.rotated.take file).flatMap fun closed => texts closed.records

/-- Every line that was written, in the order of the writes. -/
def log (state : LogState) : List Text := state.before state.rotated.length ++ texts state.activeRecords

variable (ending) in
def logThere (state : LogState) : List Text :=
  state.before state.rotated.length ++
    (texts state.activeRecords).take ((state.there ending state.rotated.length).1.count '\n')

def Listed (state : LogState) (closed : RotatedFile) : Prop := closed.name ∈ state.paths

def followed (state : LogState) : Option Nat :=
  match state.phase with
  | .following file _ => some file
  | _ => none

variable (ending) in
/-- The stream opens an active file, all files before it that the stream has not listed are empty, and no look at the
active file ends inside a line. -/
def MayAdvance (state : LogState) : LogPhase → Prop
  | .rotated [] => state.active.isSome ∧ ∀ closed ∈ state.rotated, ¬state.Listed closed → closed.records = []
  | .following file position => '\n' ∈ (state.there ending file).1.drop position ∨
      (state.there ending file).1.drop position = [] ∧ (state.there ending file).2 = false
  | _ => True

variable (ending) in
/-- As long as the stream is to list the files, each is rotated to a later name than those before; and no line is
written to another file than the one that the stream follows. -/
def Careful (state : LogState) : LogEvent → Prop
  | .write _ => ∀ file ∈ state.followed, file = state.rotated.length
  | .rotate name => state.phase = .list → ∀ closed ∈ state.rotated, closed.name ≤ name
  | .advance => state.MayAdvance ending state.phase
  | _ => True

instance (state : LogState) (closed : RotatedFile) : Decidable (state.Listed closed) :=
  inferInstanceAs (Decidable (_ ∈ state.paths))

instance (state : LogState) : ∀ phase, Decidable (state.MayAdvance ending phase)
  | .rotated [] => inferInstanceAs (Decidable (_ ∧ ∀ closed ∈ state.rotated, ¬state.Listed closed → _))
  | .following _ _ => inferInstanceAs (Decidable (_ ∨ _ ∧ _))
  | .rotated (_ :: _) => isTrue trivial
  | .list => isTrue trivial
  | .reading .. => isTrue trivial
  | .raised => isTrue trivial

instance (state : LogState) : ∀ event, Decidable (state.Careful ending event)
  | .write _ => inferInstanceAs (Decidable (∀ file ∈ state.followed, _))
  | .rotate _ => inferInstanceAs (Decidable (_ → ∀ closed ∈ state.rotated, _))
  | .advance => inferInstanceAs (Decidable (state.MayAdvance ending state.phase))
  | .create => isTrue trivial
  | .flush _ => isTrue trivial

end LogState

variable (ending) in
structure LogPromised (state : LogState) : Prop where
  rows : state.sent <+: state.log
  running : state.phase ≠ .raised
  all : ∀ file position, state.phase = .following file position →
    (state.there ending file).1.drop position = [] → state.sent = state.logThere ending

namespace LogState

variable {state : LogState} {file position : Nat} {sent : List Text}

theorem texts_append (first second : List LogRecord) : texts (first ++ second) = texts first ++ texts second :=
  List.map_append

theorem isLine_texts (records : List LogRecord) : ∀ body ∈ texts records, IsLine body := by
  intro body member
  obtain ⟨record, _, rfl⟩ := List.mem_map.mp member
  exact record.line

theorem rstrip_line (record : LogRecord) : rstrip (record.text ++ ['\n']) = record.text := by
  have newline : isSpace '\n' = true := rfl
  have brace : isSpace Json.closeBrace = false := rfl
  rw [rstrip, List.rdropWhile_concat_pos _ _ _ newline, List.rdropWhile_eq_self_iff]
  intro nonempty
  have last : record.text.getLast nonempty = Json.closeBrace :=
    Option.some.inj ((List.getLast?_eq_some_getLast nonempty).symm.trans record.object)
  rw [last, brace]
  exact Bool.false_ne_true

theorem there_rotated {closed : RotatedFile} (known : state.rotated[file]? = some closed) :
    state.there ending file = (fileOf ending closed.records, false) := by
  rw [there, known]

theorem recordsAt_rotated {closed : RotatedFile} (known : state.rotated[file]? = some closed) :
    state.recordsAt file = closed.records := by
  rw [recordsAt, known]
  rfl

theorem recordsAt_active (last : state.rotated.length ≤ file) : state.recordsAt file = state.activeRecords := by
  rw [recordsAt, List.getElem?_eq_none last]
  rfl

theorem there_active (last : state.rotated.length ≤ file) :
    state.there ending file = state.activeThere ending := by
  rw [there, List.getElem?_eq_none last]

theorem there_isPrefix (state : LogState) (file : Nat) :
    (state.there ending file).1 <+: fileText ending (texts (state.recordsAt file)) := by
  cases known : state.rotated[file]? with
  | some closed =>
    rw [there_rotated known, recordsAt_rotated known]
    exact List.prefix_rfl
  | none =>
    have last := List.getElem?_eq_none_iff.mp known
    rw [there_active last, recordsAt_active last, activeRecords, activeThere]
    cases state.active with
    | none => exact List.nil_prefix
    | some active => exact shown_isPrefix _ _

theorem before_succ {closed : RotatedFile} (known : state.rotated[file]? = some closed) :
    state.before (file + 1) = state.before file ++ texts (state.recordsAt file) := by
  rw [before, List.take_add_one, known, List.flatMap_append, recordsAt_rotated known, before]
  simp

theorem before_isPrefix (bound : file ≤ state.rotated.length) :
    state.before file ++ texts (state.recordsAt file) <+: state.log := by
  cases known : state.rotated[file]? with
  | some closed =>
    rw [← before_succ known, log]
    refine List.IsPrefix.trans ?_ (List.prefix_append _ _)
    have halves : state.before state.rotated.length =
        state.before (file + 1) ++ (state.rotated.drop (file + 1)).flatMap fun closed => texts closed.records := by
      rw [before, before, List.take_length, ← List.flatMap_append, List.take_append_drop]
    rw [halves]
    exact List.prefix_append _ _
  | none =>
    have last := List.getElem?_eq_none_iff.mp known
    have same : file = state.rotated.length := Nat.le_antisymm bound last
    rw [recordsAt_active last, same]
    exact List.prefix_rfl

/-! ### What the sink does -/

/-- Files only grow, and are kept under other names. -/
structure Extends (ending : LineEnd) (old new : LogState) : Prop where
  rotated : old.rotated <+: new.rotated
  records : ∀ file ≤ old.rotated.length, ∃ more, new.recordsAt file = old.recordsAt file ++ more
  there : ∀ file ≤ old.rotated.length, (old.there ending file).1 <+: (new.there ending file).1

def ReadAt (ending : LineEnd) (state : LogState) (file position : Nat) (sent : List Text) : Prop :=
  ∃ count, ReadTo ending (texts (state.recordsAt file)) (state.there ending file).1 count position ∧
    sent = state.before file ++ (texts (state.recordsAt file)).take count

theorem Extends.before_eq {old new : LogState} (grows : Extends ending old new)
    (bound : file ≤ old.rotated.length) : new.before file = old.before file := by
  obtain ⟨more, same⟩ := grows.rotated
  rw [before, ← same, List.take_append_of_le_length bound, before]

theorem ReadAt.mono {old new : LogState} (grows : Extends ending old new)
    (bound : file ≤ old.rotated.length) (read : ReadAt ending old file position sent) :
    ReadAt ending new file position sent := by
  obtain ⟨count, place, same⟩ := read
  obtain ⟨more, records⟩ := grows.records file bound
  refine ⟨count, ?_, ?_⟩
  · rw [records, texts_append]
    exact place.append (grows.there file bound) _
  · rw [grows.before_eq bound, records, texts_append, List.take_append_of_le_length place.bound]
    exact same

/-- Each step of the sink leaves the stream where it is and lets the files grow. -/
theorem Extends.of_active {new : LogState} (same : new.rotated = state.rotated)
    (records : ∃ more, new.activeRecords = state.activeRecords ++ more)
    (there : (state.activeThere ending).1 <+: (new.activeThere ending).1) : Extends ending state new := by
  refine ⟨same ▸ List.prefix_rfl, fun file _ => ?_, fun file _ => ?_⟩
  · unfold recordsAt
    rw [same]
    cases state.rotated[file]? with
    | some closed => exact ⟨[], (List.append_nil _).symm⟩
    | none => exact records
  · unfold LogState.there
    rw [same]
    cases state.rotated[file]? with
    | some closed => exact List.prefix_rfl
    | none => exact there

theorem Extends.of_rotate {new : LogState} {active : ActiveFile} {name : Text} (held : state.active = some active)
    (rotated : new.rotated = state.rotated ++ [⟨name, active.records⟩]) : Extends ending state new := by
  have here : new.rotated[state.rotated.length]? = some ⟨name, active.records⟩ := by
    rw [rotated]
    simp
  have earlier : ∀ file < state.rotated.length, new.rotated[file]? = state.rotated[file]? := by
    intro file bound
    rw [rotated, List.getElem?_append_left bound]
  refine ⟨rotated ▸ List.prefix_append _ _, fun file bound => ⟨[], ?_⟩, fun file bound => ?_⟩
  · obtain older | same := Nat.lt_or_eq_of_le bound
    · unfold recordsAt
      rw [earlier file older, List.getElem?_eq_getElem older, List.append_nil]
      rfl
    · rw [same, recordsAt_rotated here, recordsAt_active (Nat.le_refl _), activeRecords, held, List.append_nil]
      rfl
  · obtain older | same := Nat.lt_or_eq_of_le bound
    · unfold LogState.there
      rw [earlier file older, List.getElem?_eq_getElem older]
    · rw [same, there_rotated here, there_active (Nat.le_refl _), activeThere, held]
      exact shown_isPrefix _ _

/-! ### What the stream does -/

/-- Nothing was written to a later file. -/
structure Alone (state : LogState) (file : Nat) : Prop where
  rotated : ∀ closed ∈ state.rotated.drop (file + 1), closed.records = []
  active : file < state.rotated.length → state.activeRecords = []

def Reads (ending : LineEnd) (state : LogState) : LogPhase → Prop
  | .list => state.sent = [] ∧ (state.rotated.map RotatedFile.name).Pairwise (· ≤ ·)
  | .rotated remaining => ∃ file ≤ state.paths.length, state.paths <+: state.rotated.map RotatedFile.name ∧
      remaining = state.paths.drop file ∧ state.sent = state.before file
  | .reading file position remaining => file < state.paths.length ∧
      state.paths <+: state.rotated.map RotatedFile.name ∧ remaining = state.paths.drop (file + 1) ∧
      ReadAt ending state file position state.sent
  | .following file position => file ≤ state.rotated.length ∧ Alone state file ∧
      ReadAt ending state file position state.sent
  | .raised => False

structure Inv (ending : LineEnd) (state : LogState) : Prop where
  names : (state.rotated.map RotatedFile.name).Nodup
  reads : state.Reads ending state.phase

theorem ReadAt.start : ReadAt ending state file 0 (state.before file) :=
  ⟨0, .start, by rw [List.take_zero, List.append_nil]⟩

theorem ReadAt.next (read : ReadAt ending state file position sent)
    (newline : '\n' ∈ (state.there ending file).1.drop position) :
    ∃ found, readline (state.there ending file) position = some found ∧ found.line ≠ [] ∧
      ReadAt ending state file (position + found.taken) (sent ++ [rstrip found.line]) := by
  obtain ⟨count, place, same⟩ := read
  obtain ⟨body, here, found, later⟩ := place.next (there_isPrefix state file) (isLine_texts _) newline
  refine ⟨_, found, by simp, count + 1, later, ?_⟩
  rw [texts, List.getElem?_map, Option.map_eq_some_iff] at here
  obtain ⟨record, listed, rfl⟩ := here
  have last : (texts (state.recordsAt file))[count]? = some record.text := by
    rw [texts, List.getElem?_map, listed]
    rfl
  rw [rstrip_line, same, List.take_add_one, last, List.append_assoc]
  rfl

theorem ReadAt.all (read : ReadAt ending state file position sent)
    (nothing : (state.there ending file).1.drop position = []) :
    sent = state.before file ++ (texts (state.recordsAt file)).take ((state.there ending file).1.count '\n') := by
  obtain ⟨count, place, same⟩ := read
  rw [place.count_eq (isLine_texts _) nothing]
  exact same

theorem ReadAt.closed {closed : RotatedFile} (known : state.rotated[file]? = some closed)
    (read : ReadAt ending state file position sent) (nothing : (state.there ending file).1.drop position = []) :
    sent = state.before (file + 1) := by
  have every := read.all nothing
  have counted : (fileOf ending closed.records).count '\n' = (texts closed.records).length :=
    count_fileText (isLine_texts _)
  rw [there_rotated known, recordsAt_rotated known] at every
  rw [counted, List.take_length] at every
  rw [before_succ known, recordsAt_rotated known]
  exact every

/-- A step of the sink, which does not touch the stream. -/
theorem Inv.sink {new : LogState} (inv : Inv ending state) (grows : Extends ending state new)
    (phase : new.phase = state.phase) (paths : new.paths = state.paths) (sent : new.sent = state.sent)
    (names : (new.rotated.map RotatedFile.name).Nodup)
    (sorted : state.phase = .list → (state.rotated.map RotatedFile.name).Pairwise (· ≤ ·) →
      (new.rotated.map RotatedFile.name).Pairwise (· ≤ ·))
    (alone : ∀ file position, state.phase = .following file position → file ≤ state.rotated.length →
      Alone state file → Alone new file) : Inv ending new := by
  refine ⟨names, ?_⟩
  have reads := inv.reads
  have kept : state.rotated.map RotatedFile.name <+: new.rotated.map RotatedFile.name := grows.rotated.map _
  rw [phase]
  cases here : state.phase with
  | list =>
    rw [here] at reads
    exact ⟨sent ▸ reads.1, sorted here reads.2⟩
  | rotated remaining =>
    rw [here] at reads
    obtain ⟨file, bound, listed, rest, same⟩ := reads
    have inside : file ≤ state.rotated.length := by
      have length := listed.length_le
      rw [List.length_map] at length
      omega
    refine ⟨file, paths ▸ bound, paths ▸ listed.trans kept, paths ▸ rest, ?_⟩
    rw [sent, grows.before_eq inside]
    exact same
  | reading file position remaining =>
    rw [here] at reads
    obtain ⟨bound, listed, rest, read⟩ := reads
    have inside : file ≤ state.rotated.length := by
      have length := listed.length_le
      rw [List.length_map] at length
      omega
    exact ⟨paths ▸ bound, paths ▸ listed.trans kept, paths ▸ rest, sent ▸ read.mono grows inside⟩
  | following file position =>
    rw [here] at reads
    obtain ⟨bound, later, read⟩ := reads
    exact ⟨bound.trans grows.rotated.length_le, alone file position here bound later, sent ▸ read.mono grows bound⟩
  | raised =>
    rw [here] at reads
    exact reads.elim

theorem Alone.of_active {new : LogState} {file : Nat} (alone : Alone state file) (same : new.rotated = state.rotated)
    (records : file < state.rotated.length → new.activeRecords = state.activeRecords) : Alone new file := by
  refine ⟨same ▸ alone.rotated, fun earlier => ?_⟩
  rw [same] at earlier
  rw [records earlier]
  exact alone.active earlier

theorem Inv.create (inv : Inv ending state) (none : state.active = none) :
    Inv ending { state with active := some ⟨[], 0⟩ } := by
  have grows : Extends ending state { state with active := some ⟨[], 0⟩ } := by
    refine .of_active rfl ⟨[], ?_⟩ ?_
    · simp [activeRecords, none]
    · rw [activeThere, none]
      exact List.nil_prefix
  refine inv.sink grows rfl rfl rfl inv.names (fun _ sorted => sorted) fun file position _ _ alone => ?_
  refine alone.of_active rfl fun _ => ?_
  simp [activeRecords, none]

theorem Inv.write {active : ActiveFile} (inv : Inv ending state) (held : state.active = some active)
    {record : LogRecord} (careful : ∀ file ∈ state.followed, file = state.rotated.length) :
    Inv ending { state with active := some ⟨active.records ++ [record], active.bytes⟩ } := by
  have grows : Extends ending state
      { state with active := some ⟨active.records ++ [record], active.bytes⟩ } := by
    refine .of_active rfl ⟨[record], ?_⟩ ?_
    · simp [activeRecords, held]
    · rw [activeThere, held]
      show (shown _ _).1 <+: (shown _ _).1
      rw [fileOf, fileOf, List.map_append, fileText_append]
      exact shown_append _ _ _
  refine inv.sink grows rfl rfl rfl inv.names (fun _ sorted => sorted) fun file position here _ alone => ?_
  refine alone.of_active rfl fun earlier => ?_
  have follows : file ∈ state.followed := by
    rw [followed, here]
    rfl
  rw [careful file follows] at earlier
  exact absurd earlier (Nat.lt_irrefl _)

theorem Inv.flush {active : ActiveFile} {bytes : Nat} (inv : Inv ending state) (held : state.active = some active)
    (more : active.bytes ≤ bytes) : Inv ending { state with active := some ⟨active.records, bytes⟩ } := by
  have grows : Extends ending state { state with active := some ⟨active.records, bytes⟩ } := by
    refine .of_active rfl ⟨[], ?_⟩ ?_
    · simp [activeRecords, held]
    · rw [activeThere, held]
      exact shown_mono _ more
  refine inv.sink grows rfl rfl rfl inv.names (fun _ sorted => sorted) fun file position _ _ alone => ?_
  refine alone.of_active rfl fun _ => ?_
  simp [activeRecords, held]

theorem Inv.rotate {active : ActiveFile} {name : Text} (inv : Inv ending state) (held : state.active = some active)
    (fresh : name ∉ state.rotated.map RotatedFile.name)
    (careful : state.phase = .list → ∀ closed ∈ state.rotated, closed.name ≤ name) :
    Inv ending { state with rotated := state.rotated ++ [⟨name, active.records⟩], active := none } := by
  have grows : Extends ending state
      { state with rotated := state.rotated ++ [⟨name, active.records⟩], active := none } := .of_rotate held rfl
  refine inv.sink grows rfl rfl rfl ?_ (fun here sorted => ?_) fun file position _ bound alone => ?_
  · show ((state.rotated ++ [_]).map _).Nodup
    rw [List.map_append, List.nodup_append]
    refine ⟨inv.names, List.nodup_singleton _, fun first known second last same => ?_⟩
    rw [same, List.mem_singleton.mp last] at known
    exact fresh known
  · show ((state.rotated ++ [_]).map _).Pairwise _
    rw [List.map_append, List.pairwise_append]
    refine ⟨sorted, List.pairwise_singleton _ _, fun first known second last => ?_⟩
    obtain ⟨closed, listed, rfl⟩ := List.mem_map.mp known
    rw [List.mem_singleton.mp last]
    exact careful here closed listed
  · refine ⟨fun closed later => ?_, fun _ => rfl⟩
    -- The followed file was rotated before, and what comes after it is empty, or it is the one rotated now.
    obtain earlier | same := Nat.lt_or_eq_of_le bound
    · have later : closed ∈ (state.rotated ++ [RotatedFile.mk name active.records]).drop (file + 1) := later
      rw [List.drop_append_of_le_length earlier] at later
      obtain known | last := List.mem_append.mp later
      · exact alone.rotated closed known
      · have none := alone.active earlier
        rw [activeRecords, held] at none
        rw [List.mem_singleton.mp last]
        exact none
    · have later : closed ∈ (state.rotated ++ [RotatedFile.mk name active.records]).drop (file + 1) := later
      rw [List.drop_eq_nil_of_le (by rw [List.length_append]; simp; omega)] at later
      cases later

theorem rotatedPaths_sorted (sorted : (state.rotated.map RotatedFile.name).Pairwise (· ≤ ·)) :
    state.rotatedPaths = state.rotated.map RotatedFile.name :=
  sorted.insertionSort_eq

theorem findIdx?_path (names : (state.rotated.map RotatedFile.name).Nodup) {path : Text}
    (known : (state.rotated.map RotatedFile.name)[file]? = some path) :
    state.rotated.findIdx? (fun closed => closed.name = path) = some file := by
  rw [List.getElem?_map, Option.map_eq_some_iff] at known
  obtain ⟨closed, listed, rfl⟩ := known
  obtain ⟨bound, here⟩ := List.getElem?_eq_some_iff.mp listed
  rw [List.findIdx?_eq_some_iff_getElem]
  refine ⟨bound, by simp [here], fun earlier less same => ?_⟩
  have equal : state.rotated[earlier].name = closed.name := by simpa using same
  have twice : (state.rotated.map RotatedFile.name)[earlier]? = (state.rotated.map RotatedFile.name)[file]? := by
    rw [List.getElem?_map, List.getElem?_map, listed, List.getElem?_eq_getElem (less.trans bound), Option.map_some,
      Option.map_some, equal]
  have place := (List.getElem?_inj (by rw [List.length_map]; omega) names).mp twice
  omega

/-- Once all listed files were sent, nothing is missing if the others are empty. -/
theorem before_listed (names : (state.rotated.map RotatedFile.name).Nodup)
    (listed : state.paths <+: state.rotated.map RotatedFile.name)
    (empty : ∀ closed ∈ state.rotated, ¬state.Listed closed → closed.records = []) :
    state.before state.paths.length = state.before state.rotated.length := by
  have halves : state.before state.rotated.length = state.before state.paths.length ++
      (state.rotated.drop state.paths.length).flatMap fun closed => texts closed.records := by
    rw [before, before, List.take_length, ← List.flatMap_append, List.take_append_drop]
  have paths : state.paths = (state.rotated.take state.paths.length).map RotatedFile.name := by
    rw [List.map_take]
    exact List.prefix_iff_eq_take.mp listed
  have later : (state.rotated.drop state.paths.length).flatMap (fun closed => texts closed.records) = [] := by
    rw [List.flatMap_eq_nil_iff]
    intro closed member
    rw [empty closed (List.mem_of_mem_drop member)]
    · rfl
    · intro known
      rw [Listed, paths] at known
      rw [← List.take_append_drop state.paths.length state.rotated, List.map_append, List.nodup_append] at names
      exact names.2.2 _ known _ (List.mem_map_of_mem member) rfl
  rw [halves, later, List.append_nil]

theorem ReadAt.closed_cases {closed : RotatedFile} (known : state.rotated[file]? = some closed)
    (read : ReadAt ending state file position sent) :
    (state.there ending file).1.drop position = [] ∨ '\n' ∈ (state.there ending file).1.drop position := by
  obtain ⟨count, place, _⟩ := read
  have whole := place.place
  rw [there_rotated known, whole]
  rw [recordsAt_rotated known]
  have halves : fileOf ending closed.records =
      fileText ending ((texts closed.records).take count) ++ fileText ending ((texts closed.records).drop count) := by
    rw [← fileText_append, List.take_append_drop]
    rfl
  rw [halves, List.drop_left]
  cases (texts closed.records).drop count with
  | nil => exact .inl rfl
  | cons body more =>
    refine .inr ?_
    rw [fileText_cons]
    cases ending <;> simp [LineEnd.text]

theorem Inv.advance (inv : Inv ending state) (careful : state.Careful ending .advance) :
    Inv ending (state.tailLogFile ending) := by
  obtain ⟨names, reads⟩ := inv
  unfold Careful at careful
  unfold tailLogFile
  cases phase : state.phase with
  | list =>
    rw [phase] at reads
    refine ⟨names, 0, Nat.zero_le _, ?_, rfl, reads.1⟩
    show state.rotatedPaths <+: state.rotated.map RotatedFile.name
    rw [rotatedPaths_sorted reads.2]
  | rotated remaining =>
    rw [phase] at reads
    obtain ⟨file, bound, listed, rest, same⟩ := reads
    cases remaining with
    | nil =>
      rw [phase] at careful
      obtain ⟨opened, empty⟩ := careful
      have last : file = state.paths.length := Nat.le_antisymm bound (List.drop_eq_nil_iff.mp rest.symm)
      simp only [opened, if_true]
      refine ⟨names, Nat.le_refl _, ⟨?_, fun earlier => absurd earlier (Nat.lt_irrefl _)⟩, ?_⟩
      · intro closed member
        have member : closed ∈ state.rotated.drop (state.rotated.length + 1) := member
        rw [List.drop_eq_nil_of_le (Nat.le_succ _)] at member
        cases member
      · rw [last, before_listed names listed empty] at same
        exact same ▸ ReadAt.start
    | cons path remaining =>
      have here : state.paths[file]? = some path := by
        rw [← List.head?_drop, ← rest]
        rfl
      obtain ⟨less, _⟩ := List.getElem?_eq_some_iff.mp here
      have named : (state.rotated.map RotatedFile.name)[file]? = some path := by
        obtain ⟨more, whole⟩ := listed
        rw [← whole, List.getElem?_append_left less]
        exact here
      have found := findIdx?_path names named
      simp only [found]
      refine ⟨names, less, listed, ?_, same ▸ ReadAt.start⟩
      rw [← List.drop_drop, ← rest]
      rfl
  | reading file position remaining =>
    rw [phase] at reads
    obtain ⟨bound, listed, rest, read⟩ := reads
    have less : file < state.rotated.length := by
      have length := listed.length_le
      rw [List.length_map] at length
      omega
    have known : state.rotated[file]? = some state.rotated[file] := List.getElem?_eq_getElem less
    obtain nothing | newline := read.closed_cases known
    · have whole : (state.there ending file).2 = false := by rw [there_rotated known]
      simp only [readline_nothing nothing whole, if_true]
      exact ⟨names, file + 1, bound, listed, rest, read.closed known nothing⟩
    · obtain ⟨found, line, more, later⟩ := read.next newline
      simp only [line, if_neg more]
      exact ⟨names, bound, listed, rest, later⟩
  | following file position =>
    rw [phase] at reads careful
    obtain ⟨bound, alone, read⟩ := reads
    obtain newline | ⟨nothing, whole⟩ := careful
    · obtain ⟨found, line, more, later⟩ := read.next newline
      simp only [line, if_neg more]
      exact ⟨names, bound, ⟨alone.rotated, alone.active⟩, later⟩
    · simp only [readline_nothing nothing whole, if_true]
      exact ⟨names, by rw [phase]; exact ⟨bound, alone, read⟩⟩
  | raised =>
    rw [phase] at reads
    exact reads.elim

theorem Inv.step {event : LogEvent} {after : LogState} (inv : Inv ending state) (careful : state.Careful ending event)
    (stepped : logStep ending state event = some after) : Inv ending after := by
  cases event with
  | create =>
    unfold logStep at stepped
    cases held : state.active with
    | some active =>
      rw [held] at stepped
      cases stepped
    | none =>
      rw [held] at stepped
      cases stepped
      exact inv.create held
  | write record =>
    obtain ⟨active, held, rfl⟩ := Option.map_eq_some_iff.mp stepped
    exact inv.write held careful
  | flush bytes =>
    obtain ⟨active, held, stepped⟩ := Option.bind_eq_some_iff.mp stepped
    rw [Option.ite_none_right_eq_some] at stepped
    obtain ⟨more, same⟩ := stepped
    cases same
    exact inv.flush held more
  | rotate name =>
    obtain ⟨active, held, stepped⟩ := Option.bind_eq_some_iff.mp stepped
    rw [Option.ite_none_left_eq_some] at stepped
    obtain ⟨fresh, same⟩ := stepped
    cases same
    exact inv.rotate held fresh careful
  | advance =>
    cases stepped
    exact inv.advance careful

/-- A stream at a file after which nothing was written has sent all lines that are there, once it finds nothing. -/
theorem ReadAt.all_there (read : ReadAt ending state file position sent) (bound : file ≤ state.rotated.length)
    (alone : Alone state file) (nothing : (state.there ending file).1.drop position = []) :
    sent = state.logThere ending := by
  obtain earlier | same := Nat.lt_or_eq_of_le bound
  · have known : state.rotated[file]? = some state.rotated[file] := List.getElem?_eq_getElem earlier
    have later : (state.rotated.drop (file + 1)).flatMap (fun closed => texts closed.records) = [] := by
      rw [List.flatMap_eq_nil_iff]
      intro closed member
      rw [alone.rotated closed member]
      rfl
    have halves : state.before state.rotated.length = state.before (file + 1) := by
      rw [before, before, List.take_length]
      nth_rewrite 1 [← List.take_append_drop (file + 1) state.rotated]
      rw [List.flatMap_append, later, List.append_nil]
    rw [read.closed known nothing, logThere, alone.active earlier, halves]
    simp [texts]
  · have every := read.all nothing
    rw [same, recordsAt_active (Nat.le_refl _)] at every
    exact every

theorem Inv.promised (inv : Inv ending state) : LogPromised ending state := by
  obtain ⟨names, reads⟩ := inv
  -- What was sent is the files before this one and the lines read of it, so the log starts with it.
  have sends : ∀ {file position}, file ≤ state.rotated.length → ReadAt ending state file position state.sent →
      state.sent <+: state.log := by
    intro file position bound read
    obtain ⟨count, _, same⟩ := read
    refine List.IsPrefix.trans ?_ (before_isPrefix bound)
    rw [same]
    exact (List.prefix_append_right_inj _).mpr (List.take_prefix _ _)
  have inside : ∀ {file}, state.paths <+: state.rotated.map RotatedFile.name → file ≤ state.paths.length →
      file ≤ state.rotated.length := by
    intro file listed bound
    have length := listed.length_le
    rw [List.length_map] at length
    omega
  cases phase : state.phase with
  | list =>
    rw [phase] at reads
    refine ⟨?_, by rw [phase]; simp, fun file position here => ?_⟩
    · rw [reads.1]
      exact List.nil_prefix
    · cases phase.symm.trans here
  | rotated remaining =>
    rw [phase] at reads
    obtain ⟨file, bound, listed, rest, same⟩ := reads
    refine ⟨?_, by rw [phase]; simp, fun file position here => ?_⟩
    · rw [same]
      exact (List.prefix_append _ _).trans (before_isPrefix (inside listed bound))
    · cases phase.symm.trans here
  | reading file position remaining =>
    rw [phase] at reads
    obtain ⟨bound, listed, rest, read⟩ := reads
    refine ⟨sends (inside listed (Nat.le_of_lt bound)) read, by rw [phase]; simp, fun file position here => ?_⟩
    cases phase.symm.trans here
  | following file position =>
    rw [phase] at reads
    obtain ⟨bound, alone, read⟩ := reads
    refine ⟨sends bound read, by rw [phase]; simp, fun other place here nothing => ?_⟩
    cases phase.symm.trans here
    exact read.all_there bound alone nothing
  | raised =>
    rw [phase] at reads
    exact reads.elim

end LogState

theorem logInv_start : LogState.Inv ending (logSystem ending).initial :=
  ⟨List.nodup_nil, rfl, List.Pairwise.nil⟩

/-- In a run in which nothing is written behind the stream's back, and no look ends inside a line, it sends the log. -/
theorem log_promised {history : List LogEvent} {state : LogState}
    (careful : (logSystem ending).Throughout (LogState.Careful ending) history)
    (reached : (logSystem ending).reached history = some state) : LogPromised ending state :=
  (System.invariant (P := LogState.Inv ending) logInv_start
    (fun _ _ _ inv here stepped => inv.step here stepped) careful reached).promised

/-! ### A run that keeps the promise, and two that do not -/

def object (name : Char) (plain : name ≠ '\n' ∧ name ≠ '\r') : LogRecord where
  text := [Json.openBrace, name, Json.closeBrace]
  line := by
    intro c member
    simp only [List.mem_cons, List.not_mem_nil, or_false] at member
    obtain rfl | rfl | rfl := member
    · decide
    · exact plain
    · decide
  object := rfl

def firstRecord : LogRecord := object 'a' (by decide)
def secondRecord : LogRecord := object 'b' (by decide)

/-- The log is rotated before the stream lists its files, and once more when all was written. -/
def rotatedBefore : List LogEvent :=
  [.advance, .rotate ['2'], .advance, .flush 4, .advance, .advance, .write secondRecord, .advance, .advance, .advance,
    .create, .rotate ['1'], .write firstRecord, .create]

theorem rotatedBefore_led : ((logSystem .newline).reached rotatedBefore).isSome = true := by decide

theorem rotatedBefore_promised : ∃ state, (logSystem .newline).reached rotatedBefore = some state ∧
    LogPromised .newline state ∧ state.sent = [firstRecord.text, secondRecord.text] := by
  refine ⟨_, (Option.some_get rotatedBefore_led).symm, log_promised (by decide)
    (Option.some_get rotatedBefore_led).symm, ?_⟩
  decide

def rotatedLater : List LogEvent :=
  [.advance, .flush 4, .write secondRecord, .create, .rotate ['1'], .advance, .flush 4, .write firstRecord, .advance,
    .advance, .create]

/-- The stream looks when two of the four bytes of a line are there. -/
def halfLine : List LogEvent := [.advance, .flush 2, .write firstRecord, .advance, .advance, .create]

theorem rotatedLater_led : ((logSystem .newline).reached rotatedLater).isSome = true := by decide

theorem halfLine_led : ((logSystem .newline).reached halfLine).isSome = true := by decide

/-- The stream stays with the file that was rotated, and takes the beginning of a line for a line. -/
theorem rotatedLater_missed :
    (∃ state, (logSystem .newline).reached rotatedLater = some state ∧ ¬LogPromised .newline state) ∧
      ∃ state, (logSystem .newline).reached halfLine = some state ∧ ¬LogPromised .newline state := by
  refine ⟨⟨_, (Option.some_get rotatedLater_led).symm, fun promised => ?_⟩, _, (Option.some_get halfLine_led).symm,
    fun promised => ?_⟩
  · have missed := promised.all 0 4
    revert missed
    decide
  · have rows := promised.rows
    revert rows
    decide

end PhysicalAiStudio.Streams
