import PhysicalAiStudio.Strings.Shlex
import PhysicalAiStudio.Strings.Growing

/-! Comma-separated values, as Python's `csv` module reads them.

The reader takes a list of lines, and a record may go on in the next line while a quote is
open. Whichever of its cells a row is written in quotes, the reader finds their values.
-/

set_option autoImplicit false

namespace PhysicalAiStudio.Strings.Csv

inductive State where
  | startRecord
  | startField
  | inField
  | inQuoted
  | quoteInQuoted
  | eatNewline
deriving DecidableEq

structure Reader where
  state : State
  fields : List Text
  field : Text
deriving DecidableEq

def fieldSizeLimit : Nat := 131072

def isNewline (c : Char) : Bool := c = '\n' || c = '\r'

namespace Reader

def start : Reader := ⟨.startRecord, [], []⟩

def addChar (reader : Reader) (state : State) (c : Char) : Option Reader :=
  if fieldSizeLimit ≤ reader.field.length then none
  else some ⟨state, reader.fields, reader.field ++ [c]⟩

def saveField (reader : Reader) (state : State) : Reader := ⟨state, reader.fields ++ [reader.field], []⟩

def startField (reader : Reader) (c : Char) : Option Reader :=
  if isNewline c then some (reader.saveField .eatNewline)
  else if c = doubleQuote then some ⟨.inQuoted, reader.fields, reader.field⟩
  else if c = ',' then some (reader.saveField .startField)
  else reader.addChar .inField c

/-- One character; `none` where the reader raises `csv.Error`. -/
def process (reader : Reader) (c : Char) : Option Reader :=
  match reader.state with
  | .startRecord =>
    if isNewline c then some ⟨.eatNewline, reader.fields, reader.field⟩ else reader.startField c
  | .startField => reader.startField c
  -- A quote within a field stands for itself.
  | .inField =>
    if isNewline c then some (reader.saveField .eatNewline)
    else if c = ',' then some (reader.saveField .startField)
    else reader.addChar .inField c
  | .inQuoted =>
    if c = doubleQuote then some ⟨.quoteInQuoted, reader.fields, reader.field⟩ else reader.addChar .inQuoted c
  -- What follows a closing quote belongs to the field, as `strict` is not set.
  | .quoteInQuoted =>
    if c = doubleQuote then reader.addChar .inQuoted c
    else if c = ',' then some (reader.saveField .startField)
    else if isNewline c then some (reader.saveField .eatNewline)
    else reader.addChar .inField c
  | .eatNewline => if isNewline c then some reader else none

def endLine (reader : Reader) : Reader :=
  match reader.state with
  | .startRecord => reader
  | .startField => reader.saveField .startRecord
  | .inField => reader.saveField .startRecord
  | .inQuoted => reader
  | .quoteInQuoted => reader.saveField .startRecord
  | .eatNewline => ⟨.startRecord, reader.fields, reader.field⟩

/-- All records of some lines; a quote that is still open at the end is closed there. -/
def records (reader : Reader) : List Text → Option (List (List Text))
  | [] => some (if reader.state = .startRecord then [] else [reader.fields ++ [reader.field]])
  | line :: lines =>
    (line.foldlM process reader).bind fun reader =>
      if reader.endLine.state = .startRecord then (records start lines).map (reader.endLine.fields :: ·)
      else records reader.endLine lines

end Reader

def reader (lines : List Text) : Option (List (List Text)) := Reader.start.records lines

/-- `next(csv.reader([line]))`. -/
def row (line : Text) : Option (List Text) := (reader [line]).bind List.head?

/-! ### Rows as they are written -/

/-- A value, in quotes or not; without them nothing in it has a meaning to the reader. -/
structure Cell where
  value : Text
  quoted : Bool
  plain : quoted = false → ∀ c ∈ value, c ≠ ',' ∧ c ≠ doubleQuote ∧ isNewline c = false

def doubled (c : Char) : Text := if c = doubleQuote then [c, c] else [c]

def Cell.text (cell : Cell) : Text :=
  if cell.quoted then doubleQuote :: (cell.value.flatMap doubled ++ [doubleQuote]) else cell.value

def rowText : List Cell → Text
  | [] => []
  | [cell] => cell.text
  | cell :: rest => cell.text ++ ',' :: rowText rest

/-- A written row. A blank line is none. -/
structure Row where
  cells : List Cell
  nonblank : rowText cells ≠ []

def Row.values (row : Row) : List Text := row.cells.map Cell.value

def Row.text (row : Row) : Text := rowText row.cells

/-! ### Reading what was written -/

/-- Where a comma or a newline ends the field. -/
def State.Closing : State → Prop
  | startField => True
  | inField => True
  | quoteInQuoted => True
  | _ => False

theorem process_comma {reader : Reader} (closing : reader.state.Closing) :
    reader.process ',' = some (reader.saveField .startField) := by
  obtain ⟨state, fields, field⟩ := reader
  cases state with
  | startRecord => exact closing.elim
  | startField => rfl
  | inField => rfl
  | inQuoted => exact closing.elim
  | quoteInQuoted => rfl
  | eatNewline => exact closing.elim

theorem isNewline_iff {c : Char} : isNewline c = true ↔ c = '\n' ∨ c = '\r' := by
  simp [isNewline]

theorem process_newline {reader : Reader} {c : Char} (newline : isNewline c = true) (closing : reader.state.Closing) :
    reader.process c = some (reader.saveField .eatNewline) := by
  have other : c ≠ doubleQuote ∧ c ≠ ',' := by
    obtain rfl | rfl := isNewline_iff.mp newline <;> decide
  obtain ⟨state, fields, field⟩ := reader
  cases state with
  | startRecord => exact closing.elim
  | startField => simp [Reader.process, Reader.startField, newline]
  | inField => simp [Reader.process, newline]
  | inQuoted => exact closing.elim
  | quoteInQuoted => simp [Reader.process, newline, other]
  | eatNewline => exact closing.elim

theorem foldlM_plain {text : Text} (plain : ∀ c ∈ text, c ≠ ',' ∧ c ≠ doubleQuote ∧ isNewline c = false)
    (fields : List Text) (field : Text) (short : (field ++ text).length ≤ fieldSizeLimit) :
    text.foldlM Reader.process ⟨.inField, fields, field⟩ = some ⟨.inField, fields, field ++ text⟩ := by
  induction text generalizing field with
  | nil =>
    rw [List.append_nil]
    rfl
  | cons c text ih =>
    obtain ⟨comma, quote, newline⟩ := plain c List.mem_cons_self
    have room : ¬fieldSizeLimit ≤ field.length := by
      rw [List.length_append, List.length_cons] at short
      omega
    have step : Reader.process ⟨.inField, fields, field⟩ c = some ⟨.inField, fields, field ++ [c]⟩ := by
      simp [Reader.process, Reader.addChar, newline, comma, room]
    rw [List.foldlM_cons, step, Option.bind_eq_bind, Option.bind_some,
      ih (fun d member => plain d (List.mem_cons_of_mem _ member)), List.append_assoc]
    · rfl
    · rw [List.append_assoc]
      exact short

theorem foldlM_doubled {text : Text} (fields : List Text) (field : Text)
    (short : (field ++ text).length ≤ fieldSizeLimit) :
    (text.flatMap doubled).foldlM Reader.process ⟨.inQuoted, fields, field⟩ =
      some ⟨.inQuoted, fields, field ++ text⟩ := by
  induction text generalizing field with
  | nil =>
    rw [List.append_nil]
    rfl
  | cons c text ih =>
    have room : ¬fieldSizeLimit ≤ field.length := by
      rw [List.length_append, List.length_cons] at short
      omega
    have step : (doubled c).foldlM Reader.process ⟨.inQuoted, fields, field⟩ =
        some ⟨.inQuoted, fields, field ++ [c]⟩ := by
      unfold doubled
      split
      · next quote => simp [Reader.process, Reader.addChar, quote, room]
      · next other => simp [Reader.process, Reader.addChar, other, room]
    rw [List.flatMap_cons, List.foldlM_append, step, Option.bind_eq_bind, Option.bind_some, ih, List.append_assoc]
    · rfl
    · rw [List.append_assoc]
      exact short

theorem foldlM_cell (cell : Cell) (fields : List Text) (short : cell.value.length ≤ fieldSizeLimit) :
    ∃ state : State, state.Closing ∧
      cell.text.foldlM Reader.process ⟨.startField, fields, []⟩ = some ⟨state, fields, cell.value⟩ := by
  obtain ⟨value, quoted, plain⟩ := cell
  cases quoted with
  | true =>
    refine ⟨.quoteInQuoted, trivial, ?_⟩
    have opened : Reader.process ⟨.startField, fields, []⟩ doubleQuote = some ⟨.inQuoted, fields, []⟩ := rfl
    have closed : Reader.process ⟨.inQuoted, fields, value⟩ doubleQuote = some ⟨.quoteInQuoted, fields, value⟩ := rfl
    rw [Cell.text, if_pos rfl, List.foldlM_cons, opened, Option.bind_eq_bind, Option.bind_some, List.foldlM_append,
      foldlM_doubled fields [] short, Option.bind_eq_bind, Option.bind_some, List.nil_append, List.foldlM_cons, closed]
    rfl
  | false =>
    cases value with
    | nil => exact ⟨.startField, trivial, rfl⟩
    | cons c rest =>
      obtain ⟨comma, quote, newline⟩ := plain rfl c List.mem_cons_self
      have step : Reader.process ⟨.startField, fields, []⟩ c = some ⟨.inField, fields, [c]⟩ := by
        simp [Reader.process, Reader.startField, Reader.addChar, newline, comma, quote, fieldSizeLimit]
      refine ⟨.inField, trivial, ?_⟩
      rw [Cell.text, if_neg Bool.false_ne_true, List.foldlM_cons, step, Option.bind_eq_bind, Option.bind_some,
        foldlM_plain (fun d member => plain rfl d (List.mem_cons_of_mem _ member)) fields [c] short]
      rfl

theorem foldlM_rowText {cells : List Cell} (some_cell : cells ≠ [])
    (short : ∀ cell ∈ cells, cell.value.length ≤ fieldSizeLimit) {c : Char} (newline : isNewline c = true)
    (fields : List Text) (rest : Text) :
    (rowText cells ++ c :: rest).foldlM Reader.process ⟨.startField, fields, []⟩ =
      rest.foldlM Reader.process ⟨.eatNewline, fields ++ cells.map Cell.value, []⟩ := by
  induction cells generalizing fields with
  | nil => exact absurd rfl some_cell
  | cons cell cells ih =>
    obtain ⟨state, closing, read⟩ := foldlM_cell cell fields (short cell List.mem_cons_self)
    cases cells with
    | nil =>
      rw [rowText, List.foldlM_append, read, Option.bind_eq_bind, Option.bind_some, List.foldlM_cons,
        process_newline newline closing]
      rfl
    | cons next cells =>
      rw [rowText, List.append_assoc, List.foldlM_append, read, Option.bind_eq_bind, Option.bind_some,
        List.cons_append, List.foldlM_cons, process_comma closing, Option.bind_eq_bind, Option.bind_some]
      · have here := ih (by simp) (fun other member => short other (List.mem_cons_of_mem _ member))
          (fields ++ [cell.value])
        rw [List.append_assoc, List.singleton_append, ← List.map_cons] at here
        exact here
      · simp

/-- At the beginning of a record only a newline is read in another way than at the beginning of a field. -/
theorem foldlM_start {c : Char} (plain : isNewline c = false) (rest : Text) :
    (c :: rest).foldlM Reader.process Reader.start = (c :: rest).foldlM Reader.process ⟨.startField, [], []⟩ := by
  have same : Reader.process Reader.start c = Reader.process ⟨.startField, [], []⟩ c := by
    simp [Reader.process, Reader.start, plain, Reader.startField, Reader.saveField, Reader.addChar]
  rw [List.foldlM_cons, List.foldlM_cons, same]

theorem Cell.head?_text (cell : Cell) : ∀ c ∈ cell.text.head?, isNewline c = false := by
  intro c member
  obtain ⟨value, quoted, plain⟩ := cell
  cases quoted with
  | true =>
    cases member
    rfl
  | false => exact (plain rfl c (List.mem_of_mem_head? member)).2.2

theorem Row.head_text (row : Row) : ∃ c rest, row.text = c :: rest ∧ isNewline c = false := by
  obtain ⟨cells, nonblank⟩ := row
  cases read : rowText cells with
  | nil => exact absurd read nonblank
  | cons c rest =>
    refine ⟨c, rest, read, ?_⟩
    cases cells with
    | nil => cases read
    | cons cell cells =>
      cases cells with
      | nil =>
        rw [rowText] at read
        exact cell.head?_text c (by rw [read]; rfl)
      | cons next cells =>
        rw [rowText] at read
        · cases text : cell.text with
          | nil =>
            rw [text, List.nil_append, List.cons.injEq] at read
            rw [← read.1]
            rfl
          | cons d others =>
            rw [text, List.cons_append, List.cons.injEq] at read
            exact cell.head?_text c (by rw [text, read.1]; rfl)
        · simp

def Row.Short (row : Row) : Prop := ∀ cell ∈ row.cells, cell.value.length ≤ fieldSizeLimit

/-- A written row is read as the record of its values, whatever lines follow. -/
theorem records_row (row : Row) (short : row.Short) (ending : LineEnd) (lines : List Text) :
    Reader.start.records ((row.text ++ ending.text) :: lines) = (Reader.start.records lines).map (row.values :: ·) := by
  have cells : row.cells ≠ [] := by
    intro empty
    exact row.nonblank (by rw [empty]; rfl)
  have read : (row.text ++ ending.text).foldlM Reader.process Reader.start =
      some ⟨.eatNewline, row.values, []⟩ := by
    obtain ⟨c, rest, first, plain⟩ := row.head_text
    rw [first, List.cons_append, foldlM_start plain, ← List.cons_append, ← first, Row.text]
    cases ending with
    | newline =>
      rw [LineEnd.text, foldlM_rowText cells short (by decide), List.nil_append]
      rfl
    | returned =>
      rw [LineEnd.text, foldlM_rowText cells short (by decide), List.nil_append]
      rfl
  rw [Reader.records, read, Option.bind_some]
  rfl

theorem records_rows (rows : List Row) (short : ∀ row ∈ rows, row.Short) (ending : LineEnd) :
    reader (rows.map fun row => row.text ++ ending.text) = some (rows.map Row.values) := by
  induction rows with
  | nil => rfl
  | cons row rows ih =>
    rw [List.map_cons, reader, records_row row (short row List.mem_cons_self)]
    rw [reader] at ih
    rw [ih fun other member => short other (List.mem_cons_of_mem _ member)]
    rfl

theorem row_text (written : Row) (short : written.Short) (ending : LineEnd) :
    row (written.text ++ ending.text) = some written.values := by
  rw [row, reader, records_row written short]
  rfl

end PhysicalAiStudio.Strings.Csv
