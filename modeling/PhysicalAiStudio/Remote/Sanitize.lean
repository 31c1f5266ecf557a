import PhysicalAiStudio.Strings.Text
import Mathlib.Data.List.Infix

/-! The output of remote commands before it is shown: `services/ssh/sanitize.py`.

An index into the text is what remains of it from there on.
-/

set_option autoImplicit false

namespace PhysicalAiStudio.Remote.Sanitize
open Strings

def bidiOverrides : List Char :=
  ['\u200f', '\u202a', '\u202b', '\u202c', '\u202d', '\u202e', '\u2066', '\u2067', '\u2068', '\u2069', '\ufeff']

def esc : Char := '\x1b'

def bel : Char := '\x07'

def lineSeparator : Char := '\n'

def truncationMarker : Text := "...[truncated]".toList

/-- The Unicode category `Cc`. -/
def isControl (c : Char) : Bool := decide (c.toNat < 32) || (decide (127 ≤ c.toNat) && decide (c.toNat ≤ 159))

def isFinal (c : Char) : Bool := decide (64 ≤ c.toNat) && decide (c.toNat ≤ 126)

def isIntermediate (c : Char) : Bool := decide (32 ≤ c.toNat) && decide (c.toNat ≤ 47)

/-- The introducers of a sequence that a string terminator ends. -/
def stringIntroducers : List Char := [']', 'P', 'X', '^', '_']

/-- What comes after BEL or after ESC and a backslash; another ESC starts a sequence of its own. -/
def afterString : Text → Text
  | [] => []
  | c :: rest =>
    if c = bel then rest
    else if c = esc then
      match rest with
      | '\\' :: rest => rest
      | _ => c :: rest
    else afterString rest

/-- `_skip_escape_sequence`: what comes after the sequence whose ESC stands before the text. -/
def skipEscapeSequence : Text → Text
  | [] => []
  | introducer :: rest =>
    if introducer = '[' then (rest.dropWhile fun c => !isFinal c).drop 1
    else if introducer ∈ stringIntroducers then afterString rest
    else if isIntermediate introducer then (rest.dropWhile isIntermediate).drop 1
    else rest

theorem afterString_suffix (text : Text) : afterString text <:+ text := by
  induction text with
  | nil => exact List.suffix_refl []
  | cons c rest ih =>
      unfold afterString
      split_ifs
      · exact List.suffix_cons c rest
      · split
        · next rest => exact (List.suffix_cons '\\' rest).trans (List.suffix_cons c _)
        · exact List.suffix_refl _
      · exact ih.trans (List.suffix_cons c rest)

theorem skipEscapeSequence_suffix (text : Text) : skipEscapeSequence text <:+ text := by
  cases text with
  | nil => exact List.suffix_refl []
  | cons introducer rest =>
      have inner : skipEscapeSequence (introducer :: rest) <:+ rest := by
        rw [skipEscapeSequence]
        split_ifs
        · exact (List.drop_suffix 1 _).trans (List.dropWhile_suffix _)
        · exact afterString_suffix rest
        · exact (List.drop_suffix 1 _).trans (List.dropWhile_suffix _)
        · exact List.suffix_refl rest
      exact inner.trans (List.suffix_cons introducer rest)

/-- What stays of a character outside the sequences. -/
def keepsCharacter (c : Char) : Bool :=
  decide (c = lineSeparator) || (!decide (c ∈ bidiOverrides) && !isControl c)

def stripControlSequences : Text → Text
  | [] => []
  | c :: rest =>
    if c = esc then stripControlSequences (skipEscapeSequence rest)
    else if keepsCharacter c then c :: stripControlSequences rest
    else stripControlSequences rest
  termination_by text => text.length
  decreasing_by
    all_goals
      have shorter := (skipEscapeSequence_suffix rest).length_le
      simp only [List.length_cons]
      omega

def capLine (maxLineChars : ℤ) (line : Text) : Text :=
  if maxLineChars > 0 then line.take maxLineChars.toNat else []

def capLines (maxLineChars : ℤ) (text : Text) : Text :=
  [lineSeparator].intercalate ((text.splitOn lineSeparator).map (capLine maxLineChars))

def sanitizeOutput (text : Text) (maxLineChars maxTotalChars : ℤ) : Text :=
  if maxTotalChars ≤ 0 ∨ text = [] then []
  else
    let joined := capLines maxLineChars (stripControlSequences text)
    if (joined.length : ℤ) ≤ maxTotalChars then joined
    else if maxTotalChars ≤ truncationMarker.length then joined.take maxTotalChars.toNat
    else joined.take (maxTotalChars - truncationMarker.length).toNat ++ truncationMarker

/-! ### Characters of the input -/

def marked : Text → List (Nat × Char)
  | [] => []
  | c :: rest =>
    if c = esc then marked (skipEscapeSequence rest)
    else if keepsCharacter c then (rest.length + 1, c) :: marked rest
    else marked rest
  termination_by text => text.length
  decreasing_by
    all_goals
      have shorter := (skipEscapeSequence_suffix rest).length_le
      simp only [List.length_cons]
      omega

def capFrom (limit : Nat) : Nat → List (Nat × Char) → List (Nat × Char)
  | _, [] => []
  | column, item :: rest =>
    if item.2 = lineSeparator then item :: capFrom limit 0 rest
    else if column < limit then item :: capFrom limit (column + 1) rest
    else capFrom limit (column + 1) rest

def survivors (text : Text) (maxLineChars maxTotalChars : ℤ) : List (Nat × Char) :=
  if maxTotalChars ≤ 0 then []
  else
    let capped := capFrom maxLineChars.toNat 0 (marked text)
    if (capped.length : ℤ) ≤ maxTotalChars then capped
    else if maxTotalChars ≤ truncationMarker.length then capped.take maxTotalChars.toNat
    else capped.take (maxTotalChars - truncationMarker.length).toNat

def InSequenceOf (rest : Text) (place : Nat) : Prop :=
  (skipEscapeSequence rest).length < place ∧ place ≤ rest.length + 1

def InSequence (text : Text) (place : Nat) : Prop :=
  ∃ rest, esc :: rest <:+ text ∧ InSequenceOf rest place

inductive Scanned : Text → Text → Prop where
  | here (text : Text) : Scanned text text
  | sequence {rest later : Text} : Scanned (skipEscapeSequence rest) later → Scanned (esc :: rest) later
  | character {c : Char} {rest later : Text} : c ≠ esc → Scanned rest later → Scanned (c :: rest) later

/-- A character of a sequence whose ESC the scanner took for a part of an earlier sequence. -/
def Swallowed (text : Text) (place : Nat) : Prop :=
  ∃ rest, esc :: rest <:+ text ∧ ¬Scanned text (esc :: rest) ∧ InSequenceOf rest place

/-! ### Lines -/

def Within (limit : Nat) : Nat → Text → Prop
  | _, [] => True
  | column, c :: rest =>
    if c = lineSeparator then Within limit 0 rest else column < limit ∧ Within limit (column + 1) rest

def endColumn : Nat → Text → Nat
  | column, [] => column
  | column, c :: rest => if c = lineSeparator then endColumn 0 rest else endColumn (column + 1) rest

/-- The marker is not needed, or has no room at all, or has room in the last line. -/
def MarkerFits (text : Text) (maxLineChars maxTotalChars : ℤ) : Prop :=
  let joined := capLines maxLineChars (stripControlSequences text)
  (joined.length : ℤ) ≤ maxTotalChars ∨ maxTotalChars ≤ truncationMarker.length ∨
    endColumn 0 (joined.take (maxTotalChars - truncationMarker.length).toNat) + truncationMarker.length ≤
      maxLineChars.toNat

structure Sanitized (text : Text) (maxLineChars maxTotalChars : ℤ) (result : Text) : Prop where
  /-- What comes from the input is marked with its place. -/
  shown : ∃ marker, (marker = [] ∨ marker = truncationMarker) ∧
    result = (survivors text maxLineChars maxTotalChars).map Prod.snd ++ marker
  clean : ∀ c ∈ result, (c = lineSeparator ∨ isControl c = false) ∧ c ∉ bidiOverrides
  sequences : ∀ item ∈ survivors text maxLineChars maxTotalChars, ¬InSequence text item.1
  total : result.length ≤ maxTotalChars.toNat
  lines : ∀ line ∈ result.splitOn lineSeparator, line.length ≤ maxLineChars.toNat
  stable : sanitizeOutput result maxLineChars maxTotalChars = result

/-! ### What the scanner keeps -/

theorem marked_nil : marked [] = [] := by
  rw [marked]

theorem marked_esc (rest : Text) : marked (esc :: rest) = marked (skipEscapeSequence rest) := by
  rw [marked, if_pos rfl]

theorem marked_cons {c : Char} (plain : c ≠ esc) (rest : Text) :
    marked (c :: rest) = if keepsCharacter c then (rest.length + 1, c) :: marked rest else marked rest := by
  rw [marked, if_neg plain]

theorem strip_eq_marked (text : Text) : stripControlSequences text = (marked text).map Prod.snd := by
  induction text using stripControlSequences.induct with
  | case1 =>
      rw [stripControlSequences, marked_nil]
      rfl
  | case2 rest ih =>
      rw [stripControlSequences, if_pos rfl, marked_esc]
      exact ih
  | case3 c rest plain kept ih =>
      rw [stripControlSequences, if_neg plain, if_pos kept, marked_cons plain, if_pos kept, List.map_cons, ih]
  | case4 c rest plain dropped ih =>
      rw [stripControlSequences, if_neg plain, if_neg dropped, marked_cons plain, if_neg dropped]
      exact ih

theorem mem_marked {text : Text} {item : Nat × Char} (member : item ∈ marked text) :
    item.1 ≤ text.length ∧ keepsCharacter item.2 = true := by
  induction text using stripControlSequences.induct with
  | case1 =>
      rw [marked_nil] at member
      cases member
  | case2 rest ih =>
      rw [marked_esc] at member
      obtain ⟨bound, kept⟩ := ih member
      have shorter := (skipEscapeSequence_suffix rest).length_le
      exact ⟨by rw [List.length_cons]; omega, kept⟩
  | case3 c rest plain kept ih =>
      rw [marked_cons plain, if_pos kept] at member
      rcases List.mem_cons.mp member with same | later
      · rw [same]
        exact ⟨le_rfl, kept⟩
      · obtain ⟨bound, kept⟩ := ih later
        exact ⟨by rw [List.length_cons]; omega, kept⟩
  | case4 c rest plain dropped ih =>
      rw [marked_cons plain, if_neg dropped] at member
      obtain ⟨bound, kept⟩ := ih member
      exact ⟨by rw [List.length_cons]; omega, kept⟩

theorem Scanned.suffix {text later : Text} (scanned : Scanned text later) : later <:+ text := by
  induction scanned with
  | here text => exact List.suffix_refl text
  | @sequence rest later _ ih => exact (ih.trans (skipEscapeSequence_suffix rest)).trans (List.suffix_cons esc rest)
  | @character c rest later _ _ ih => exact ih.trans (List.suffix_cons c rest)

theorem marked_outside {text rest : Text} (scanned : Scanned text (esc :: rest)) {item : Nat × Char}
    (member : item ∈ marked text) : ¬InSequenceOf rest item.1 := by
  generalize start : esc :: rest = later at scanned
  induction scanned with
  | here text =>
      subst start
      rw [marked_esc] at member
      have bound := (mem_marked member).1
      intro inside
      exact absurd bound (Nat.not_le.mpr inside.1)
  | @sequence before later _ ih =>
      rw [marked_esc] at member
      exact ih member start
  | @character c before later plain scanned ih =>
      rw [marked_cons plain] at member
      have shorter := scanned.suffix.length_le
      rw [← start, List.length_cons] at shorter
      split at member
      · rcases List.mem_cons.mp member with same | member
        · rw [same]
          intro inside
          have bound : before.length + 1 ≤ rest.length + 1 := inside.2
          omega
        · exact ih member start
      · exact ih member start

theorem keepsCharacter_iff {c : Char} :
    keepsCharacter c = true ↔ (c = lineSeparator ∨ isControl c = false) ∧ c ∉ bidiOverrides := by
  unfold keepsCharacter
  simp only [Bool.or_eq_true, decide_eq_true_eq, Bool.and_eq_true, Bool.not_eq_true', decide_eq_false_iff_not]
  constructor
  · rintro (same | ⟨plain, uncontrolled⟩)
    · subst same
      exact ⟨Or.inl rfl, by decide⟩
    · exact ⟨Or.inr uncontrolled, plain⟩
  · rintro ⟨same | uncontrolled, plain⟩
    · exact Or.inl same
    · exact Or.inr ⟨plain, uncontrolled⟩

theorem strip_of_kept {text : Text} (kept : ∀ c ∈ text, keepsCharacter c = true) : stripControlSequences text = text := by
  induction text with
  | nil => rw [stripControlSequences]
  | cons c rest ih =>
      have here := kept c List.mem_cons_self
      have plain : c ≠ esc := by
        intro same
        rw [same] at here
        exact absurd here (by decide)
      rw [stripControlSequences, if_neg plain, if_pos here, ih fun other member => kept other (List.mem_cons_of_mem _ member)]

/-! ### The cap on the lines -/

def capFirst (limit column : Nat) : List Text → List Text
  | [] => []
  | line :: lines => line.take (limit - column) :: lines.map (List.take limit)

theorem capFirst_zero (limit : Nat) (lines : List Text) : capFirst limit 0 lines = lines.map (List.take limit) := by
  cases lines <;> rfl

theorem intercalate_capFirst (limit column : Nat) (items : List (Nat × Char)) :
    [lineSeparator].intercalate (capFirst limit column ((items.map Prod.snd).splitOn lineSeparator)) =
      (capFrom limit column items).map Prod.snd := by
  induction items generalizing column with
  | nil => simp [capFirst, capFrom, List.intercalate]
  | cons item items ih =>
      rw [List.map_cons, List.splitOn_cons_eq_if_modifyHead]
      obtain ⟨line, lines, split⟩ := List.exists_cons_of_ne_nil (List.splitOn_ne_nil lineSeparator (items.map Prod.snd))
      by_cases separator : item.2 = lineSeparator
      · have later := ih 0
        rw [capFirst_zero] at later
        rw [if_pos (beq_iff_eq.mpr separator), capFirst, List.take_nil, List.intercalate_cons_of_ne_nil, later, capFrom,
          if_pos separator, List.map_cons, separator]
        · rfl
        · rw [split]
          exact List.cons_ne_nil _ _
      · have later := ih (column + 1)
        rw [split, capFirst] at later
        rw [if_neg (fun same => separator (beq_iff_eq.mp same)), split, List.modifyHead_cons, capFirst, capFrom,
          if_neg separator]
        by_cases within : column < limit
        · have room : limit - column = limit - (column + 1) + 1 := by omega
          rw [if_pos within, room, List.take_succ_cons, List.intercalate_cons_cons_left, later, List.map_cons]
        · have full : limit - column = 0 := by omega
          have still : limit - (column + 1) = 0 := by omega
          rw [still, List.take_zero] at later
          rw [if_neg within, full, List.take_zero, later]

theorem capLine_eq (maxLineChars : ℤ) : capLine maxLineChars = List.take maxLineChars.toNat := by
  funext line
  unfold capLine
  split_ifs with positive
  · rfl
  · have none : maxLineChars.toNat = 0 := by omega
    rw [none, List.take_zero]

theorem capLines_map (maxLineChars : ℤ) (items : List (Nat × Char)) :
    capLines maxLineChars (items.map Prod.snd) = (capFrom maxLineChars.toNat 0 items).map Prod.snd := by
  rw [capLines, capLine_eq, ← capFirst_zero]
  exact intercalate_capFirst maxLineChars.toNat 0 items

theorem capFrom_sublist (limit column : Nat) (items : List (Nat × Char)) :
    (capFrom limit column items).Sublist items := by
  induction items generalizing column with
  | nil => exact List.Sublist.refl []
  | cons item items ih =>
      unfold capFrom
      split_ifs
      · exact (ih 0).cons_cons item
      · exact (ih (column + 1)).cons_cons item
      · exact (ih (column + 1)).cons item

/-! ### Lengths of lines -/

theorem within_iff_lines {limit column : Nat} (room : column ≤ limit) {text line : Text} {lines : List Text}
    (split : text.splitOn lineSeparator = line :: lines) :
    Within limit column text ↔ column + line.length ≤ limit ∧ ∀ other ∈ lines, other.length ≤ limit := by
  induction text generalizing column line lines with
  | nil =>
      rw [List.splitOn_nil] at split
      cases split
      simpa [Within] using room
  | cons c rest ih =>
      rw [List.splitOn_cons_eq_if_modifyHead] at split
      obtain ⟨first, others, inner⟩ := List.exists_cons_of_ne_nil (List.splitOn_ne_nil lineSeparator rest)
      rw [inner] at split
      rw [Within]
      -- A separator starts the column again, any other character moves it on.
      by_cases separator : c = lineSeparator
      · rw [if_pos (beq_iff_eq.mpr separator)] at split
        obtain ⟨empty, same⟩ := List.cons.inj split
        subst empty
        subst same
        rw [if_pos separator, ih (Nat.zero_le limit) inner, List.forall_mem_cons, Nat.zero_add, List.length_nil]
        exact ⟨fun within => ⟨room, within⟩, fun within => within.2⟩
      · rw [if_neg (fun same => separator (beq_iff_eq.mp same)), List.modifyHead_cons] at split
        obtain ⟨head, same⟩ := List.cons.inj split
        subst head
        subst same
        rw [if_neg separator, List.length_cons]
        constructor
        · rintro ⟨within, later⟩
          obtain ⟨bound, others⟩ := (ih within inner).mp later
          exact ⟨by omega, others⟩
        · rintro ⟨bound, others⟩
          have within : column < limit := by omega
          exact ⟨within, (ih within inner).mpr ⟨by omega, others⟩⟩

theorem lines_within {limit : Nat} {text : Text} :
    (∀ line ∈ text.splitOn lineSeparator, line.length ≤ limit) ↔ Within limit 0 text := by
  obtain ⟨line, lines, split⟩ := List.exists_cons_of_ne_nil (List.splitOn_ne_nil lineSeparator text)
  rw [within_iff_lines (Nat.zero_le limit) split, split, List.forall_mem_cons, Nat.zero_add]

theorem within_capFrom (limit column : Nat) (items : List (Nat × Char)) :
    Within limit (min column limit) ((capFrom limit column items).map Prod.snd) := by
  induction items generalizing column with
  | nil => trivial
  | cons item items ih =>
      unfold capFrom
      split_ifs with separator within
      · rw [List.map_cons, Within, if_pos separator]
        have later := ih 0
        rwa [Nat.zero_min] at later
      · have later := ih (column + 1)
        rw [min_eq_left within] at later
        rw [List.map_cons, Within, if_neg separator, min_eq_left within.le]
        exact ⟨within, later⟩
      · have later := ih (column + 1)
        rw [min_eq_right (by omega)] at later ⊢
        exact later

theorem capFrom_of_within {limit column : Nat} {items : List (Nat × Char)}
    (within : Within limit column (items.map Prod.snd)) : capFrom limit column items = items := by
  induction items generalizing column with
  | nil => rfl
  | cons item items ih =>
      rw [List.map_cons, Within] at within
      unfold capFrom
      split_ifs at within ⊢ with separator room
      · rw [ih within]
      · rw [ih within.2]
      · exact absurd within.1 room

theorem within_append {limit column : Nat} {first second : Text} :
    Within limit column (first ++ second) ↔ Within limit column first ∧ Within limit (endColumn column first) second := by
  induction first generalizing column with
  | nil => simp [Within, endColumn]
  | cons c first ih =>
      rw [List.cons_append, Within, Within, endColumn]
      split_ifs
      · exact ih
      · rw [ih, and_assoc]

theorem within_take {limit column : Nat} {text : Text} (within : Within limit column text) (count : Nat) :
    Within limit column (text.take count) := by
  rw [← List.take_append_drop count text] at within
  exact (within_append.mp within).1

theorem within_line {limit column : Nat} {line : Text} (single : lineSeparator ∉ line) (some : line ≠ []) :
    Within limit column line ↔ column + line.length ≤ limit := by
  induction line generalizing column with
  | nil => exact absurd rfl some
  | cons c rest ih =>
      have plain : c ≠ lineSeparator := fun same => single (same ▸ List.mem_cons_self)
      rw [Within, if_neg plain, List.length_cons]
      by_cases last : rest = []
      · subst last
        simp [Within]
      · rw [ih (fun member => single (List.mem_cons_of_mem _ member)) last]
        omega

theorem capLines_of_within {maxLineChars : ℤ} {text : Text} (within : Within maxLineChars.toNat 0 text) :
    capLines maxLineChars text = text := by
  have tagged : (text.map fun c => (0, c)).map Prod.snd = text := by
    rw [List.map_map]
    exact List.map_id text
  rw [← tagged] at within
  have capped := capLines_map maxLineChars (text.map fun c => (0, c))
  rw [capFrom_of_within within, tagged] at capped
  exact capped

/-! ### The result -/

theorem sanitizeOutput_cases (text : Text) (maxLineChars maxTotalChars : ℤ) :
    (sanitizeOutput text maxLineChars maxTotalChars = [] ∧ survivors text maxLineChars maxTotalChars = [] ∧
        MarkerFits text maxLineChars maxTotalChars) ∨
      ((survivors text maxLineChars maxTotalChars).map Prod.snd = sanitizeOutput text maxLineChars maxTotalChars ∧
        (sanitizeOutput text maxLineChars maxTotalChars).length ≤ maxTotalChars.toNat ∧
        MarkerFits text maxLineChars maxTotalChars) ∨
      (sanitizeOutput text maxLineChars maxTotalChars =
          (survivors text maxLineChars maxTotalChars).map Prod.snd ++ truncationMarker ∧
        (sanitizeOutput text maxLineChars maxTotalChars).length ≤ maxTotalChars.toNat ∧
        (MarkerFits text maxLineChars maxTotalChars ↔
          endColumn 0 ((survivors text maxLineChars maxTotalChars).map Prod.snd) + truncationMarker.length ≤
            maxLineChars.toNat)) := by
  have joined : capLines maxLineChars (stripControlSequences text) =
      (capFrom maxLineChars.toNat 0 (marked text)).map Prod.snd := by
    rw [strip_eq_marked, capLines_map]
  have width : truncationMarker.length = 14 := rfl
  unfold sanitizeOutput survivors MarkerFits
  rw [joined]
  simp only [List.length_map]
  by_cases positive : maxTotalChars ≤ 0
  · refine Or.inl ⟨if_pos (Or.inl positive), if_pos positive, Or.inr (Or.inl ?_)⟩
    omega
  · by_cases empty : text = []
    · have nothing : marked text = [] := by rw [empty, marked_nil]
      rw [nothing]
      refine Or.inl ⟨if_pos (Or.inr empty), ?_, Or.inl ?_⟩
      · simp [capFrom]
      · simp only [capFrom, List.length_nil]
        omega
    · rw [if_neg (not_or.mpr ⟨positive, empty⟩), if_neg positive]
      refine Or.inr ?_
      -- The cap on the lines is settled; what follows depends on the length alone.
      generalize capFrom maxLineChars.toNat 0 (marked text) = capped
      by_cases short : (capped.length : ℤ) ≤ maxTotalChars
      · rw [if_pos short, if_pos short, List.length_map]
        refine Or.inl ⟨rfl, by omega, Or.inl short⟩
      · rw [if_neg short, if_neg short]
        -- Where the marker would not fit the text is cut without one.
        by_cases narrow : maxTotalChars ≤ truncationMarker.length
        · rw [if_pos narrow, if_pos narrow]
          refine Or.inl ⟨List.map_take, ?_, Or.inr (Or.inl narrow)⟩
          exact List.length_take_le _ _
        · rw [if_neg narrow, if_neg narrow, List.map_take]
          refine Or.inr ⟨rfl, ?_, ?_⟩
          · rw [List.length_append, List.length_take, List.length_map]
            omega
          · constructor
            · rintro (bounded | bounded | room)
              · exact absurd bounded short
              · exact absurd bounded narrow
              · exact room
            · exact fun room => Or.inr (Or.inr room)

theorem survivors_sublist (text : Text) (maxLineChars maxTotalChars : ℤ) :
    (survivors text maxLineChars maxTotalChars).Sublist (capFrom maxLineChars.toNat 0 (marked text)) ∧
      ∃ count, survivors text maxLineChars maxTotalChars = (capFrom maxLineChars.toNat 0 (marked text)).take count := by
  have taken : ∃ count, survivors text maxLineChars maxTotalChars =
      (capFrom maxLineChars.toNat 0 (marked text)).take count := by
    unfold survivors
    generalize capFrom maxLineChars.toNat 0 (marked text) = capped
    simp only
    split_ifs
    · exact ⟨0, List.take_zero.symm⟩
    · exact ⟨capped.length, List.take_length.symm⟩
    · exact ⟨_, rfl⟩
    · exact ⟨_, rfl⟩
  obtain ⟨count, same⟩ := taken
  refine ⟨?_, count, same⟩
  rw [same]
  exact List.take_sublist count _

/-- Only a sequence inside another one can leave something behind. -/
theorem sequences_iff (text : Text) (maxLineChars maxTotalChars : ℤ) :
    (∀ item ∈ survivors text maxLineChars maxTotalChars, ¬InSequence text item.1) ↔
      ∀ item ∈ survivors text maxLineChars maxTotalChars, ¬Swallowed text item.1 := by
  constructor
  · intro outside item member swallowed
    obtain ⟨rest, there, -, inside⟩ := swallowed
    exact outside item member ⟨rest, there, inside⟩
  · intro unswallowed item member inside
    obtain ⟨rest, there, place⟩ := inside
    by_cases scanned : Scanned text (esc :: rest)
    · have kept := (survivors_sublist text maxLineChars maxTotalChars).1.subset member
      exact marked_outside scanned ((capFrom_sublist _ _ _).subset kept) place
    · exact unswallowed item member ⟨rest, there, scanned, place⟩

theorem survivors_within (text : Text) (maxLineChars maxTotalChars : ℤ) :
    Within maxLineChars.toNat 0 ((survivors text maxLineChars maxTotalChars).map Prod.snd) := by
  obtain ⟨count, same⟩ := (survivors_sublist text maxLineChars maxTotalChars).2
  have capped := within_capFrom maxLineChars.toNat 0 (marked text)
  rw [Nat.zero_min] at capped
  rw [same, List.map_take]
  exact within_take capped count

theorem kept_of_survivor {text : Text} {maxLineChars maxTotalChars : ℤ} {c : Char}
    (member : c ∈ (survivors text maxLineChars maxTotalChars).map Prod.snd) : keepsCharacter c = true := by
  obtain ⟨item, there, same⟩ := List.mem_map.mp member
  have kept := (capFrom_sublist _ _ _).subset ((survivors_sublist text maxLineChars maxTotalChars).1.subset there)
  rw [← same]
  exact (mem_marked kept).2

theorem marker_kept : ∀ c ∈ truncationMarker, keepsCharacter c = true := by
  decide

theorem marker_single : lineSeparator ∉ truncationMarker := by
  decide

/-- A result within its caps is not changed again. -/
theorem sanitizeOutput_of_within {result : Text} {maxLineChars maxTotalChars : ℤ}
    (kept : ∀ c ∈ result, keepsCharacter c = true) (total : result.length ≤ maxTotalChars.toNat)
    (within : Within maxLineChars.toNat 0 result) : sanitizeOutput result maxLineChars maxTotalChars = result := by
  unfold sanitizeOutput
  rw [strip_of_kept kept, capLines_of_within within]
  by_cases nothing : maxTotalChars ≤ 0 ∨ result = []
  · rw [if_pos nothing]
    rcases nothing with none | empty
    · have zero : result.length = 0 := by omega
      exact (List.length_eq_zero_iff.mp zero).symm
    · exact empty.symm
  · obtain ⟨positive, -⟩ := not_or.mp nothing
    have short : (result.length : ℤ) ≤ maxTotalChars := by omega
    rw [if_neg nothing]
    exact if_pos short

/-- The promises are kept where the marker fits and no sequence inside another one leaves something behind. -/
theorem sanitized_iff (text : Text) (maxLineChars maxTotalChars : ℤ) :
    Sanitized text maxLineChars maxTotalChars (sanitizeOutput text maxLineChars maxTotalChars) ↔
      MarkerFits text maxLineChars maxTotalChars ∧
        ∀ item ∈ survivors text maxLineChars maxTotalChars, ¬Swallowed text item.1 := by
  rw [← sequences_iff]
  have within := survivors_within text maxLineChars maxTotalChars
  have shown : ∃ marker, (marker = [] ∨ marker = truncationMarker) ∧
      sanitizeOutput text maxLineChars maxTotalChars =
        (survivors text maxLineChars maxTotalChars).map Prod.snd ++ marker ∧
      (sanitizeOutput text maxLineChars maxTotalChars).length ≤ maxTotalChars.toNat ∧
      (Within maxLineChars.toNat 0 (sanitizeOutput text maxLineChars maxTotalChars) ↔
        MarkerFits text maxLineChars maxTotalChars) := by
    rcases sanitizeOutput_cases text maxLineChars maxTotalChars with ⟨none, empty, fits⟩ | ⟨same, total, fits⟩ |
      ⟨same, total, fits⟩
    · rw [none, empty]
      exact ⟨[], Or.inl rfl, rfl, Nat.zero_le _, iff_of_true trivial fits⟩
    · rw [same] at within
      exact ⟨[], Or.inl rfl, by rw [same, List.append_nil], total, iff_of_true within fits⟩
    · refine ⟨truncationMarker, Or.inr rfl, same, total, ?_⟩
      rw [same, within_append, within_line marker_single (by decide), fits]
      exact and_iff_right within
  obtain ⟨marker, kind, same, total, lines⟩ := shown
  have kept : ∀ c ∈ sanitizeOutput text maxLineChars maxTotalChars, keepsCharacter c = true := by
    intro c member
    rw [same] at member
    rcases List.mem_append.mp member with survived | added
    · exact kept_of_survivor survived
    · rcases kind with none | some
      · rw [none] at added
        cases added
      · rw [some] at added
        exact marker_kept c added
  constructor
  · intro sanitized
    exact ⟨lines.mp (lines_within.mp sanitized.lines), sanitized.sequences⟩
  · rintro ⟨fits, outside⟩
    have bounded := lines.mpr fits
    exact ⟨⟨marker, kind, same⟩, fun c member => keepsCharacter_iff.mp (kept c member), outside, total,
      lines_within.mpr bounded, sanitizeOutput_of_within kept total bounded⟩

/-- Three full lines of which a part and the marker make one line, and a colour code after a second ESC. -/
theorem sanitized_fails :
    (¬Sanitized "xxxxxxxxxx\nxxxxxxxxxx\nxxxxxxxxxx".toList 10 20
      (sanitizeOutput "xxxxxxxxxx\nxxxxxxxxxx\nxxxxxxxxxx".toList 10 20)) ∧
      ¬Sanitized "\x1b\x1b[m".toList 512 4096 (sanitizeOutput "\x1b\x1b[m".toList 512 4096) := by
  constructor
  · intro sanitized
    have stripped : stripControlSequences "xxxxxxxxxx\nxxxxxxxxxx\nxxxxxxxxxx".toList =
        "xxxxxxxxxx\nxxxxxxxxxx\nxxxxxxxxxx".toList := strip_of_kept (by decide)
    have made : sanitizeOutput "xxxxxxxxxx\nxxxxxxxxxx\nxxxxxxxxxx".toList 10 20 =
        "xxxxxx...[truncated]".toList := by
      rw [sanitizeOutput, stripped]
      decide
    have lines := sanitized.lines
    rw [made] at lines
    exact absurd (lines "xxxxxx...[truncated]".toList (by decide)) (by decide)
  · intro sanitized
    have kept : marked "\x1b\x1b[m".toList = [(2, '['), (1, 'm')] := by
      refine (marked_esc _).trans ?_
      refine (marked_cons (by decide) _).trans ?_
      refine (if_pos (by decide)).trans ?_
      refine congrArg _ ((marked_cons (by decide) _).trans ?_)
      exact (if_pos (by decide)).trans (congrArg _ marked_nil)
    have survived : (2, '[') ∈ survivors "\x1b\x1b[m".toList 512 4096 := by
      rw [survivors, kept]
      decide
    exact sanitized.sequences _ survived ⟨"[m".toList, by decide, by decide, by decide⟩

end PhysicalAiStudio.Remote.Sanitize
