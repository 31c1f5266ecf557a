import PhysicalAiStudio.Strings.Text

/-! Text that is read while it is being written.

Any number of its bytes may be there, and a reader at the end of a file gets what there is
as its line. A reader that finds the end of a line in what it has not read yet gets that
line whole.
-/

set_option autoImplicit false

namespace PhysicalAiStudio.Strings

/-- The characters that are whole in the first bytes of a text, and whether the bytes end inside one more. -/
def shown : Text → Nat → Text × Bool
  | [], _ => ([], false)
  | c :: rest, bytes =>
    if c.utf8Size ≤ bytes then (c :: (shown rest (bytes - c.utf8Size)).1, (shown rest (bytes - c.utf8Size)).2)
    else ([], bytes ≠ 0)

/-- A line, ended by a newline however it was ended in the file, with the characters it took there. -/
structure LineRead where
  line : Text
  taken : Nat
  ended : Bool
deriving DecidableEq

def firstLine : Text → LineRead
  | [] => ⟨[], 0, false⟩
  | c :: rest =>
    if c = '\n' then ⟨['\n'], 1, true⟩
    else if c = '\r' then
      -- A carriage return at the end of the file ends the line, and what it was the half of is a line of its own.
      ⟨['\n'], if rest.head? = some '\n' then 2 else 1, rest ≠ []⟩
    else ⟨c :: (firstLine rest).line, (firstLine rest).taken + 1, (firstLine rest).ended⟩

/-- `readline` of a file, of which some is there and may end inside a character; `none` where it raises
`UnicodeDecodeError`. -/
def readline (seen : Text × Bool) (position : Nat) : Option LineRead :=
  if seen.2 ∧ (firstLine (seen.1.drop position)).ended = false then none else some (firstLine (seen.1.drop position))

/-- `str.splitlines(keepends=True)`, after the beginning of a line. -/
def keptLinesFrom (line : Text) : Text → List Text
  | [] => if line = [] then [] else [line]
  | '\r' :: '\n' :: rest => (line ++ ['\r', '\n']) :: keptLinesFrom [] rest
  | c :: rest =>
    if isBoundary c then (line ++ [c]) :: keptLinesFrom [] rest else keptLinesFrom (line ++ [c]) rest

def keptLines (text : Text) : List Text := keptLinesFrom [] text

inductive LineEnd where
  | newline
  | returned
deriving DecidableEq

def LineEnd.text : LineEnd → Text
  | newline => ['\n']
  | returned => ['\r', '\n']

def IsLine (body : Text) : Prop := ∀ c ∈ body, c ≠ '\n' ∧ c ≠ '\r'

def IsBody (body : Text) : Prop := ∀ c ∈ body, isBoundary c = false

instance (body : Text) : Decidable (IsBody body) := inferInstanceAs (Decidable (∀ c ∈ body, isBoundary c = false))

def fileText (ending : LineEnd) (bodies : List Text) : Text := bodies.flatMap fun body => body ++ ending.text

/-! ### What is there -/

theorem shown_isPrefix (text : Text) (bytes : Nat) : (shown text bytes).1 <+: text := by
  induction text generalizing bytes with
  | nil => exact List.prefix_rfl
  | cons c rest ih =>
    unfold shown
    split
    · exact (List.prefix_cons_inj c).mpr (ih _)
    · exact List.nil_prefix

theorem shown_mono (text : Text) {fewer more : Nat} (grows : fewer ≤ more) :
    (shown text fewer).1 <+: (shown text more).1 := by
  induction text generalizing fewer more with
  | nil => exact List.prefix_rfl
  | cons c rest ih =>
    unfold shown
    split
    · next fits =>
      rw [if_pos (by omega)]
      exact (List.prefix_cons_inj c).mpr (ih (by omega))
    · exact List.nil_prefix

/-! ### One line -/

theorem isBoundary_newline : isBoundary '\n' = true := rfl

theorem isBoundary_return : isBoundary '\r' = true := rfl

theorem IsBody.isLine {body : Text} (whole : IsBody body) : IsLine body := by
  intro c member
  have none := whole c member
  constructor
  · rintro rfl
    cases none.symm.trans isBoundary_newline
  · rintro rfl
    cases none.symm.trans isBoundary_return

theorem firstLine_append {body : Text} (whole : IsLine body) (ending : LineEnd) (rest : Text) :
    firstLine (body ++ ending.text ++ rest) = ⟨body ++ ['\n'], (body ++ ending.text).length, true⟩ := by
  induction body with
  | nil => cases ending <;> rfl
  | cons c body ih =>
    obtain ⟨newline, returned⟩ := whole c List.mem_cons_self
    rw [List.cons_append, List.cons_append, firstLine, if_neg newline, if_neg returned,
      ih fun d member => whole d (List.mem_cons_of_mem _ member)]
    rfl

theorem keptLinesFrom_body {body : Text} (whole : IsBody body) (line rest : Text) :
    keptLinesFrom line (body ++ rest) = keptLinesFrom (line ++ body) rest := by
  induction body generalizing line with
  | nil => rw [List.nil_append, List.append_nil]
  | cons c body ih =>
    have plain := whole c List.mem_cons_self
    rw [List.cons_append, keptLinesFrom, plain, if_neg Bool.false_ne_true,
      ih fun d member => whole d (List.mem_cons_of_mem _ member), List.append_assoc, List.singleton_append]
    intro _ same _
    exact (whole.isLine c List.mem_cons_self).2 same

theorem keptLines_append {body : Text} (whole : IsBody body) (ending : LineEnd) (rest : Text) :
    keptLines (body ++ ending.text ++ rest) = (body ++ ending.text) :: keptLines rest := by
  rw [keptLines, List.append_assoc, keptLinesFrom_body whole]
  cases ending <;> simp [LineEnd.text, keptLinesFrom, keptLines, isBoundary]

theorem keptLines_body {body : Text} (whole : IsBody body) : keptLines body = if body = [] then [] else [body] := by
  have read := keptLinesFrom_body whole [] []
  rw [List.append_nil, List.nil_append] at read
  rw [keptLines, read, keptLinesFrom]

/-- What is there of a line that is not whole is the last line, and does not end as a whole line does. -/
theorem keptLines_partial {body part rest : Text} (whole : IsBody body) {ending : LineEnd}
    (split : body ++ ending.text = part ++ rest) (lacks : rest ≠ []) :
    keptLines part = (if part = [] then [] else [part]) ∧ part.getLast? ≠ some '\n' := by
  obtain inside | ⟨rfl, rfl⟩ : IsBody part ∨ (part = body ++ ['\r'] ∧ ending = .returned) := by
    obtain ⟨more, same, ends⟩ | ⟨more, same, _⟩ := List.append_eq_append_iff.mp split
    · cases more with
      | nil =>
        rw [List.append_nil] at same
        exact .inl (same ▸ whole)
      | cons c more =>
        cases ending with
        | newline =>
          rw [LineEnd.text, List.cons_append, List.cons.injEq] at ends
          exact absurd (List.append_eq_nil_iff.mp ends.2.symm).2 lacks
        | returned =>
          rw [LineEnd.text, List.cons_append, List.cons.injEq] at ends
          cases more with
          | nil => exact .inr ⟨by rw [same, ends.1], rfl⟩
          | cons d more =>
            rw [List.cons_append, List.cons.injEq] at ends
            exact absurd (List.append_eq_nil_iff.mp ends.2.2.symm).2 lacks
    · exact .inl fun c member => whole c (same ▸ List.mem_append_left _ member)
  · refine ⟨keptLines_body inside, fun last => ?_⟩
    exact (inside.isLine _ (List.mem_of_getLast? last)).1 rfl
  · constructor
    · rw [keptLines, keptLinesFrom_body whole]
      simp [keptLinesFrom, isBoundary]
    · simp

/-! ### The lines of a file -/

variable {ending : LineEnd} {bodies : List Text} {seen : Text}

@[simp] theorem fileText_nil : fileText ending [] = [] := rfl

theorem fileText_cons (body : Text) (rest : List Text) :
    fileText ending (body :: rest) = body ++ ending.text ++ fileText ending rest := rfl

theorem fileText_append (before after : List Text) :
    fileText ending (before ++ after) = fileText ending before ++ fileText ending after :=
  List.flatMap_append

theorem count_line {body : Text} (line : IsLine body) : (body ++ ending.text).count '\n' = 1 := by
  have none : body.count '\n' = 0 := List.count_eq_zero_of_not_mem fun member => (line _ member).1 rfl
  rw [List.count_append, none]
  cases ending <;> rfl

theorem count_fileText (lines : ∀ body ∈ bodies, IsLine body) : (fileText ending bodies).count '\n' = bodies.length := by
  induction bodies with
  | nil => rfl
  | cons body rest ih =>
    rw [fileText_cons, List.count_append, count_line (lines body List.mem_cons_self),
      ih fun other member => lines other (List.mem_cons_of_mem _ member), List.length_cons, Nat.add_comm]

theorem line_whole {body part rest : Text} (line : IsLine body) (split : body ++ ending.text = part ++ rest)
    (newline : '\n' ∈ part) : rest = [] := by
  have counted := congrArg (List.count '\n') split
  rw [count_line line, List.count_append] at counted
  have here : 0 < part.count '\n' := List.count_pos_iff.mpr newline
  have lacks : '\n' ∉ rest := List.count_eq_zero.mp (by omega)
  cases last : rest.getLast? with
  | none => exact List.getLast?_eq_none_iff.mp last
  | some c =>
    have same := congrArg List.getLast? split
    rw [List.getLast?_append, List.getLast?_append, last] at same
    have ends : c = '\n' := by
      cases ending <;> exact (Option.some.inj same).symm
    exact absurd (ends ▸ List.mem_of_getLast? last) lacks

theorem shown_lines (there : seen <+: fileText ending bodies) :
    ∃ count part, count ≤ bodies.length ∧ seen = fileText ending (bodies.take count) ++ part ∧
      (part = [] ∨ ∃ body rest, bodies[count]? = some body ∧ body ++ ending.text = part ++ rest ∧ rest ≠ []) := by
  induction bodies generalizing seen with
  | nil => exact ⟨0, [], Nat.le_refl _, List.prefix_nil.mp there, .inl rfl⟩
  | cons body bodies ih =>
    obtain ⟨after, whole⟩ := there
    rw [fileText_cons] at whole
    obtain ⟨more, rfl, later⟩ | ⟨rest, split, _⟩ := List.append_eq_append_iff.mp whole.symm
    · obtain ⟨count, part, bound, same, next⟩ := ih ⟨after, later.symm⟩
      refine ⟨count + 1, part, Nat.succ_le_succ bound, ?_, next⟩
      rw [List.take_succ_cons, fileText_cons, List.append_assoc _ (fileText ending _), ← same]
    · by_cases lacks : rest = []
      · subst lacks
        refine ⟨1, [], by simp, ?_, .inl rfl⟩
        rw [List.append_nil] at split
        rw [List.take_succ_cons, List.take_zero, fileText_cons, split]
        simp
      · exact ⟨0, seen, Nat.zero_le _, rfl, .inr ⟨body, rest, rfl, split, lacks⟩⟩

theorem count_shown {count : Nat} {part : Text} (lines : ∀ body ∈ bodies, IsLine body) (bound : count ≤ bodies.length)
    (next : part = [] ∨ ∃ body rest, bodies[count]? = some body ∧ body ++ ending.text = part ++ rest ∧ rest ≠ []) :
    (fileText ending (bodies.take count) ++ part).count '\n' = count := by
  have earlier : (fileText ending (bodies.take count)).count '\n' = (bodies.take count).length :=
    count_fileText fun body member => lines body (List.mem_of_mem_take member)
  have none : part.count '\n' = 0 := by
    obtain rfl | ⟨body, rest, here, split, lacks⟩ := next
    · rfl
    · exact List.count_eq_zero_of_not_mem fun newline =>
        lacks (line_whole (lines body (List.mem_of_getElem? here)) split newline)
  rw [List.count_append, earlier, none, List.length_take, Nat.min_eq_left bound, Nat.add_zero]

theorem keptLines_shown (whole : ∀ body ∈ bodies, IsBody body) (there : seen <+: fileText ending bodies) :
    ∃ part, keptLines seen =
        (bodies.take (seen.count '\n')).map (fun body => body ++ ending.text) ++ (if part = [] then [] else [part]) ∧
      part.getLast? ≠ some '\n' := by
  obtain ⟨count, part, bound, rfl, next⟩ := shown_lines there
  rw [count_shown (fun body member => (whole body member).isLine) bound next]
  have last : keptLines part = (if part = [] then [] else [part]) ∧ part.getLast? ≠ some '\n' := by
    obtain rfl | ⟨body, rest, here, split, lacks⟩ := next
    · exact ⟨rfl, by simp⟩
    · exact keptLines_partial (whole body (List.mem_of_getElem? here)) split lacks
  have earlier : ∀ before : List Text, (∀ body ∈ before, IsBody body) →
      keptLines (fileText ending before ++ part) =
        before.map (fun body => body ++ ending.text) ++ (if part = [] then [] else [part]) := by
    intro before bodies
    induction before with
    | nil => exact last.1
    | cons body before ih =>
      rw [fileText_cons, List.append_assoc, keptLines_append (bodies body List.mem_cons_self),
        ih fun other member => bodies other (List.mem_cons_of_mem _ member), List.map_cons, List.cons_append]
  exact ⟨part, earlier _ fun body member => whole body (List.mem_of_mem_take member), last.2⟩

/-! ### Following a file -/

structure ReadTo (ending : LineEnd) (bodies : List Text) (seen : Text) (count position : Nat) : Prop where
  bound : count ≤ bodies.length
  there : fileText ending (bodies.take count) <+: seen
  place : position = (fileText ending (bodies.take count)).length

theorem ReadTo.start : ReadTo ending bodies seen 0 0 :=
  ⟨Nat.zero_le _, List.nil_prefix, rfl⟩

theorem ReadTo.mono {later : Text} {count position : Nat} (read : ReadTo ending bodies seen count position)
    (grows : seen <+: later) : ReadTo ending bodies later count position :=
  ⟨read.bound, read.there.trans grows, read.place⟩

theorem ReadTo.count_eq {count position : Nat} (read : ReadTo ending bodies seen count position)
    (lines : ∀ body ∈ bodies, IsLine body) (nothing : seen.drop position = []) : seen.count '\n' = count := by
  have length := List.drop_eq_nil_iff.mp nothing
  rw [read.place] at length
  rw [← read.there.eq_of_length_le length,
    count_fileText fun body member => lines body (List.mem_of_mem_take member), List.length_take,
    Nat.min_eq_left read.bound]

theorem ReadTo.next {seen : Text × Bool} {count position : Nat} (there : seen.1 <+: fileText ending bodies)
    (read : ReadTo ending bodies seen.1 count position) (lines : ∀ body ∈ bodies, IsLine body)
    (newline : '\n' ∈ seen.1.drop position) :
    ∃ body, bodies[count]? = some body ∧
      readline seen position = some ⟨body ++ ['\n'], (body ++ ending.text).length, true⟩ ∧
      ReadTo ending bodies seen.1 (count + 1) (position + (body ++ ending.text).length) := by
  obtain ⟨seen, torn⟩ := seen
  obtain ⟨bound, ⟨unread, whole⟩, place⟩ := read
  have rest : (seen, torn).1.drop position = unread := by
    rw [← whole, place, List.drop_left]
  have later : unread <+: fileText ending (bodies.drop count) := by
    have halves : fileText ending bodies =
        fileText ending (bodies.take count) ++ fileText ending (bodies.drop count) := by
      rw [← fileText_append, List.take_append_drop]
    rw [← whole, halves] at there
    exact (List.prefix_append_right_inj _).mp there
  rw [rest] at newline
  cases remaining : bodies.drop count with
  | nil =>
    rw [remaining, fileText_nil, List.prefix_nil] at later
    rw [later] at newline
    cases newline
  | cons body more =>
    have here : bodies[count]? = some body := by
      rw [← List.head?_drop, remaining]
      rfl
    have line := lines body (List.mem_of_getElem? here)
    obtain ⟨after, split⟩ := later
    rw [remaining, fileText_cons] at split
    -- The unread part starts with the whole next line: a newline is there, and no body holds one.
    obtain ⟨others, rfl⟩ : ∃ others, unread = body ++ ending.text ++ others := by
      obtain ⟨others, same, _⟩ | ⟨others, same, _⟩ := List.append_eq_append_iff.mp split.symm
      · exact ⟨others, same⟩
      · have none := line_whole line same newline
        subst none
        exact ⟨[], by rw [same, List.append_nil, List.append_nil]⟩
    have taken : bodies.take (count + 1) = bodies.take count ++ [body] := by
      rw [List.take_add_one, here]
      rfl
    have text : fileText ending (bodies.take (count + 1)) =
        fileText ending (bodies.take count) ++ (body ++ ending.text) := by
      rw [taken, fileText_append, fileText_cons, fileText_nil, List.append_nil]
    refine ⟨body, here, ?_, ?_, ?_, ?_⟩
    · rw [readline, rest, firstLine_append line, if_neg (by simp)]
    · obtain ⟨short, _⟩ := List.getElem?_eq_some_iff.mp here
      omega
    · rw [text, ← whole]
      exact ⟨others, by simp⟩
    · rw [text, place]
      exact List.length_append.symm

/-- A reader that finds nothing, not even the beginning of a character, reads nothing. -/
theorem readline_nothing {seen : Text × Bool} {position : Nat} (nothing : seen.1.drop position = [])
    (whole : seen.2 = false) : readline seen position = some ⟨[], 0, false⟩ := by
  rw [readline, whole, if_neg (by simp), nothing]
  rfl

theorem shown_append (text more : Text) (bytes : Nat) : (shown text bytes).1 <+: (shown (text ++ more) bytes).1 := by
  induction text generalizing bytes with
  | nil => exact List.nil_prefix
  | cons c rest ih =>
    rw [List.cons_append]
    unfold shown
    split
    · exact (List.prefix_cons_inj c).mpr (ih _)
    · exact List.nil_prefix

/-- A reader of a file to which lines are added. -/
theorem ReadTo.append {later : Text} {count position : Nat} (read : ReadTo ending bodies seen count position)
    (grows : seen <+: later) (more : List Text) : ReadTo ending (bodies ++ more) later count position := by
  obtain ⟨bound, there, place⟩ := read
  have same : (bodies ++ more).take count = bodies.take count := List.take_append_of_le_length bound
  refine ⟨by rw [List.length_append]; omega, ?_, ?_⟩
  · rw [same]
    exact there.trans grows
  · rw [same]
    exact place

end PhysicalAiStudio.Strings
