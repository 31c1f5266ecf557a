import Mathlib.Data.Nat.Digits.Lemmas
import Mathlib.Data.List.DropRight

/-! Text as a list of characters, with the operations of Python's strings.

White space, line boundaries and decimal digits are those of Python's Unicode database.
-/

set_option autoImplicit false

namespace PhysicalAiStudio.Strings

abbrev Text := List Char

instance lawfulText : LawfulBEq Text := inferInstance

/-- Decided along the text, not along the alphabet. -/
instance decidableForallMem (text : Text) (p : Char → Prop) [DecidablePred p] : Decidable (∀ c ∈ text, p c) :=
  List.decidableBAll p text

def isSpace (c : Char) : Bool :=
  (9 ≤ c.toNat && c.toNat ≤ 13) || (28 ≤ c.toNat && c.toNat ≤ 32) || c.toNat = 0x85 || c.toNat = 0xa0 ||
    c.toNat = 0x1680 || (0x2000 ≤ c.toNat && c.toNat ≤ 0x200a) || c.toNat = 0x2028 || c.toNat = 0x2029 ||
    c.toNat = 0x202f || c.toNat = 0x205f || c.toNat = 0x3000

def stripOf (kind : Char → Bool) (text : Text) : Text := (text.dropWhile kind).rdropWhile kind

def strip (text : Text) : Text := stripOf isSpace text

/-- The characters that `str.splitlines` ends a line at. -/
def isBoundary (c : Char) : Bool :=
  (10 ≤ c.toNat && c.toNat ≤ 13) || (28 ≤ c.toNat && c.toNat ≤ 30) || c.toNat = 0x85 || c.toNat = 0x2028 ||
    c.toNat = 0x2029

/-- `str.splitlines` of a text without carriage returns, after the beginning of a line. -/
def splitlinesFrom (line : Text) : Text → List Text
  | [] => if line = [] then [] else [line]
  | c :: rest => if isBoundary c then line :: splitlinesFrom [] rest else splitlinesFrom (line ++ [c]) rest

def splitlines (text : Text) : List Text := splitlinesFrom [] text

/-- What the text layer of a file makes of its line ends, where a carriage return may stand before. -/
def newlinesFrom (returned : Bool) : Text → Text
  | [] => []
  | c :: rest =>
    if c = '\r' then '\n' :: newlinesFrom true rest
    else if c = '\n' ∧ returned then newlinesFrom false rest
    else c :: newlinesFrom false rest

def universalNewlines (raw : Text) : Text := newlinesFrom false raw

def zeros : List Nat :=
  [0x30, 0x660, 0x6f0, 0x7c0, 0x966, 0x9e6, 0xa66, 0xae6, 0xb66, 0xbe6, 0xc66, 0xce6, 0xd66, 0xde6, 0xe50, 0xed0, 0xf20,
    0x1040, 0x1090, 0x17e0, 0x1810, 0x1946, 0x19d0, 0x1a80, 0x1a90, 0x1b50, 0x1bb0, 0x1c40, 0x1c50, 0xa620, 0xa8d0,
    0xa900, 0xa9d0, 0xa9f0, 0xaa50, 0xabf0, 0xff10, 0x104a0, 0x10d30, 0x11066, 0x110f0, 0x11136, 0x111d0, 0x112f0,
    0x11450, 0x114d0, 0x11650, 0x116c0, 0x11730, 0x118e0, 0x11950, 0x11c50, 0x11d50, 0x11da0, 0x11f50, 0x16a60, 0x16ac0,
    0x16b50, 0x1d7ce, 0x1d7d8, 0x1d7e2, 0x1d7ec, 0x1d7f6, 0x1e140, 0x1e2f0, 0x1e4f0, 0x1e950, 0x1fbf0]

def digit (c : Char) : Option Nat :=
  (zeros.find? fun first => first ≤ c.toNat && c.toNat < first + 10).map fun first => c.toNat - first

def numeralFrom (value : Nat) : Text → Option Nat
  | [] => some value
  | '_' :: c :: rest => (digit c).bind fun d => numeralFrom (10 * value + d) rest
  | c :: rest => (digit c).bind fun d => numeralFrom (10 * value + d) rest

def numeral : Text → Option Nat
  | [] => none
  | c :: rest =>
    if 4300 < ((c :: rest).filter (· ≠ '_')).length then none else (digit c).bind fun d => numeralFrom d rest

/-- The white space around a number; the separators 28 to 31 are none to `int`. -/
def isNumberSpace (c : Char) : Bool := isSpace c && !(28 ≤ c.toNat && c.toNat ≤ 31)

/-- `int` of a text; `none` where it raises `ValueError`. -/
def int (text : Text) : Option Int :=
  match stripOf isNumberSpace text with
  | '-' :: rest => (numeral rest).map fun value => -(value : Int)
  | '+' :: rest => (numeral rest).map Int.ofNat
  | rest => (numeral rest).map Int.ofNat

/-- The characters that are digits to `str.isdigit` and not to `int`. -/
def otherDigits : List (Nat × Nat) :=
  [(0xb2, 0xb3), (0xb9, 0xb9), (0x1369, 0x1371), (0x19da, 0x19da), (0x2070, 0x2070), (0x2074, 0x2079), (0x2080, 0x2089),
    (0x2460, 0x2468), (0x2474, 0x247c), (0x2488, 0x2490), (0x24ea, 0x24ea), (0x24f5, 0x24fd), (0x24ff, 0x24ff),
    (0x2776, 0x277e), (0x2780, 0x2788), (0x278a, 0x2792), (0x10a40, 0x10a43), (0x10e60, 0x10e68), (0x11052, 0x1105a),
    (0x1f100, 0x1f10a)]

def isdigit (text : Text) : Bool :=
  text ≠ [] && text.all fun c =>
    (digit c).isSome || otherDigits.any fun range => range.1 ≤ c.toNat && c.toNat ≤ range.2

def decimal (value : Nat) : Text :=
  if value = 0 then ['0'] else (Nat.digits 10 value).reverse.map Nat.digitChar

/-! ### Stripping -/

theorem stripOf_append {kind : Char → Bool} {before text : Text} (outside : ∀ c ∈ before, kind c = true)
    (starts : ∀ c ∈ text.head?, kind c = false) (ends : ∀ c ∈ text.getLast?, kind c = false) :
    stripOf kind (before ++ text) = text := by
  have kept : text.dropWhile kind = text := by
    cases text with
    | nil => rfl
    | cons c rest => simp [List.dropWhile, starts c rfl]
  rw [stripOf, List.dropWhile_append_of_pos outside, kept, List.rdropWhile_eq_self_iff]
  intro nonempty
  simpa using ends (text.getLast nonempty) (List.getLast?_eq_getLast_of_ne_nil nonempty)

theorem stripOf_self {kind : Char → Bool} {text : Text} (starts : ∀ c ∈ text.head?, kind c = false)
    (ends : ∀ c ∈ text.getLast?, kind c = false) : stripOf kind text = text :=
  stripOf_append (List.forall_mem_nil _) starts ends

theorem stripOf_stripOf (kind : Char → Bool) (text : Text) : stripOf kind (stripOf kind text) = stripOf kind text := by
  apply stripOf_self
  · intro c member
    unfold stripOf at member
    have first : (text.dropWhile kind).head? = some c := by
      obtain ⟨after, whole⟩ := List.rdropWhile_prefix kind (text.dropWhile kind)
      rw [← whole, List.head?_append, member]
      rfl
    have kept := List.head?_dropWhile_not kind text
    rw [first] at kept
    exact kept
  · intro c member
    obtain ⟨nonempty, rfl⟩ := List.mem_getLast?_eq_getLast member
    exact Bool.eq_false_iff.mpr (List.rdropWhile_last_not kind _ nonempty)

/-! ### Lines -/

/-- A line end between two texts ends the last line of the first, which may have ended before. -/
theorem splitlinesFrom_append (line before : Text) :
    ∃ blanks : List Text, (∀ blank ∈ blanks, blank = []) ∧
      ∀ after, splitlinesFrom line (before ++ '\n' :: after) =
        splitlinesFrom line before ++ blanks ++ splitlines after := by
  induction before generalizing line with
  | nil =>
    by_cases empty : line = []
    · refine ⟨[[]], by simp, fun after => ?_⟩
      simp [splitlinesFrom, splitlines, isBoundary, empty]
    · refine ⟨[], by simp, fun after => ?_⟩
      simp [splitlinesFrom, splitlines, isBoundary, empty]
  | cons c before ih =>
    simp only [List.cons_append, splitlinesFrom]
    split
    · obtain ⟨blanks, empty, same⟩ := ih []
      exact ⟨blanks, empty, fun after => by rw [same, List.cons_append, List.cons_append]⟩
    · exact ih (line ++ [c])

theorem newlinesFrom_append (returned : Bool) (raw : Text) :
    (∀ after, newlinesFrom returned (raw ++ '\n' :: after) = newlinesFrom returned raw ++ '\n' :: universalNewlines after) ∨
      (raw = [] ∧ returned = true ∨ ∃ before, newlinesFrom returned raw = before ++ ['\n']) ∧
        ∀ after, newlinesFrom returned (raw ++ '\n' :: after) = newlinesFrom returned raw ++ universalNewlines after := by
  induction raw generalizing returned with
  | nil =>
    cases returned with
    | false => exact .inl fun after => rfl
    | true => exact .inr ⟨.inl ⟨rfl, rfl⟩, fun after => rfl⟩
  | cons c raw ih =>
    simp only [List.cons_append, newlinesFrom]
    split
    · obtain same | ⟨ends, same⟩ := ih true
      · exact .inl fun after => by rw [same, List.cons_append]
      · refine .inr ⟨.inr ?_, fun after => by rw [same, List.cons_append]⟩
        obtain ⟨rfl, _⟩ | ⟨before, ends⟩ := ends
        · exact ⟨[], rfl⟩
        · exact ⟨'\n' :: before, by rw [ends, List.cons_append]⟩
    · split
      · next both =>
        obtain same | ⟨ends, same⟩ := ih false
        · exact .inl same
        · refine .inr ⟨?_, same⟩
          obtain ⟨_, false⟩ | ⟨before, ends⟩ := ends
          · cases false
          · exact .inr ⟨before, ends⟩
      · obtain same | ⟨ends, same⟩ := ih false
        · exact .inl fun after => by rw [same, List.cons_append]
        · refine .inr ⟨.inr ?_, fun after => by rw [same, List.cons_append]⟩
          obtain ⟨_, false⟩ | ⟨before, ends⟩ := ends
          · cases false
          · exact ⟨c :: before, by rw [ends, List.cons_append]⟩

theorem splitlines_append (raw after : Text) :
    ∃ blanks : List Text, (∀ blank ∈ blanks, blank = []) ∧
      splitlines (universalNewlines (raw ++ '\n' :: after)) =
        splitlines (universalNewlines raw) ++ blanks ++ splitlines (universalNewlines after) := by
  obtain same | ⟨⟨_, impossible⟩ | ⟨before, ends⟩, same⟩ := newlinesFrom_append false raw
  · obtain ⟨blanks, empty, lines⟩ := splitlinesFrom_append [] (universalNewlines raw)
    exact ⟨blanks, empty, by rw [universalNewlines, same]; exact lines _⟩
  · cases impossible
  · obtain ⟨blanks, empty, lines⟩ := splitlinesFrom_append [] before
    have text : universalNewlines raw = before ++ ['\n'] := ends
    have appended : universalNewlines (raw ++ '\n' :: after) = before ++ '\n' :: universalNewlines after := by
      rw [universalNewlines, same, ends, List.append_assoc]
      rfl
    refine ⟨[], by simp, ?_⟩
    rw [appended, text]
    unfold splitlines at lines ⊢
    rw [lines, lines []]
    simp [splitlinesFrom]

/-- A line without a boundary is the first of what follows its end. -/
theorem splitlines_cons {line : Text} (whole : ∀ c ∈ line, isBoundary c = false) (after : Text) :
    splitlines (line ++ '\n' :: after) = line :: splitlines after := by
  have gathered : ∀ (start : Text), splitlinesFrom start (line ++ '\n' :: after) = (start ++ line) :: splitlines after := by
    induction line with
    | nil =>
      intro start
      simp [splitlinesFrom, splitlines, isBoundary]
    | cons c line ih =>
      intro start
      have plain := whole c List.mem_cons_self
      rw [List.cons_append, splitlinesFrom, plain, if_neg Bool.false_ne_true,
        ih (fun d member => whole d (List.mem_cons_of_mem _ member)), List.append_assoc]
      rfl
  exact gathered []

theorem universalNewlines_self {text : Text} (none : ∀ c ∈ text, c ≠ '\r') : universalNewlines text = text := by
  have kept : ∀ text, (∀ c ∈ text, c ≠ '\r') → newlinesFrom false text = text := by
    intro text none
    induction text with
    | nil => rfl
    | cons c rest ih =>
      rw [newlinesFrom, if_neg (none c List.mem_cons_self), if_neg (by simp),
        ih fun d member => none d (List.mem_cons_of_mem _ member)]
  exact kept text none

/-! ### Numbers -/

theorem digit_digitChar : ∀ value < 10, digit (Nat.digitChar value) = some value := by decide

theorem digitChar_plain : ∀ value < 10, Nat.digitChar value ≠ '_' ∧ Nat.digitChar value ≠ '-' ∧
    Nat.digitChar value ≠ '+' ∧ isSpace (Nat.digitChar value) = false := by decide

theorem numeralFrom_digits (digits : List Nat) (small : ∀ value ∈ digits, value < 10) (start : Nat) :
    numeralFrom start (digits.map Nat.digitChar) = some (digits.foldl (fun value d => 10 * value + d) start) := by
  induction digits generalizing start with
  | nil => rfl
  | cons first digits ih =>
    have here := small first List.mem_cons_self
    rw [List.map_cons, numeralFrom, digit_digitChar first here, Option.bind_some,
      ih (fun value member => small value (List.mem_cons_of_mem _ member)), List.foldl_cons]
    intro _ _ same _
    exact (digitChar_plain first here).1 same

theorem decimal_cons {value : Nat} (positive : 0 < value) :
    ∃ first rest, (Nat.digits 10 value).reverse = first :: rest ∧
      decimal value = Nat.digitChar first :: rest.map Nat.digitChar ∧ ∀ d ∈ first :: rest, d < 10 := by
  cases digits : (Nat.digits 10 value).reverse with
  | nil =>
    rw [List.reverse_eq_nil_iff, Nat.digits_eq_nil_iff_eq_zero] at digits
    omega
  | cons first rest =>
    refine ⟨first, rest, rfl, ?_, ?_⟩
    · rw [decimal, if_neg (by omega), digits, List.map_cons]
    · intro d member
      rw [← digits] at member
      exact Nat.digits_lt_base (by decide) (List.mem_reverse.mp member)

theorem decimal_digits {value : Nat} {c : Char} (member : c ∈ decimal value) : ∃ d < 10, c = Nat.digitChar d := by
  by_cases positive : 0 < value
  · obtain ⟨first, rest, _, text, small⟩ := decimal_cons positive
    rw [text, ← List.map_cons, List.mem_map] at member
    obtain ⟨d, used, same⟩ := member
    exact ⟨d, small d used, same.symm⟩
  · have zero : value = 0 := by omega
    subst zero
    exact ⟨0, by omega, List.mem_singleton.mp member⟩

theorem isdigit_decimal (value : Nat) : isdigit (decimal value) = true := by
  rw [isdigit, Bool.and_eq_true, decide_eq_true_eq, List.all_eq_true]
  constructor
  · by_cases positive : 0 < value
    · obtain ⟨first, rest, _, text, _⟩ := decimal_cons positive
      simp [text]
    · simp [decimal, show value = 0 by omega]
  · intro c member
    obtain ⟨d, small, rfl⟩ := decimal_digits member
    simp [digit_digitChar d small]

/-- Around the digits of a number there is neither white space nor a sign. -/
theorem int_decimal_numeral {value : Nat} (positive : 0 < value) :
    int (decimal value) = (numeral (decimal value)).map Int.ofNat := by
  obtain ⟨first, rest, digits, text, small⟩ := decimal_cons positive
  have here := small first List.mem_cons_self
  have spaces : ∀ d < 10, isNumberSpace (Nat.digitChar d) = false := fun d small => by
    rw [isNumberSpace, (digitChar_plain d small).2.2.2, Bool.false_and]
  have stripped : stripOf isNumberSpace (decimal value) = decimal value := by
    refine stripOf_self ?_ ?_
    · intro c member
      rw [text] at member
      cases member
      exact spaces first here
    · intro c member
      have known := List.mem_of_getLast? member
      rw [text, ← List.map_cons, List.mem_map] at known
      obtain ⟨d, used, rfl⟩ := known
      exact spaces d (small d used)
  rw [int, stripped]
  split
  · next same => exact absurd (List.cons.inj (text.symm.trans same)).1 (digitChar_plain first here).2.1
  · next same => exact absurd (List.cons.inj (text.symm.trans same)).1 (digitChar_plain first here).2.2.1
  · rfl

theorem int_decimal {value : Nat} (positive : 0 < value) (short : (Nat.digits 10 value).length ≤ 4300) :
    int (decimal value) = some (value : Int) := by
  obtain ⟨first, rest, digits, text, small⟩ := decimal_cons positive
  have value_eq : (Nat.digits 10 value).reverse.foldl (fun value d => 10 * value + d) 0 = value := by
    rw [List.foldl_reverse]
    calc (Nat.digits 10 value).foldr (fun d value => 10 * value + d) 0
        = Nat.ofDigits 10 (Nat.digits 10 value) := by
          rw [Nat.ofDigits_eq_foldr]
          congr 1
          funext d value
          simp [Nat.add_comm]
      _ = value := Nat.ofDigits_digits 10 value
  rw [digits] at value_eq
  have counted : ((decimal value).filter (· ≠ '_')).length ≤ 4300 := by
    refine (List.length_filter_le _ _).trans ?_
    rw [text, ← List.map_cons, ← digits, List.length_map, List.length_reverse]
    exact short
  have parsed : numeral (decimal value) = some value := by
    rw [text] at counted ⊢
    rw [numeral, if_neg (by omega), digit_digitChar first (small first List.mem_cons_self), Option.bind_some,
      numeralFrom_digits]
    · simpa using value_eq
    · exact fun d member => small d (List.mem_cons_of_mem _ member)
  rw [int_decimal_numeral positive, parsed]
  rfl

/-- What `int` reads from what `str` writes is the number; `int` refuses more than 4300 digits. -/
theorem int_decimal_eq {value : Nat} {read : Int} (parsed : int (decimal value) = some read) : read = value := by
  by_cases positive : 0 < value
  · by_cases short : (Nat.digits 10 value).length ≤ 4300
    · rw [int_decimal positive short] at parsed
      exact (Option.some.inj parsed).symm
    · obtain ⟨first, rest, digits, text, small⟩ := decimal_cons positive
      have kept : (decimal value).filter (· ≠ '_') = decimal value := by
        rw [List.filter_eq_self]
        intro c member
        rw [text, ← List.map_cons, List.mem_map] at member
        obtain ⟨d, used, rfl⟩ := member
        simp [(digitChar_plain d (small d used)).1]
      have long : 4300 < ((decimal value).filter (· ≠ '_')).length := by
        rw [kept, text, ← List.map_cons, ← digits, List.length_map, List.length_reverse]
        omega
      rw [int_decimal_numeral positive] at parsed
      rw [text] at long parsed
      rw [numeral, if_pos long] at parsed
      cases parsed
  · have zero : value = 0 := by omega
    subst zero
    cases parsed
    rfl

end PhysicalAiStudio.Strings
