import Mathlib.Data.Char
import Mathlib.Data.List.Lex
import Mathlib.Data.List.Sort
import PhysicalAiStudio.Strings.Json

/-! Nested JSON values, the compact encoder, and what sorting the keys of every object is for.

The compact text determines the value it was written from. After the keys are sorted it
determines it up to the order of the members, which is no part of a Python `dict`.
-/

set_option autoImplicit false

namespace PhysicalAiStudio.Strings.Json

inductive Nested where
  | null
  | bool (value : Bool)
  | number (value : Number)
  | text (value : Text)
  | list (items : List Nested)
  | object (members : List (Text × Nested))

/-! ### The encoder -/

mutual
/-- `json.dumps` with the separators `(",", ":")`. -/
def compact : Nested → Text
  | .null => ['n', 'u', 'l', 'l']
  | .bool true => ['t', 'r', 'u', 'e']
  | .bool false => ['f', 'a', 'l', 's', 'e']
  | .number value => encodeNumber value
  | .text value => encodeString value
  | .list items => '[' :: (compactItems items ++ [']'])
  | .object members => openBrace :: (compactMembers members ++ [closeBrace])

def compactItems : List Nested → Text
  | [] => []
  | [item] => compact item
  | item :: rest => compact item ++ ',' :: compactItems rest

def compactMembers : List (Text × Nested) → Text
  | [] => []
  | [(key, value)] => encodeString key ++ ':' :: compact value
  | (key, value) :: rest => encodeString key ++ ':' :: (compact value ++ ',' :: compactMembers rest)
end

abbrev KeyLe (member other : Text × Nested) : Prop := member.1 ≤ other.1

mutual
/-- What `sort_keys=True` makes of a value. -/
def sortKeys : Nested → Nested
  | .list items => .list (sortItems items)
  | .object members => .object ((sortMembers members).insertionSort KeyLe)
  | .null => .null
  | .bool value => .bool value
  | .number value => .number value
  | .text value => .text value

def sortItems : List Nested → List Nested
  | [] => []
  | item :: rest => sortKeys item :: sortItems rest

def sortMembers : List (Text × Nested) → List (Text × Nested)
  | [] => []
  | (key, value) :: rest => (key, sortKeys value) :: sortMembers rest
end

/-- `json.dumps(value, sort_keys=True, separators=(",", ":"))`. -/
def canonical (value : Nested) : Text := compact (sortKeys value)

/-! ### Well-formed values, and when two are the same -/

/-- The `repr` of a finite float is a numeral with a fraction or an exponent. -/
def Number.Shown : Number → Prop
  | .float shown => IsNumber shown ∧ ∃ c ∈ shown, c = '.' ∨ c = 'e'
  | _ => True

mutual
/-- Every float is shown as `repr` shows it, and no object has a key twice. -/
def WellFormed : Nested → Prop
  | .number value => value.Shown
  | .list items => WellFormedItems items
  | .object members => (members.map Prod.fst).Nodup ∧ WellFormedMembers members
  | .null => True
  | .bool _ => True
  | .text _ => True

def WellFormedItems : List Nested → Prop
  | [] => True
  | item :: rest => WellFormed item ∧ WellFormedItems rest

def WellFormedMembers : List (Text × Nested) → Prop
  | [] => True
  | (_, value) :: rest => WellFormed value ∧ WellFormedMembers rest
end

mutual
/-- Equality of nested `list`s and `dict`s: a `dict` is compared key by key, in no order. -/
def Alike : Nested → Nested → Prop
  | .list items, .list others => AlikeItems items others
  | .object members, .object others => members.length = others.length ∧ AlikeMembers members others
  | .null, .null => True
  | .bool value, .bool other => value = other
  | .number value, .number other => value = other
  | .text value, .text other => value = other
  | _, _ => False

def AlikeItems : List Nested → List Nested → Prop
  | [], [] => True
  | item :: rest, other :: others => Alike item other ∧ AlikeItems rest others
  | _, _ => False

def AlikeMembers : List (Text × Nested) → List (Text × Nested) → Prop
  | [], _ => True
  | (key, value) :: rest, others => (∃ other, (key, other) ∈ others ∧ Alike value other) ∧ AlikeMembers rest others
end

/-! ### Strings are read back -/

def hexValue (c : Char) : Nat := if c.toNat < 58 then c.toNat - 48 else c.toNat - 87

theorem hexValue_hexDigit : ∀ value < 16, hexValue (hexDigit value) = value := by decide

def readUnit : Text → Option (Nat × Text)
  | a :: b :: c :: d :: rest => some (0x1000 * hexValue a + 0x100 * hexValue b + 0x10 * hexValue c + hexValue d, rest)
  | _ => none

/-- The character that an escape begins with, the backslash left out. -/
def readEscape : Text → Option (Char × Text)
  | [] => none
  | c :: rest =>
    if c = 'u' then
      (readUnit rest).bind fun unit =>
        -- A high surrogate takes the escape after it as the low one.
        if 0xd800 ≤ unit.1 ∧ unit.1 < 0xdc00 then
          (readUnit (unit.2.drop 2)).map fun low =>
            (Char.ofNat (0x10000 + 0x400 * (unit.1 - 0xd800) + (low.1 - 0xdc00)), low.2)
        else some (Char.ofNat unit.1, unit.2)
    else if c = 'n' then some ('\n', rest)
    else if c = 'r' then some ('\r', rest)
    else if c = 't' then some ('\t', rest)
    else if c = 'f' then some (Char.ofNat 0x0c, rest)
    else if c = 'b' then some (Char.ofNat 0x08, rest)
    else some (c, rest)

def readChar : Text → Option (Char × Text)
  | [] => none
  | c :: rest => if c = backslash then readEscape rest else some (c, rest)

theorem readUnit_unicodeEscape {unit : Nat} (small : unit < 0x10000) (rest : Text) :
    readUnit ((unicodeEscape unit).drop 2 ++ rest) = some (unit, rest) := by
  have first := hexValue_hexDigit (unit / 0x1000 % 16) (Nat.mod_lt _ (by omega))
  have second := hexValue_hexDigit (unit / 0x100 % 16) (Nat.mod_lt _ (by omega))
  have third := hexValue_hexDigit (unit / 0x10 % 16) (Nat.mod_lt _ (by omega))
  have fourth := hexValue_hexDigit (unit % 16) (Nat.mod_lt _ (by omega))
  have whole : 0x1000 * (unit / 0x1000 % 16) + 0x100 * (unit / 0x100 % 16) + 0x10 * (unit / 0x10 % 16) + unit % 16 =
      unit := by omega
  simp only [unicodeEscape, List.drop_succ_cons, List.drop_zero, List.cons_append, List.nil_append, readUnit, first,
    second, third, fourth, whole]

theorem readChar_unicodeEscape (unit : Nat) (rest : Text) :
    readChar (unicodeEscape unit ++ rest) = readEscape ('u' :: ((unicodeEscape unit).drop 2 ++ rest)) := rfl

/-- A character is never a surrogate. -/
theorem toNat_range (c : Char) : c.toNat < 0xd800 ∨ (0xdfff < c.toNat ∧ c.toNat < 0x110000) := c.valid

theorem readChar_escapeChar (c : Char) (rest : Text) : readChar (escapeChar c ++ rest) = some (c, rest) := by
  have back : ∀ {value : Nat}, c.toNat = value → Char.ofNat value = c := by
    rintro value rfl
    exact Char.ofNat_toNat c
  unfold escapeChar
  split
  · next special =>
    obtain rfl | rfl := special <;> rfl
  next ordinary =>
  rw [not_or] at ordinary
  split
  · next newline => rw [newline]; rfl
  split
  · next carriage => rw [carriage]; rfl
  split
  · next tab => rw [tab]; rfl
  split
  · next feed => rw [← back feed]; rfl
  split
  · next erase => rw [← back erase]; rfl
  split
  · rw [List.singleton_append, readChar, if_neg ordinary.2]
  split
  · next basic =>
    have single : ¬(0xd800 ≤ c.toNat ∧ c.toNat < 0xdc00) := by
      have range := toNat_range c
      omega
    rw [readChar_unicodeEscape, readEscape, if_pos rfl, readUnit_unicodeEscape basic, Option.bind_some,
      if_neg single, back rfl]
  · next beyond =>
    have range := toNat_range c
    have high : 0xd800 + (c.toNat - 0x10000) / 0x400 % 0x400 < 0x10000 := by omega
    have low : 0xdc00 + (c.toNat - 0x10000) % 0x400 < 0x10000 := by omega
    have pair : 0xd800 ≤ 0xd800 + (c.toNat - 0x10000) / 0x400 % 0x400 ∧
        0xd800 + (c.toNat - 0x10000) / 0x400 % 0x400 < 0xdc00 := by omega
    -- Beyond the basic plane the two surrogates give back the code point.
    have whole : c.toNat = 0x10000 + 0x400 * (0xd800 + (c.toNat - 0x10000) / 0x400 % 0x400 - 0xd800) +
        (0xdc00 + (c.toNat - 0x10000) % 0x400 - 0xdc00) := by omega
    rw [List.append_assoc, readChar_unicodeEscape, readEscape, if_pos rfl, readUnit_unicodeEscape high,
      Option.bind_some, if_pos pair]
    have later : (unicodeEscape (0xdc00 + (c.toNat - 0x10000) % 0x400) ++ rest).drop 2 =
        (unicodeEscape (0xdc00 + (c.toNat - 0x10000) % 0x400)).drop 2 ++ rest := rfl
    rw [later, readUnit_unicodeEscape low, Option.map_some, back whole]

theorem escapeChar_cons (c : Char) : ∃ first rest, escapeChar c = first :: rest ∧ first ≠ doubleQuote := by
  have slash : backslash ≠ doubleQuote := by decide
  unfold escapeChar
  split
  · exact ⟨backslash, [c], rfl, slash⟩
  next ordinary =>
  rw [not_or] at ordinary
  repeat' split
  · exact ⟨backslash, ['n'], rfl, slash⟩
  · exact ⟨backslash, ['r'], rfl, slash⟩
  · exact ⟨backslash, ['t'], rfl, slash⟩
  · exact ⟨backslash, ['f'], rfl, slash⟩
  · exact ⟨backslash, ['b'], rfl, slash⟩
  · exact ⟨c, [], rfl, ordinary.1⟩
  · exact ⟨backslash, _, rfl, slash⟩
  · exact ⟨backslash, _, rfl, slash⟩

theorem content_append {text other rest rest' : Text}
    (same : text.flatMap escapeChar ++ doubleQuote :: rest = other.flatMap escapeChar ++ doubleQuote :: rest') :
    text = other ∧ rest = rest' := by
  induction text generalizing other with
  | nil =>
    cases other with
    | nil => exact ⟨rfl, List.tail_eq_of_cons_eq same⟩
    | cons d other =>
      obtain ⟨first, later, escaped, quote⟩ := escapeChar_cons d
      rw [List.flatMap_cons, escaped] at same
      exact absurd (List.head_eq_of_cons_eq same).symm quote
  | cons c text ih =>
    cases other with
    | nil =>
      obtain ⟨first, later, escaped, quote⟩ := escapeChar_cons c
      rw [List.flatMap_cons, escaped] at same
      exact absurd (List.head_eq_of_cons_eq same) quote
    | cons d other =>
      rw [List.flatMap_cons, List.flatMap_cons, List.append_assoc, List.append_assoc] at same
      have read := congrArg readChar same
      rw [readChar_escapeChar, readChar_escapeChar, Option.some.injEq, Prod.mk.injEq] at read
      obtain ⟨rfl, later⟩ := ih read.2
      exact ⟨by rw [read.1], later⟩

theorem encodeString_append {text other rest rest' : Text} (same : encodeString text ++ rest = encodeString other ++ rest') :
    text = other ∧ rest = rest' := by
  have inner : text.flatMap escapeChar ++ [doubleQuote] ++ rest = other.flatMap escapeChar ++ [doubleQuote] ++ rest' :=
    List.tail_eq_of_cons_eq same
  rw [List.append_assoc, List.append_assoc] at inner
  exact content_append inner

/-! ### Numbers are read back -/

def numeralChars : Text := "0123456789-+.eE".toList

theorem digitChar_numeral : ∀ value < 10, Nat.digitChar value ∈ numeralChars := by decide

theorem Digits.numeral {text : Text} (digits : Digits text) : ∀ c ∈ text, c ∈ numeralChars := by
  intro c member
  obtain ⟨d, small, rfl⟩ := digits.2 c member
  exact digitChar_numeral d small

theorem IsNumber.numeral {text : Text} (number : IsNumber text) : ∀ c ∈ text, c ∈ numeralChars := by
  obtain ⟨sign, whole, fraction, exponent, rfl, signs, digits, fractions, exponents⟩ := number.parts
  intro c member
  rw [List.mem_append, List.mem_append, List.mem_append] at member
  obtain ((member | member) | member) | member := member
  · obtain rfl | rfl := signs
    · cases member
    · rw [List.mem_singleton.mp member]; decide
  · exact digits.1.numeral c member
  · obtain rfl | ⟨inner, known, rfl⟩ := fractions
    · cases member
    · obtain rfl | member := List.mem_cons.mp member
      · decide
      · exact known.numeral c member
  · obtain rfl | ⟨letter, sign, inner, letters, signs, known, rfl⟩ := exponents
    · cases member
    · obtain rfl | member := List.mem_cons.mp member
      · obtain rfl | rfl := letters <;> decide
      obtain member | member := List.mem_append.mp member
      · obtain rfl | rfl | rfl := signs
        · cases member
        · rw [List.mem_singleton.mp member]; decide
        · rw [List.mem_singleton.mp member]; decide
      · exact known.numeral c member

theorem IsNumber.head {text : Text} (number : IsNumber text) :
    ∃ c rest, text = c :: rest ∧ (c = '-' ∨ ∃ d < 10, c = Nat.digitChar d) := by
  obtain ⟨sign, whole, fraction, exponent, rfl, signs, digits, _, _⟩ := number.parts
  obtain rfl | rfl := signs
  · cases whole with
    | nil => exact absurd rfl digits.1.1
    | cons c whole => exact ⟨c, whole ++ fraction ++ exponent, rfl, .inr (digits.1.2 c List.mem_cons_self)⟩
  · exact ⟨'-', whole ++ fraction ++ exponent, rfl, .inl rfl⟩

theorem decimal_eq (value : Nat) :
    ∃ digits : List Nat, decimal value = digits.map Nat.digitChar ∧ (∀ d ∈ digits, d < 10) ∧
      Nat.ofDigits 10 digits.reverse = value := by
  by_cases zero : value = 0
  · exact ⟨[0], by simp [decimal, zero], by decide, by simp [zero]⟩
  · refine ⟨(Nat.digits 10 value).reverse, by rw [decimal, if_neg zero], fun d member => ?_, ?_⟩
    · exact Nat.digits_lt_base (by decide) (List.mem_reverse.mp member)
    · rw [List.reverse_reverse, Nat.ofDigits_digits]

theorem decimal_injective {value other : Nat} (same : decimal value = decimal other) : value = other := by
  obtain ⟨digits, text, small, whole⟩ := decimal_eq value
  obtain ⟨digits', text', small', whole'⟩ := decimal_eq other
  have back : ∀ {digits : List Nat}, (∀ d ∈ digits, d < 10) → (digits.map Nat.digitChar).map hexValue = digits := by
    intro digits small
    have each : ∀ d < 10, hexValue (Nat.digitChar d) = d := by decide
    rw [List.map_map]
    exact (List.map_congr_left fun d member => each d (small d member)).trans (List.map_id digits)
  rw [text, text'] at same
  have digitsSame := congrArg (List.map hexValue) same
  rw [back small, back small'] at digitsSame
  rw [← whole, ← whole', digitsSame]

theorem encodeInt_injective {value other : Int} (same : encodeInt value = encodeInt other) : value = other := by
  have apart : ∀ {first : Nat} {rest : Text}, decimal first ≠ '-' :: rest := by
    intro first rest text
    have dashed : '-' ∈ decimal first := by rw [text]; exact List.mem_cons_self
    obtain ⟨d, small, dash⟩ := decimal_digits dashed
    have plain : ∀ d < 10, '-' ≠ Nat.digitChar d := by decide
    exact plain d small dash
  cases value with
  | ofNat value =>
    cases other with
    | ofNat other => rw [decimal_injective same]
    | negSucc other => exact absurd same (apart)
  | negSucc value =>
    cases other with
    | ofNat other => exact absurd same.symm (apart)
    | negSucc other =>
      have equal := decimal_injective (List.tail_eq_of_cons_eq same)
      rw [Nat.succ.inj equal]

def intChars : Text := "-0123456789".toList

theorem encodeInt_chars (value : Int) : ∀ c ∈ encodeInt value, c ∈ intChars := by
  have digits : ∀ d < 10, Nat.digitChar d ∈ intChars := by decide
  intro c member
  cases value with
  | ofNat value =>
    obtain ⟨d, small, rfl⟩ := decimal_digits member
    exact digits d small
  | negSucc value =>
    obtain rfl | member := List.mem_cons.mp member
    · decide
    · obtain ⟨d, small, rfl⟩ := decimal_digits member
      exact digits d small

theorem encodeNumber_injective {value other : Number} (shown : value.Shown) (shown' : other.Shown)
    (same : encodeNumber value = encodeNumber other) : value = other := by
  have named : ∀ (value : Int) {first : Char}, first ∈ encodeInt value → first ∉ intChars → False := by
    intro value first member missing
    exact missing (encodeInt_chars value first member)
  have numeral : ∀ {shown : Text} {first : Char}, IsNumber shown → first ∈ shown → first ∉ numeralChars → False := by
    intro shown first number member missing
    exact missing (number.numeral first member)
  have pointed : ∀ {value : Int} {shown : Text}, (∃ c ∈ shown, c = '.' ∨ c = 'e') → encodeInt value = shown → False := by
    rintro value shown ⟨c, member, point⟩ rfl
    have missing : c ∉ intChars := by obtain rfl | rfl := point <;> decide
    exact named _ member missing
  have infinity : ∀ negative, 'I' ∈ encodeNumber (.infinite negative) := by decide
  have nan : 'N' ∈ encodeNumber .nan := by decide
  cases value with
  | int value =>
    cases other with
    | int other => rw [encodeInt_injective same]
    | float shown => exact (pointed shown'.2 same).elim
    | infinite negative => exact (named value (same ▸ infinity negative) (by decide)).elim
    | nan => exact (named value (same ▸ nan) (by decide)).elim
  | float text =>
    cases other with
    | int other => exact (pointed shown.2 same.symm).elim
    | float other => exact congrArg Number.float same
    | infinite negative => exact (numeral shown.1 (same ▸ infinity negative) (by decide)).elim
    | nan => exact (numeral shown.1 (same ▸ nan) (by decide)).elim
  | infinite negative =>
    cases other with
    | int other => exact (named other (same ▸ infinity negative) (by decide)).elim
    | float text => exact (numeral shown'.1 (same ▸ infinity negative) (by decide)).elim
    | infinite other => cases negative <;> cases other <;> first | rfl | cases same
    | nan => cases negative <;> cases same
  | nan =>
    cases other with
    | int other => exact (named other (same ▸ nan) (by decide)).elim
    | float text => exact (numeral shown'.1 (same ▸ nan) (by decide)).elim
    | infinite negative => cases negative <;> cases same
    | nan => rfl

/-! ### The compact text determines the value -/

def isDelimiter (c : Char) : Bool := c = ',' || c = ']' || c = closeBrace

def Terminated (rest : Text) : Prop := ∀ c ∈ rest.head?, isDelimiter c = true

theorem terminated_cons {c : Char} (delimiter : isDelimiter c = true) (rest : Text) : Terminated (c :: rest) := by
  intro first head
  cases head
  exact delimiter

theorem word_append {word other rest rest' : Text} (plain : ∀ c ∈ word, isDelimiter c = false)
    (plain' : ∀ c ∈ other, isDelimiter c = false) (ends : Terminated rest) (ends' : Terminated rest')
    (same : word ++ rest = other ++ rest') : word = other ∧ rest = rest' := by
  have back : ∀ {word rest : Text}, (∀ c ∈ word, isDelimiter c = false) → Terminated rest →
      (word ++ rest).takeWhile (fun c => !isDelimiter c) = word := by
    intro word rest plain ends
    have kept : ∀ c ∈ word, (!isDelimiter c) = true := fun c member => by rw [plain c member]; rfl
    rw [List.takeWhile_append_of_pos kept]
    cases rest with
    | nil => simp
    | cons c rest => simp [ends c rfl]
  have equal : word = other := by
    rw [← back plain ends, same, back plain' ends']
  rw [equal] at same
  exact ⟨equal, List.append_cancel_left same⟩

theorem encodeNumber_plain {value : Number} (shown : value.Shown) : ∀ c ∈ encodeNumber value, isDelimiter c = false := by
  have numeral : ∀ c ∈ numeralChars, isDelimiter c = false := by decide
  cases value with
  | int value =>
    have integer : ∀ c ∈ intChars, isDelimiter c = false := by decide
    exact fun c member => integer c (encodeInt_chars value c member)
  | float text => exact fun c member => numeral c (shown.1.numeral c member)
  | infinite negative => cases negative <;> decide
  | nan => decide

/-- What the first character of a value tells about it. -/
inductive Opening where
  | null
  | yes
  | no
  | number
  | text
  | list
  | object
deriving DecidableEq

def opening (c : Char) : Opening :=
  if c = 'n' then .null
  else if c = 't' then .yes
  else if c = 'f' then .no
  else if c = doubleQuote then .text
  else if c = '[' then .list
  else if c = openBrace then .object
  else .number

def Nested.opening : Nested → Opening
  | .null => .null
  | .bool true => .yes
  | .bool false => .no
  | .number _ => .number
  | .text _ => .text
  | .list _ => .list
  | .object _ => .object

theorem encodeNumber_head {value : Number} (shown : value.Shown) :
    ∃ c rest, encodeNumber value = c :: rest ∧ Json.opening c = .number := by
  have numeral : ∀ {text : Text}, IsNumber text → ∃ c rest, text = c :: rest ∧ Json.opening c = .number := by
    intro text number
    obtain ⟨c, rest, text, sign⟩ := number.head
    refine ⟨c, rest, text, ?_⟩
    obtain rfl | ⟨d, small, rfl⟩ := sign
    · decide
    · have digits : ∀ d < 10, Json.opening (Nat.digitChar d) = .number := by decide
      exact digits d small
  cases value with
  | int value => exact numeral (isNumber_encodeInt value)
  | float text => exact numeral shown.1
  | infinite negative => cases negative <;> exact ⟨_, _, rfl, by decide⟩
  | nan => exact ⟨_, _, rfl, by decide⟩

theorem compact_head {value : Nested} (formed : WellFormed value) :
    ∃ c rest, compact value = c :: rest ∧ Json.opening c = value.opening ∧ isDelimiter c = false := by
  cases value with
  | null => exact ⟨'n', _, rfl, by decide⟩
  | bool value =>
    cases value with
    | true => exact ⟨'t', _, rfl, by decide⟩
    | false => exact ⟨'f', _, rfl, by decide⟩
  | number value =>
    rw [WellFormed] at formed
    obtain ⟨c, rest, text, head⟩ := encodeNumber_head formed
    have plain := encodeNumber_plain formed c (by rw [text]; exact List.mem_cons_self)
    exact ⟨c, rest, by rw [compact, text], head, plain⟩
  | text value => exact ⟨doubleQuote, _, by rw [compact, encodeString], rfl, rfl⟩
  | list items => exact ⟨'[', _, by rw [compact], rfl, rfl⟩
  | object members => exact ⟨openBrace, _, by rw [compact], rfl, rfl⟩

theorem opening_eq {value other : Nested} {rest rest' : Text} (formed : WellFormed value) (formed' : WellFormed other)
    (same : compact value ++ rest = compact other ++ rest') : value.opening = other.opening := by
  obtain ⟨c, tail, text, head, _⟩ := compact_head formed
  obtain ⟨d, tail', text', head', _⟩ := compact_head formed'
  rw [text, text'] at same
  have first : c = d := List.head_eq_of_cons_eq same
  rw [← head, ← head', first]

def laterItems : List Nested → Text
  | [] => []
  | item :: rest => ',' :: compactItems (item :: rest)

theorem compactItems_cons (item : Nested) (rest : List Nested) :
    compactItems (item :: rest) = compact item ++ laterItems rest := by
  cases rest with
  | nil => rw [compactItems, laterItems, List.append_nil]
  | cons next rest => rw [compactItems, laterItems]; simp

def laterMembers : List (Text × Nested) → Text
  | [] => []
  | member :: rest => ',' :: compactMembers (member :: rest)

theorem compactMembers_cons (key : Text) (value : Nested) (rest : List (Text × Nested)) :
    compactMembers ((key, value) :: rest) = encodeString key ++ ':' :: (compact value ++ laterMembers rest) := by
  cases rest with
  | nil => rw [compactMembers, laterMembers, List.append_nil]
  | cons next rest => rw [compactMembers, laterMembers]; simp

theorem terminated_laterItems (items : List Nested) (rest : Text) : Terminated (laterItems items ++ ']' :: rest) := by
  cases items <;> exact terminated_cons rfl _

theorem terminated_laterMembers (members : List (Text × Nested)) (rest : Text) :
    Terminated (laterMembers members ++ closeBrace :: rest) := by
  cases members <;> exact terminated_cons rfl _

theorem compactItems_ends {item : Nested} {items : List Nested} {rest rest' : Text} (formed : WellFormed item)
    (same : ']' :: rest = compactItems (item :: items) ++ rest') : False := by
  obtain ⟨c, tail, text, _, plain⟩ := compact_head formed
  rw [compactItems_cons, text] at same
  cases List.head_eq_of_cons_eq same
  cases plain

theorem compactMembers_ends {member : Text × Nested} {members : List (Text × Nested)} {rest rest' : Text}
    (same : closeBrace :: rest = compactMembers (member :: members) ++ rest') : False := by
  obtain ⟨key, value⟩ := member
  rw [compactMembers_cons] at same
  cases List.head_eq_of_cons_eq same

mutual
theorem compact_append (value other : Nested) (rest rest' : Text) (formed : WellFormed value)
    (formed' : WellFormed other) (ends : Terminated rest) (ends' : Terminated rest')
    (same : compact value ++ rest = compact other ++ rest') : value = other ∧ rest = rest' := by
  -- The first character tells the kind of value; two values of one kind are compared by their parts.
  have kind := opening_eq formed formed' same
  cases value with
  | null =>
    cases other with
    | null => exact ⟨rfl, List.append_cancel_left same⟩
    | bool other => cases other <;> cases kind
    | _ => cases kind
  | bool value =>
    cases other with
    | bool other =>
      cases value <;> cases other <;> first | exact ⟨rfl, List.append_cancel_left same⟩ | cases kind
    | _ => cases value <;> cases kind
  | number value =>
    cases other with
    | number other =>
      rw [WellFormed] at formed formed'
      rw [compact, compact] at same
      obtain ⟨equal, later⟩ := word_append (encodeNumber_plain formed) (encodeNumber_plain formed') ends ends' same
      exact ⟨by rw [encodeNumber_injective formed formed' equal], later⟩
    | bool other => cases other <;> cases kind
    | _ => cases kind
  | text value =>
    cases other with
    | text other =>
      rw [compact, compact] at same
      obtain ⟨rfl, later⟩ := encodeString_append same
      exact ⟨rfl, later⟩
    | bool other => cases other <;> cases kind
    | _ => cases kind
  | list items =>
    cases other with
    | list others =>
      rw [WellFormed] at formed formed'
      rw [compact, compact] at same
      have inner : compactItems items ++ ']' :: rest = compactItems others ++ ']' :: rest' := by
        simpa using List.tail_eq_of_cons_eq same
      obtain ⟨rfl, later⟩ := compactItems_append items others rest rest' formed formed' inner
      exact ⟨rfl, later⟩
    | bool other => cases other <;> cases kind
    | _ => cases kind
  | object members =>
    cases other with
    | object others =>
      rw [WellFormed] at formed formed'
      rw [compact, compact] at same
      have inner : compactMembers members ++ closeBrace :: rest = compactMembers others ++ closeBrace :: rest' := by
        simpa using List.tail_eq_of_cons_eq same
      obtain ⟨rfl, later⟩ := compactMembers_append members others rest rest' formed.2 formed'.2 inner
      exact ⟨rfl, later⟩
    | bool other => cases other <;> cases kind
    | _ => cases kind

theorem compactItems_append (items others : List Nested) (rest rest' : Text) (formed : WellFormedItems items)
    (formed' : WellFormedItems others) (same : compactItems items ++ ']' :: rest = compactItems others ++ ']' :: rest') :
    items = others ∧ rest = rest' := by
  cases items with
  | nil =>
    cases others with
    | nil => exact ⟨rfl, List.tail_eq_of_cons_eq same⟩
    | cons other others =>
      rw [WellFormedItems] at formed'
      exact (compactItems_ends formed'.1 same).elim
  | cons item items =>
    rw [WellFormedItems] at formed
    cases others with
    | nil => exact (compactItems_ends formed.1 same.symm).elim
    | cons other others =>
      rw [WellFormedItems] at formed'
      rw [compactItems_cons, compactItems_cons, List.append_assoc, List.append_assoc] at same
      obtain ⟨rfl, later⟩ := compact_append item other _ _ formed.1 formed'.1 (terminated_laterItems items rest)
        (terminated_laterItems others rest') same
      cases items with
      | nil =>
        cases others with
        | nil => exact ⟨rfl, List.tail_eq_of_cons_eq later⟩
        | cons next others => cases List.head_eq_of_cons_eq later
      | cons next items =>
        cases others with
        | nil => cases List.head_eq_of_cons_eq later
        | cons other others =>
          have inner := List.tail_eq_of_cons_eq later
          obtain ⟨tail, after⟩ := compactItems_append (next :: items) (other :: others) rest rest' formed.2 formed'.2 inner
          exact ⟨by rw [tail], after⟩

theorem compactMembers_append (members others : List (Text × Nested)) (rest rest' : Text)
    (formed : WellFormedMembers members) (formed' : WellFormedMembers others)
    (same : compactMembers members ++ closeBrace :: rest = compactMembers others ++ closeBrace :: rest') :
    members = others ∧ rest = rest' := by
  cases members with
  | nil =>
    cases others with
    | nil => exact ⟨rfl, List.tail_eq_of_cons_eq same⟩
    | cons other others => exact (compactMembers_ends same).elim
  | cons member members =>
    cases others with
    | nil => exact (compactMembers_ends same.symm).elim
    | cons other others =>
      obtain ⟨key, value⟩ := member
      obtain ⟨key', value'⟩ := other
      rw [WellFormedMembers] at formed formed'
      rw [compactMembers_cons, compactMembers_cons, List.append_assoc, List.append_assoc] at same
      obtain ⟨rfl, colon⟩ := encodeString_append same
      have body : compact value ++ (laterMembers members ++ closeBrace :: rest) =
          compact value' ++ (laterMembers others ++ closeBrace :: rest') := by
        simpa using List.tail_eq_of_cons_eq colon
      obtain ⟨rfl, later⟩ := compact_append value value' _ _ formed.1 formed'.1 (terminated_laterMembers members rest)
        (terminated_laterMembers others rest') body
      cases members with
      | nil =>
        cases others with
        | nil => exact ⟨rfl, List.tail_eq_of_cons_eq later⟩
        | cons next others => cases List.head_eq_of_cons_eq later
      | cons next members =>
        cases others with
        | nil => cases List.head_eq_of_cons_eq later
        | cons other others =>
          have inner := List.tail_eq_of_cons_eq later
          obtain ⟨tail, after⟩ := compactMembers_append (next :: members) (other :: others) rest rest' formed.2 formed'.2
            inner
          exact ⟨by rw [tail], after⟩
end

theorem compact_injective {value other : Nested} (formed : WellFormed value) (formed' : WellFormed other)
    (same : compact value = compact other) : value = other :=
  (compact_append value other [] [] formed formed' (fun _ none => by cases none) (fun _ none => by cases none)
    (congrArg (· ++ []) same)).1

/-! ### Sorting the keys forgets the order of the members and nothing else -/

theorem keys_sortMembers (members : List (Text × Nested)) : (sortMembers members).map Prod.fst = members.map Prod.fst := by
  induction members with
  | nil => rfl
  | cons member members ih => rw [sortMembers, List.map_cons, List.map_cons, ih]

theorem length_sortMembers (members : List (Text × Nested)) : (sortMembers members).length = members.length := by
  simpa using congrArg List.length (keys_sortMembers members)

theorem mem_sortMembers {members : List (Text × Nested)} {key : Text} {value : Nested} :
    (key, value) ∈ sortMembers members ↔ ∃ before, (key, before) ∈ members ∧ sortKeys before = value := by
  induction members with
  | nil => simp [sortMembers]
  | cons member members ih =>
    rw [sortMembers, List.mem_cons, ih]
    constructor
    · rintro (here | ⟨before, known, same⟩)
      · cases here
        exact ⟨member.2, List.mem_cons_self, rfl⟩
      · exact ⟨before, List.mem_cons_of_mem _ known, same⟩
    · rintro ⟨before, known, same⟩
      obtain rfl | known := List.mem_cons.mp known
      · exact .inl (by rw [same])
      · exact .inr ⟨before, known, same⟩

/-- Without a key twice, there is one way to sort the members. -/
theorem sorted_eq {members others : List (Text × Nested)} (keys : (members.map Prod.fst).Nodup)
    (perm : members.Perm others) : members.insertionSort KeyLe = others.insertionSort KeyLe := by
  have total : Std.Total KeyLe := ⟨fun member other => Std.Total.total member.1 other.1⟩
  have transitive : IsTrans (Text × Nested) KeyLe := ⟨fun _ _ _ first second => le_trans first second⟩
  have one : ∀ member ∈ members, ∀ other ∈ members, member.1 = other.1 → member = other := by
    intro member known other known' same
    exact List.inj_on_of_nodup_map keys known known' same
  have sorts := (List.perm_insertionSort KeyLe members).trans (perm.trans (List.perm_insertionSort KeyLe others).symm)
  refine sorts.eq_of_pairwise ?_ (List.pairwise_insertionSort KeyLe members) (List.pairwise_insertionSort KeyLe others)
  intro member other known known' less more
  have here := (List.perm_insertionSort KeyLe members).mem_iff.mp known
  have there := (List.perm_insertionSort KeyLe members).mem_iff.mp (sorts.mem_iff.mpr known')
  exact one member here other there (le_antisymm less more)

theorem wellFormed_of_mem (members : List (Text × Nested)) (formed : WellFormedMembers members) {key : Text}
    {value : Nested} (known : (key, value) ∈ members) : WellFormed value := by
  induction members with
  | nil => cases known
  | cons member members ih =>
    obtain ⟨name, here⟩ := member
    rw [WellFormedMembers] at formed
    obtain same | known := List.mem_cons.mp known
    · cases same
      exact formed.1
    · exact ih formed.2 known

theorem wellFormedMembers_of {members : List (Text × Nested)} (formed : ∀ member ∈ members, WellFormed member.2) :
    WellFormedMembers members := by
  induction members with
  | nil => rw [WellFormedMembers]; trivial
  | cons member members ih =>
    obtain ⟨key, value⟩ := member
    rw [WellFormedMembers]
    exact ⟨formed _ List.mem_cons_self, ih fun other known => formed other (List.mem_cons_of_mem _ known)⟩

mutual
theorem wellFormed_sortKeys (value : Nested) (formed : WellFormed value) : WellFormed (sortKeys value) := by
  cases value with
  | list items =>
    rw [WellFormed] at formed
    rw [sortKeys, WellFormed]
    exact wellFormed_sortItems items formed
  | object members =>
    rw [WellFormed] at formed
    rw [sortKeys, WellFormed]
    have perm := List.perm_insertionSort KeyLe (sortMembers members)
    constructor
    · rw [(perm.map Prod.fst).nodup_iff, keys_sortMembers]
      exact formed.1
    · refine wellFormedMembers_of fun member known => ?_
      exact wellFormed_of_mem _ (wellFormed_sortMembers members formed.2) (perm.mem_iff.mp known)
  | null => exact formed
  | bool value => exact formed
  | number value => exact formed
  | text value => exact formed

theorem wellFormed_sortItems (items : List Nested) (formed : WellFormedItems items) :
    WellFormedItems (sortItems items) := by
  cases items with
  | nil => exact formed
  | cons item items =>
    rw [WellFormedItems] at formed
    rw [sortItems, WellFormedItems]
    exact ⟨wellFormed_sortKeys item formed.1, wellFormed_sortItems items formed.2⟩

theorem wellFormed_sortMembers (members : List (Text × Nested)) (formed : WellFormedMembers members) :
    WellFormedMembers (sortMembers members) := by
  cases members with
  | nil => exact formed
  | cons member members =>
    obtain ⟨key, value⟩ := member
    rw [WellFormedMembers] at formed
    rw [sortMembers, WellFormedMembers]
    exact ⟨wellFormed_sortKeys value formed.1, wellFormed_sortMembers members formed.2⟩
end

mutual
theorem sortKeys_eq (value other : Nested) (formed : WellFormed value) (formed' : WellFormed other) :
    sortKeys value = sortKeys other ↔ Alike value other := by
  cases value with
  | null => cases other <;> simp [sortKeys, Alike]
  | bool value => cases other <;> simp [sortKeys, Alike]
  | number value => cases other <;> simp [sortKeys, Alike]
  | text value => cases other <;> simp [sortKeys, Alike]
  | list items =>
    cases other with
    | list others =>
      rw [WellFormed] at formed formed'
      rw [sortKeys, sortKeys, Alike, Nested.list.injEq]
      exact sortItems_eq items others formed formed'
    | _ => simp [sortKeys, Alike]
  | object members =>
    cases other with
    | object others =>
      rw [WellFormed] at formed formed'
      rw [sortKeys, sortKeys, Alike, Nested.object.injEq]
      have inside := sortMembers_alike members others formed.2 formed'.2
      constructor
      · intro same
        have perm : (sortMembers members).Perm (sortMembers others) :=
          (List.perm_insertionSort KeyLe _).symm.trans (same ▸ List.perm_insertionSort KeyLe _)
        have lengths := perm.length_eq
        rw [length_sortMembers, length_sortMembers] at lengths
        exact ⟨lengths, inside.mp perm.subset⟩
      · rintro ⟨lengths, alike⟩
        have keys : ((sortMembers members).map Prod.fst).Nodup := by
          rw [keys_sortMembers]
          exact formed.1
        have nodup := List.Nodup.of_map Prod.fst keys
        have subperm := nodup.subperm (inside.mpr alike)
        refine sorted_eq keys (subperm.perm_of_length_le ?_)
        rw [length_sortMembers, length_sortMembers, lengths]
    | _ => simp [sortKeys, Alike]

theorem sortItems_eq (items others : List Nested) (formed : WellFormedItems items) (formed' : WellFormedItems others) :
    sortItems items = sortItems others ↔ AlikeItems items others := by
  cases items with
  | nil => cases others <;> simp [sortItems, AlikeItems]
  | cons item items =>
    cases others with
    | nil => simp [sortItems, AlikeItems]
    | cons other others =>
      rw [WellFormedItems] at formed formed'
      rw [sortItems, sortItems, AlikeItems, List.cons.injEq, sortKeys_eq item other formed.1 formed'.1,
        sortItems_eq items others formed.2 formed'.2]

theorem sortMembers_alike (members others : List (Text × Nested)) (formed : WellFormedMembers members)
    (formed' : WellFormedMembers others) : sortMembers members ⊆ sortMembers others ↔ AlikeMembers members others := by
  cases members with
  | nil => simp [sortMembers, AlikeMembers]
  | cons member members =>
    obtain ⟨key, value⟩ := member
    rw [WellFormedMembers] at formed
    rw [sortMembers, AlikeMembers, List.cons_subset, sortMembers_alike members others formed.2 formed', mem_sortMembers]
    refine and_congr_left fun _ => exists_congr fun other => and_congr_right fun known => ?_
    rw [eq_comm]
    exact sortKeys_eq value other formed.1 (wellFormed_of_mem others formed' known)
end

/-- Two values have one canonical text exactly if they are the same but for the order of members. -/
theorem canonical_eq_iff {value other : Nested} (formed : WellFormed value) (formed' : WellFormed other) :
    canonical value = canonical other ↔ Alike value other := by
  rw [← sortKeys_eq value other formed formed']
  refine ⟨fun same => ?_, fun same => by rw [canonical, same, canonical]⟩
  exact compact_injective (wellFormed_sortKeys value formed) (wellFormed_sortKeys other formed') same

end PhysicalAiStudio.Strings.Json
