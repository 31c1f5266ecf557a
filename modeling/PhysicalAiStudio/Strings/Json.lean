import PhysicalAiStudio.Strings.Shlex

/-! JSON texts: the grammar, and the encoder of flat objects that Python's `json` module is.

The grammar is that of the interchange format, which has no numeral for what is not a
finite number. The encoder writes such numbers all the same, by names of their own.
-/

set_option autoImplicit false

namespace PhysicalAiStudio.Strings.Json

def openBrace : Char := Char.ofNat 0x7b
def closeBrace : Char := Char.ofNat 0x7d

/-! ### The grammar -/

def Spaces (text : Text) : Prop := ∀ c ∈ text, c = ' ' ∨ c = '\t' ∨ c = '\n' ∨ c = '\r'

def Digits (text : Text) : Prop := text ≠ [] ∧ ∀ c ∈ text, ∃ d < 10, c = Nat.digitChar d

/-- The whole part of a number begins with a zero only if it is one. -/
def Whole (text : Text) : Prop := Digits text ∧ (text.head? = some '0' → text = ['0'])

structure IsNumber (text : Text) : Prop where
  parts : ∃ sign whole fraction exponent, text = sign ++ whole ++ fraction ++ exponent ∧
    (sign = [] ∨ sign = ['-']) ∧ Whole whole ∧
    (fraction = [] ∨ ∃ digits, Digits digits ∧ fraction = '.' :: digits) ∧
    (exponent = [] ∨ ∃ letter sign digits, (letter = 'e' ∨ letter = 'E') ∧
      (sign = [] ∨ sign = ['+'] ∨ sign = ['-']) ∧ Digits digits ∧ exponent = letter :: (sign ++ digits))

def isHex (c : Char) : Bool :=
  (48 ≤ c.toNat && c.toNat ≤ 57) || (65 ≤ c.toNat && c.toNat ≤ 70) || (97 ≤ c.toNat && c.toNat ≤ 102)

inductive IsContent : Text → Prop where
  | nil : IsContent []
  | plain {c : Char} {rest : Text} : 0x20 ≤ c.toNat → c ≠ doubleQuote → c ≠ backslash → IsContent rest →
      IsContent (c :: rest)
  | escape {c : Char} {rest : Text} :
      c ∈ [doubleQuote, backslash, '/', 'b', 'f', 'n', 'r', 't'] → IsContent rest → IsContent (backslash :: c :: rest)
  | unicode {a b c d : Char} {rest : Text} : isHex a → isHex b → isHex c → isHex d → IsContent rest →
      IsContent (backslash :: 'u' :: a :: b :: c :: d :: rest)

inductive IsString : Text → Prop where
  | quoted {content : Text} : IsContent content → IsString (doubleQuote :: (content ++ [doubleQuote]))

mutual
inductive IsValue : Text → Prop where
  | null : IsValue ['n', 'u', 'l', 'l']
  | yes : IsValue ['t', 'r', 'u', 'e']
  | no : IsValue ['f', 'a', 'l', 's', 'e']
  | number {text : Text} : IsNumber text → IsValue text
  | string {text : Text} : IsString text → IsValue text
  | emptyArray {space : Text} : Spaces space → IsValue ('[' :: (space ++ [']']))
  | array {items : Text} : IsItems items → IsValue ('[' :: (items ++ [']']))
  | emptyObject {space : Text} : Spaces space → IsValue (openBrace :: (space ++ [closeBrace]))
  | object {members : Text} : IsMembers members → IsValue (openBrace :: (members ++ [closeBrace]))

inductive IsItems : Text → Prop where
  | last {before value after : Text} : Spaces before → IsValue value → Spaces after →
      IsItems (before ++ value ++ after)
  | more {before value after rest : Text} : Spaces before → IsValue value → Spaces after → IsItems rest →
      IsItems (before ++ value ++ after ++ ',' :: rest)

inductive IsMembers : Text → Prop where
  | last {before name between space value after : Text} : Spaces before → IsString name → Spaces between →
      Spaces space → IsValue value → Spaces after →
      IsMembers (before ++ name ++ between ++ ':' :: (space ++ value ++ after))
  | more {before name between space value after rest : Text} : Spaces before → IsString name → Spaces between →
      Spaces space → IsValue value → Spaces after → IsMembers rest →
      IsMembers (before ++ name ++ between ++ ':' :: (space ++ value ++ after) ++ ',' :: rest)
end

def IsJson (text : Text) : Prop :=
  ∃ before value after, Spaces before ∧ IsValue value ∧ Spaces after ∧ text = before ++ value ++ after

/-! ### The encoder -/

/-- What the encoder is given for a number: an `int`, a finite `float` by its `repr`, or one that is not finite. -/
inductive Number where
  | int (value : Int)
  | float (shown : Text)
  | infinite (negative : Bool)
  | nan
deriving DecidableEq

inductive Value where
  | null
  | number (number : Number)
  | text (value : Text)
deriving DecidableEq

def hexDigit (value : Nat) : Char := Char.ofNat (if value < 10 then 48 + value else 87 + value)

/-- A code unit of sixteen bits, by its number. -/
def unicodeEscape (unit : Nat) : Text :=
  [backslash, 'u', hexDigit (unit / 0x1000 % 16), hexDigit (unit / 0x100 % 16), hexDigit (unit / 0x10 % 16),
    hexDigit (unit % 16)]

/-- One character of a string, where only printable ASCII is left as it is. -/
def escapeChar (c : Char) : Text :=
  if c = doubleQuote ∨ c = backslash then [backslash, c]
  else if c = '\n' then [backslash, 'n']
  else if c = '\r' then [backslash, 'r']
  else if c = '\t' then [backslash, 't']
  else if c.toNat = 0x0c then [backslash, 'f']
  else if c.toNat = 0x08 then [backslash, 'b']
  else if 0x20 ≤ c.toNat ∧ c.toNat ≤ 0x7e then [c]
  else if c.toNat < 0x10000 then unicodeEscape c.toNat
  else
    -- two surrogates
    unicodeEscape (0xd800 + (c.toNat - 0x10000) / 0x400 % 0x400) ++ unicodeEscape (0xdc00 + (c.toNat - 0x10000) % 0x400)

def encodeString (text : Text) : Text := doubleQuote :: (text.flatMap escapeChar ++ [doubleQuote])

def encodeInt : Int → Text
  | .ofNat value => decimal value
  | .negSucc value => '-' :: decimal (value + 1)

def encodeNumber : Number → Text
  | .int value => encodeInt value
  | .float shown => shown
  | .infinite false => ['I', 'n', 'f', 'i', 'n', 'i', 't', 'y']
  | .infinite true => ['-', 'I', 'n', 'f', 'i', 'n', 'i', 't', 'y']
  | .nan => ['N', 'a', 'N']

def encodeValue : Value → Text
  | .null => ['n', 'u', 'l', 'l']
  | .number number => encodeNumber number
  | .text value => encodeString value

def encodeMember (member : Text × Value) : Text := encodeString member.1 ++ ':' :: ' ' :: encodeValue member.2

def encodeMembers : List (Text × Value) → Text
  | [] => []
  | [member] => encodeMember member
  | member :: rest => encodeMember member ++ ',' :: ' ' :: encodeMembers rest

/-- `json.dumps` of a flat object. -/
def dumps (members : List (Text × Value)) : Text := openBrace :: (encodeMembers members ++ [closeBrace])

/-! ### What the encoder writes is JSON -/

/-- A number that the grammar has a numeral for, where the `repr` of a float is one. -/
def Number.Finite : Number → Prop
  | int _ => True
  | float shown => IsNumber shown
  | infinite _ => False
  | nan => False

def Value.Finite : Value → Prop
  | null => True
  | .number value => value.Finite
  | text _ => True

theorem spaces_nil : Spaces [] := List.forall_mem_nil _

theorem spaces_one : Spaces [' '] := by
  intro c member
  exact .inl (List.mem_singleton.mp member)

theorem isHex_hexDigit {value : Nat} (small : value < 16) : isHex (hexDigit value) = true := by
  revert value
  decide

theorem IsContent.append {first second : Text} (left : IsContent first) (right : IsContent second) :
    IsContent (first ++ second) := by
  induction left with
  | nil => exact right
  | plain printed quote slash _ ih => exact .plain printed quote slash ih
  | escape known _ ih => exact .escape known ih
  | unicode a b c d _ ih => exact .unicode a b c d ih

theorem isContent_unicodeEscape (unit : Nat) : IsContent (unicodeEscape unit) := by
  refine .unicode ?_ ?_ ?_ ?_ .nil
  · exact isHex_hexDigit (Nat.mod_lt _ (by omega))
  · exact isHex_hexDigit (Nat.mod_lt _ (by omega))
  · exact isHex_hexDigit (Nat.mod_lt _ (by omega))
  · exact isHex_hexDigit (Nat.mod_lt _ (by omega))

theorem isContent_escapeChar (c : Char) : IsContent (escapeChar c) := by
  unfold escapeChar
  split
  · next special =>
    refine .escape ?_ .nil
    obtain rfl | rfl := special <;> simp
  · next plain =>
    rw [not_or] at plain
    repeat' split
    · exact .escape (by simp) .nil
    · exact .escape (by simp) .nil
    · exact .escape (by simp) .nil
    · exact .escape (by simp) .nil
    · exact .escape (by simp) .nil
    · next printed => exact .plain printed.1 plain.1 plain.2 .nil
    · exact isContent_unicodeEscape _
    · exact (isContent_unicodeEscape _).append (isContent_unicodeEscape _)

theorem isString_encodeString (text : Text) : IsString (encodeString text) := by
  refine .quoted ?_
  induction text with
  | nil => exact .nil
  | cons c text ih =>
    rw [List.flatMap_cons]
    exact (isContent_escapeChar c).append ih

theorem whole_decimal (value : Nat) : Whole (decimal value) := by
  by_cases positive : 0 < value
  · obtain ⟨first, rest, digits, text, small⟩ := decimal_cons positive
    have leading : first ≠ 0 := by
      have last := Nat.getLast_digit_ne_zero 10 (Nat.pos_iff_ne_zero.mp positive)
      have same : (Nat.digits 10 value).getLast? = some first := by
        rw [← List.head?_reverse, digits]
        rfl
      rw [List.getLast?_eq_some_getLast (Nat.digits_ne_nil_iff_ne_zero.mpr (by omega)), Option.some.injEq] at same
      rwa [same] at last
    refine ⟨⟨by rw [text]; simp, fun c member => decimal_digits member⟩, fun zero => ?_⟩
    rw [text, List.head?_cons, Option.some.injEq] at zero
    have here := small first List.mem_cons_self
    have apart : ∀ d < 10, Nat.digitChar d = '0' → d = 0 := by decide
    exact absurd (apart first here zero) leading
  · have zero : value = 0 := by omega
    subst zero
    exact ⟨⟨by simp [decimal], fun c member => decimal_digits member⟩, fun _ => rfl⟩

theorem isNumber_encodeInt (value : Int) : IsNumber (encodeInt value) := by
  cases value with
  | ofNat value =>
    exact ⟨[], decimal value, [], [], by simp [encodeInt], .inl rfl, whole_decimal value, .inl rfl, .inl rfl⟩
  | negSucc value =>
    exact ⟨['-'], decimal (value + 1), [], [], by simp [encodeInt], .inr rfl, whole_decimal _, .inl rfl, .inl rfl⟩

theorem isValue_encodeValue {value : Value} (finite : value.Finite) : IsValue (encodeValue value) := by
  cases value with
  | null => exact .null
  | text value => exact .string (isString_encodeString value)
  | number value =>
    refine .number ?_
    cases value with
    | int value => exact isNumber_encodeInt value
    | float shown => exact finite
    | infinite negative => exact finite.elim
    | nan => exact finite.elim

theorem isMembers_encodeMembers {members : List (Text × Value)} (some_member : members ≠ [])
    (finite : ∀ member ∈ members, member.2.Finite) {before : Text} (spaces : Spaces before) :
    IsMembers (before ++ encodeMembers members) := by
  induction members generalizing before with
  | nil => exact absurd rfl some_member
  | cons member members ih =>
    obtain ⟨name, value⟩ := member
    have here : IsValue (encodeValue value) := isValue_encodeValue (finite _ List.mem_cons_self)
    cases members with
    | nil =>
      have last := IsMembers.last spaces (isString_encodeString name) spaces_nil spaces_one here spaces_nil
      simpa [encodeMembers, encodeMember] using last
    | cons next members =>
      have later := ih (by simp) (fun other known => finite other (List.mem_cons_of_mem _ known)) spaces_one
      have more := IsMembers.more spaces (isString_encodeString name) spaces_nil spaces_one here spaces_nil later
      rw [encodeMembers]
      · simpa [encodeMember] using more
      · simp

theorem isJson_dumps {members : List (Text × Value)} (finite : ∀ member ∈ members, member.2.Finite) :
    IsJson (dumps members) := by
  refine ⟨[], dumps members, [], spaces_nil, ?_, spaces_nil, by simp⟩
  cases members with
  | nil => exact .emptyObject spaces_nil
  | cons member members => exact .object (isMembers_encodeMembers (by simp) finite spaces_nil)

/-! ### And nothing else is

No JSON text has a capital N or I outside its strings, and the names of the numbers that are
not finite begin with one.
-/

/-- Where a text stands to its strings. -/
inductive Scan where
  | outside
  | inside
  | escaped
deriving DecidableEq

def Scan.next : Scan → Char → Scan
  | outside, c => if c = doubleQuote then inside else outside
  | inside, c => if c = doubleQuote then outside else if c = backslash then escaped else inside
  | escaped, _ => inside

def bare (scan : Scan) : Text → Text
  | [] => []
  | c :: rest => (if scan = .outside then [c] else []) ++ bare (scan.next c) rest

theorem bare_append (scan : Scan) (first second : Text) :
    bare scan (first ++ second) = bare scan first ++ bare (first.foldl Scan.next scan) second := by
  induction first generalizing scan with
  | nil => rfl
  | cons c first ih => rw [List.cons_append, bare, ih, bare, List.foldl_cons, List.append_assoc]

def Closed (text : Text) : Prop := text.foldl Scan.next .outside = .outside

def isCapital (c : Char) : Bool := c = 'N' || c = 'I'

structure Plain (text : Text) : Prop where
  closed : Closed text
  bare : ∀ c ∈ bare .outside text, isCapital c = false

theorem closed_append {first second : Text} (left : Closed first) (right : Closed second) :
    Closed (first ++ second) := by
  unfold Closed at *
  rw [List.foldl_append, left, right]

theorem Plain.append {first second : Text} (left : Plain first) (right : Plain second) : Plain (first ++ second) := by
  refine ⟨closed_append left.closed right.closed, ?_⟩
  rw [bare_append, left.closed]
  intro c member
  obtain here | there := List.mem_append.mp member
  · exact left.bare c here
  · exact right.bare c there

theorem unquoted_scan {text : Text} (unquoted : doubleQuote ∉ text) :
    Closed text ∧ Json.bare .outside text = text := by
  induction text with
  | nil => exact ⟨rfl, rfl⟩
  | cons c text ih =>
    rw [List.mem_cons, not_or] at unquoted
    have next : Scan.next .outside c = .outside := if_neg (Ne.symm unquoted.1)
    obtain ⟨closed, every⟩ := ih unquoted.2
    constructor
    · rw [Closed, List.foldl_cons, next]
      exact closed
    · rw [Json.bare, next, every]
      rfl

theorem plain_of {text : Text} (every : ∀ c ∈ text, c ≠ doubleQuote ∧ isCapital c = false) : Plain text := by
  obtain ⟨closed, same⟩ := unquoted_scan fun quoted => (every _ quoted).1 rfl
  exact ⟨closed, fun c member => (every c (same ▸ member)).2⟩

theorem Spaces.plain {text : Text} (spaces : Spaces text) : Plain text := by
  refine plain_of fun c member => ?_
  obtain rfl | rfl | rfl | rfl := spaces c member <;> decide

theorem Digits.plain {text : Text} (digits : Digits text) : Plain text := by
  refine plain_of fun c member => ?_
  obtain ⟨d, small, rfl⟩ := digits.2 c member
  have every : ∀ d < 10, Nat.digitChar d ≠ doubleQuote ∧ isCapital (Nat.digitChar d) = false := by decide
  exact every d small

theorem plain_one {c : Char} (quote : c ≠ doubleQuote) (capital : isCapital c = false) : Plain [c] :=
  plain_of fun _ member => List.mem_singleton.mp member ▸ ⟨quote, capital⟩

theorem plain_nil : Plain [] := plain_of (List.forall_mem_nil _)

theorem IsNumber.plain {text : Text} (number : IsNumber text) : Plain text := by
  obtain ⟨sign, whole, fraction, exponent, rfl, signs, digits, fractions, exponents⟩ := number.parts
  refine ((Plain.append ?_ digits.1.plain).append ?_).append ?_
  · obtain rfl | rfl := signs
    · exact plain_nil
    · exact plain_one (by decide) rfl
  · obtain rfl | ⟨digits, known, rfl⟩ := fractions
    · exact plain_nil
    · exact (plain_one (by decide) rfl).append known.plain
  · obtain rfl | ⟨letter, sign, digits, letters, signs, known, rfl⟩ := exponents
    · exact plain_nil
    · have first : Plain [letter] := by
        obtain rfl | rfl := letters <;> exact plain_one (by decide) rfl
      refine first.append (Plain.append ?_ known.plain)
      · obtain rfl | rfl | rfl := signs
        · exact plain_nil
        · exact plain_one (by decide) rfl
        · exact plain_one (by decide) rfl

theorem not_special_of_isHex {c : Char} (hex : isHex c = true) : c ≠ doubleQuote ∧ c ≠ backslash := by
  constructor <;> (rintro rfl; cases hex)

/-- Within a string the scan stays within it. -/
theorem IsContent.scan {content : Text} (known : IsContent content) :
    content.foldl Scan.next .inside = .inside ∧ bare .inside content = [] := by
  have stays : ∀ {c : Char}, c ≠ doubleQuote → c ≠ backslash → Scan.next .inside c = .inside := by
    intro c quote slash
    rw [Scan.next, if_neg quote, if_neg slash]
  have slash : Scan.next .inside backslash = .escaped := rfl
  induction known with
  | nil => exact ⟨rfl, rfl⟩
  | plain _ quote other _ ih =>
    rw [List.foldl_cons, bare, stays quote other]
    exact ih
  | escape _ _ ih =>
    rw [List.foldl_cons, List.foldl_cons, bare, bare, slash]
    exact ih
  | unicode a b c d _ ih =>
    simp only [List.foldl_cons, bare, slash]
    have ha := not_special_of_isHex a
    have hb := not_special_of_isHex b
    have hc := not_special_of_isHex c
    have hd := not_special_of_isHex d
    rw [show Scan.next .escaped 'u' = .inside from rfl, stays ha.1 ha.2, stays hb.1 hb.2, stays hc.1 hc.2,
      stays hd.1 hd.2]
    exact ih

theorem IsString.plain {text : Text} (string : IsString text) : Plain text := by
  obtain ⟨known⟩ := string
  next content =>
  obtain ⟨stays, none⟩ := known.scan
  have start : Scan.next .outside doubleQuote = .inside := rfl
  constructor
  · rw [Closed, List.foldl_cons, start, List.foldl_append, stays]
    rfl
  · intro c member
    rw [bare, start, bare_append, none, stays] at member
    have quote : c = doubleQuote := by simpa [bare] using member
    rw [quote]
    rfl

theorem plain_bracketed {first last : Char} {inner : Text} (before : Plain [first]) (plain : Plain inner)
    (after : Plain [last]) : Plain (first :: (inner ++ [last])) :=
  before.append (plain.append after)

mutual
theorem IsValue.plain {text : Text} : IsValue text → Plain text
  | .null => plain_of (by decide)
  | .yes => plain_of (by decide)
  | .no => plain_of (by decide)
  | .number number => number.plain
  | .string string => string.plain
  | .emptyArray spaces => plain_bracketed (plain_one (by decide) rfl) spaces.plain (plain_one (by decide) rfl)
  | .array items => plain_bracketed (plain_one (by decide) rfl) items.plain (plain_one (by decide) rfl)
  | .emptyObject spaces => plain_bracketed (plain_one (by decide) rfl) spaces.plain (plain_one (by decide) rfl)
  | .object members => plain_bracketed (plain_one (by decide) rfl) members.plain (plain_one (by decide) rfl)

theorem IsItems.plain {text : Text} : IsItems text → Plain text
  | .last before value after => (before.plain.append value.plain).append after.plain
  | .more before value after rest =>
    ((before.plain.append value.plain).append after.plain).append
      ((plain_one (c := ',') (by decide) rfl).append rest.plain)

theorem IsMembers.plain {text : Text} : IsMembers text → Plain text
  | .last before name between space value after =>
    ((before.plain.append name.plain).append between.plain).append
      ((plain_one (c := ':') (by decide) rfl).append ((space.plain.append value.plain).append after.plain))
  | .more before name between space value after rest =>
    (((before.plain.append name.plain).append between.plain).append
      ((plain_one (c := ':') (by decide) rfl).append ((space.plain.append value.plain).append after.plain))).append
      ((plain_one (c := ',') (by decide) rfl).append rest.plain)
end

theorem IsJson.plain {text : Text} (json : IsJson text) : Plain text := by
  obtain ⟨before, value, after, first, known, last, rfl⟩ := json
  exact (first.plain.append known.plain).append last.plain

/-- There is a name of a number that is not finite. -/
def HasName (text : Text) : Prop := ∃ c ∈ bare .outside text, isCapital c = true

theorem HasName.append_left {first : Text} (named : HasName first) (second : Text) : HasName (first ++ second) := by
  obtain ⟨c, member, capital⟩ := named
  exact ⟨c, by rw [bare_append]; exact List.mem_append_left _ member, capital⟩

theorem HasName.append_right {first second : Text} (closed : Closed first) (named : HasName second) :
    HasName (first ++ second) := by
  obtain ⟨c, member, capital⟩ := named
  refine ⟨c, ?_, capital⟩
  rw [bare_append, closed]
  exact List.mem_append_right _ member

def Value.Shown (value : Value) : Prop := ∀ shown, value = .number (.float shown) → IsNumber shown

theorem encodeValue_scan {value : Value} (shown : value.Shown) :
    Closed (encodeValue value) ∧ (¬value.Finite → HasName (encodeValue value)) := by
  by_cases finite : value.Finite
  · exact ⟨(isValue_encodeValue finite).plain.closed, fun lacks => absurd finite lacks⟩
  · cases value with
    | null => exact absurd trivial finite
    | text value => exact absurd trivial finite
    | number value =>
      cases value with
      | int value => exact absurd trivial finite
      | float text => exact absurd (shown text rfl) finite
      | nan => exact ⟨rfl, fun _ => ⟨'N', by decide, rfl⟩⟩
      | infinite negative =>
        cases negative with
        | false => exact ⟨rfl, fun _ => ⟨'I', by decide, rfl⟩⟩
        | true => exact ⟨rfl, fun _ => ⟨'I', by decide, rfl⟩⟩

theorem encodeMember_scan {member : Text × Value} (shown : member.2.Shown) :
    Closed (encodeMember member) ∧ (¬member.2.Finite → HasName (encodeMember member)) := by
  obtain ⟨closed, named⟩ := encodeValue_scan shown
  have before : Closed (encodeString member.1 ++ [':', ' ']) :=
    closed_append (isString_encodeString member.1).plain.closed rfl
  have parts : encodeMember member = encodeString member.1 ++ [':', ' '] ++ encodeValue member.2 := by
    rw [encodeMember, List.append_assoc]
    rfl
  rw [parts]
  exact ⟨closed_append before closed, fun lacks => (named lacks).append_right before⟩

theorem encodeMembers_scan {members : List (Text × Value)} (shown : ∀ member ∈ members, member.2.Shown) :
    Closed (encodeMembers members) ∧ ((∃ member ∈ members, ¬member.2.Finite) → HasName (encodeMembers members)) := by
  induction members with
  | nil => exact ⟨rfl, fun some_member => by obtain ⟨_, none, _⟩ := some_member; cases none⟩
  | cons member members ih =>
    obtain ⟨closed, named⟩ := encodeMember_scan (shown member List.mem_cons_self)
    obtain ⟨later, others⟩ := ih fun other known => shown other (List.mem_cons_of_mem _ known)
    cases members with
    | nil =>
      refine ⟨closed, fun some_member => ?_⟩
      obtain ⟨other, known, lacks⟩ := some_member
      rw [List.mem_singleton.mp known] at lacks
      exact named lacks
    | cons next members =>
      have parts : encodeMembers (member :: next :: members) =
          encodeMember member ++ [',', ' '] ++ encodeMembers (next :: members) := by
        rw [encodeMembers, List.append_assoc]
        · rfl
        · simp
      have before : Closed (encodeMember member ++ [',', ' ']) := closed_append closed rfl
      rw [parts]
      refine ⟨closed_append before later, fun some_member => ?_⟩
      obtain ⟨other, known, lacks⟩ := some_member
      obtain rfl | known := List.mem_cons.mp known
      · exact ((named lacks).append_left _).append_left _
      · exact (others ⟨other, known, lacks⟩).append_right before

/-- What the encoder writes is JSON exactly if every number in it is finite. -/
theorem isJson_dumps_iff {members : List (Text × Value)} (shown : ∀ member ∈ members, member.2.Shown) :
    IsJson (dumps members) ↔ ∀ member ∈ members, member.2.Finite := by
  refine ⟨fun json member known => ?_, isJson_dumps⟩
  by_contra lacks
  obtain ⟨closed, named⟩ := encodeMembers_scan shown
  have brace : Closed [openBrace] := rfl
  have inside := (named ⟨member, known, lacks⟩).append_left [closeBrace]
  obtain ⟨c, member, capital⟩ : HasName (dumps members) := inside.append_right brace
  cases capital.symm.trans (json.plain.bare c member)

end PhysicalAiStudio.Strings.Json
