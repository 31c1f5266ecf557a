import PhysicalAiStudio.Strings.Text

/-! Shell-like words: `shlex.split` of a text, with comments.

The lexer is a state machine over the characters. A word without white space, quotes,
backslashes and comment signs is read as itself, and no other text is read as a list
that begins with that text.
-/

set_option autoImplicit false

namespace PhysicalAiStudio.Strings

def singleQuote : Char := Char.ofNat 39
def doubleQuote : Char := Char.ofNat 34
def backslash : Char := Char.ofNat 92

def isQuote (c : Char) : Bool := c = singleQuote || c = doubleQuote

def isShellSpace (c : Char) : Bool := c = ' ' || c = '\t' || c = '\r' || c = '\n'

inductive ShlexState where
  | between
  | comment
  | word (token : Text) (quoted : Bool)
  | quotes (quote : Char) (token : Text)
  | escape (back : Option Char) (token : Text) (quoted : Bool)

namespace ShlexState

/-- The word that has been read, unless it is empty and was not quoted. -/
def emit (token : Text) (quoted : Bool) : List Text := if token = [] ∧ quoted = false then [] else [token]

/-- `shlex.split(text, comments=True)` from a state on; `none` where it raises `ValueError`. -/
def split : ShlexState → Text → Option (List Text)
  | between, [] => some []
  | between, c :: rest =>
    if isShellSpace c then split between rest
    else if c = '#' then split comment rest
    else if c = backslash then split (escape none [] false) rest
    else if isQuote c then split (quotes c []) rest
    else split (word [c] false) rest
  | comment, [] => some []
  | comment, c :: rest => if c = '\n' then split between rest else split comment rest
  | word token quoted, [] => some (emit token quoted)
  | word token quoted, c :: rest =>
    if isShellSpace c then (split between rest).map (emit token quoted ++ ·)
    else if c = '#' then (split comment rest).map (emit token quoted ++ ·)
    else if isQuote c then split (quotes c token) rest
    else if c = backslash then split (escape none token quoted) rest
    else split (word (token ++ [c]) quoted) rest
  | quotes _ _, [] => none
  | quotes quote token, c :: rest =>
    if c = quote then split (word token true) rest
    else if c = backslash ∧ quote = doubleQuote then split (escape (some quote) token true) rest
    else split (quotes quote (token ++ [c])) rest
  | escape _ _ _, [] => none
  | escape none token quoted, c :: rest => split (word (token ++ [c]) quoted) rest
  | escape (some quote) token _, c :: rest =>
    -- in quotes a backslash escapes itself and the quote only
    if c = backslash ∨ c = quote then split (quotes quote (token ++ [c])) rest
    else split (quotes quote (token ++ [backslash, c])) rest

end ShlexState

def shlexSplit (text : Text) : Option (List Text) := ShlexState.between.split text

/-- A character that the lexer takes as part of a word. -/
def isPlain (c : Char) : Bool := !(isShellSpace c || c = '#' || c = backslash || isQuote c)

theorem isPlain_iff {c : Char} :
    isPlain c = true ↔ isShellSpace c = false ∧ c ≠ '#' ∧ c ≠ backslash ∧ isQuote c = false := by
  simp [isPlain, and_assoc]

namespace ShlexState

theorem split_plain {text : Text} (plain : ∀ c ∈ text, isPlain c = true) (token : Text) (quoted : Bool) :
    split (word token quoted) text = some (emit (token ++ text) quoted) := by
  induction text generalizing token with
  | nil => simp [split]
  | cons c rest ih =>
    obtain ⟨space, comment, escape, quote⟩ := isPlain_iff.mp (plain c List.mem_cons_self)
    simp only [split, space, comment, escape, quote, if_false, Bool.false_eq_true]
    rw [ih fun d member => plain d (List.mem_cons_of_mem _ member), List.append_assoc, List.singleton_append]

def token : ShlexState → Text
  | between | comment => []
  | word token _ | quotes _ token | escape _ token _ => token

def lost : ShlexState → Nat
  | between | word _ _ | escape _ _ _ => 0
  | comment | quotes _ _ => 1

/-- Only a plain text keeps all its characters in the first word. -/
structure Short (state : ShlexState) (text first : Text) : Prop where
  length : first.length + state.lost ≤ state.token.length + text.length
  plain : (∀ back token quoted, state ≠ escape back token quoted) →
    first.length = state.token.length + text.length → ∀ c ∈ text, isPlain c = true

theorem emit_cons {token first : Text} {quoted : Bool} {words rest : List Text}
    (split : emit token quoted ++ words = first :: rest) :
    token = [] ∧ words = first :: rest ∨ first = token := by
  unfold emit at split
  split at split
  · next none => exact .inl ⟨none.1, split⟩
  · exact .inr (List.cons.inj split).1.symm

/-- A character that the first word does not keep, or that nothing is claimed about. -/
theorem Short.read {state next : ShlexState} {c : Char} {text first : Text} (short : Short next text first)
    (length : next.token.length + state.lost ≤ state.token.length + 1 + next.lost)
    (drops : (∀ back token quoted, state ≠ escape back token quoted) →
      next.token.length < state.token.length + 1 + next.lost) : Short state (c :: text) first := by
  have known := short.length
  refine ⟨?_, fun other same => ?_⟩
  · rw [List.length_cons]
    omega
  · have fewer := drops other
    rw [List.length_cons] at same
    omega

theorem Short.keep {state : ShlexState} {token : Text} {quoted : Bool} {c : Char} {text first : Text}
    (short : Short (word token quoted) text first) (one : token.length = state.token.length + 1)
    (none : state.lost = 0) (plain : isPlain c = true) : Short state (c :: text) first := by
  have known := short.length
  simp only [lost, ShlexState.token] at known
  refine ⟨?_, fun _ same => ?_⟩
  · rw [List.length_cons]
    omega
  · rw [List.length_cons] at same
    have rest := short.plain (by simp) (by simp only [ShlexState.token]; omega)
    exact List.forall_mem_cons.mpr ⟨plain, rest⟩

theorem Short.emitted {token first : Text} {quoted : Bool} {c : Char} {text : Text} {words rest : List Text}
    (split : emit token quoted ++ words = first :: rest)
    (later : words = first :: rest → Short between text first ∨ Short comment text first) :
    Short (word token quoted) (c :: text) first := by
  obtain ⟨rfl, same⟩ | rfl := emit_cons split
  · obtain short | short := later same
    · exact short.read (by simp [ShlexState.token, lost]) (by simp [ShlexState.token, lost])
    · exact short.read (by simp [ShlexState.token, lost]) (by simp [ShlexState.token, lost])
  · refine ⟨by simp [ShlexState.token, lost], fun _ same => ?_⟩
    simp only [ShlexState.token, List.length_cons] at same
    omega

theorem split_short {text : Text} : ∀ {state : ShlexState} {first : Text} {rest : List Text},
    split state text = some (first :: rest) → Short state text first := by
  -- The induction is on the text with the state free; every branch either keeps the character or loses it.
  induction text with
  | nil =>
    intro state first rest read
    cases state with
    | word token quoted =>
      have emitted : emit token quoted ++ [] = first :: rest := by simpa [split] using read
      obtain ⟨_, false⟩ | rfl := emit_cons emitted
      · cases false
      · exact ⟨by simp [ShlexState.token, lost], by simp⟩
    | between => simp [split] at read
    | comment => simp [split] at read
    | quotes quote token => simp [split] at read
    | escape back token quoted => cases back <;> simp [split] at read
  | cons c text ih =>
    intro state first rest read
    cases state with
    | between =>
      rw [split] at read
      split at read
      · exact (ih read).read (by simp [token, lost]) (by simp [token, lost])
      · next space =>
        split at read
        · exact (ih read).read (by simp [token, lost]) (by simp [token, lost])
        · next comment =>
          split at read
          · exact (ih read).read (by simp [token, lost]) (by simp [token, lost])
          · next escape =>
            split at read
            · exact (ih read).read (by simp [token, lost]) (by simp [token, lost])
            · next quote =>
              exact (ih read).keep rfl rfl (isPlain_iff.mpr ⟨by simpa using space, comment, escape, by simpa using quote⟩)
    | comment =>
      rw [split] at read
      split at read
      · exact (ih read).read (by simp [token, lost]) (by simp [token, lost])
      · exact (ih read).read (by simp [token, lost]) (by simp [token, lost])
    | word token quoted =>
      rw [split] at read
      split at read
      · obtain ⟨words, later, same⟩ := Option.map_eq_some_iff.mp read
        exact .emitted same fun same => .inl (ih (same ▸ later))
      · next space =>
        split at read
        · obtain ⟨words, later, same⟩ := Option.map_eq_some_iff.mp read
          exact .emitted same fun same => .inr (ih (same ▸ later))
        · next comment =>
          split at read
          · exact (ih read).read (by simp [ShlexState.token, lost]; omega) (by simp [ShlexState.token, lost])
          · next quote =>
            split at read
            · exact (ih read).read (by simp [ShlexState.token, lost]) (by simp [ShlexState.token, lost])
            · next escape =>
              exact (ih read).keep (by simp [ShlexState.token]) rfl
                (isPlain_iff.mpr ⟨by simpa using space, comment, escape, by simpa using quote⟩)
    | quotes quote token =>
      rw [split] at read
      split at read
      · exact (ih read).read (by simp [ShlexState.token, lost]) (by simp [ShlexState.token, lost])
      · split at read
        · exact (ih read).read (by simp [ShlexState.token, lost]) (by simp [ShlexState.token, lost])
        · exact (ih read).read (by simp [ShlexState.token, lost]) (by simp [ShlexState.token, lost])
    | escape back token quoted =>
      cases back with
      | none =>
        rw [split] at read
        exact (ih read).read (by simp [ShlexState.token, lost]) (by simp)
      | some quote =>
        rw [split] at read
        split at read
        · exact (ih read).read (by simp [ShlexState.token, lost]) (by simp)
        · exact (ih read).read (by simp [ShlexState.token, lost]) (by simp)

end ShlexState

theorem shlexSplit_plain {text : Text} (nonempty : text ≠ []) (plain : ∀ c ∈ text, isPlain c = true) :
    shlexSplit text = some [text] := by
  cases text with
  | nil => contradiction
  | cons c rest =>
    obtain ⟨space, comment, escape, quote⟩ := isPlain_iff.mp (plain c List.mem_cons_self)
    rw [shlexSplit, ShlexState.split, space, quote, if_neg Bool.false_ne_true, if_neg comment, if_neg escape,
      if_neg Bool.false_ne_true, ShlexState.split_plain fun d member => plain d (List.mem_cons_of_mem _ member)]
    rfl

theorem plain_of_shlexSplit {text : Text} {rest : List Text} (split : shlexSplit text = some (text :: rest)) :
    ∀ c ∈ text, isPlain c = true :=
  (ShlexState.split_short split).plain (by simp) (by simp [ShlexState.token])

end PhysicalAiStudio.Strings
