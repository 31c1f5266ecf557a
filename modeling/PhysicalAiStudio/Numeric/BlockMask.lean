import Mathlib.Data.List.Basic
import Mathlib.Data.List.Forall2
import Mathlib.Algebra.Order.Group.Nat
import Mathlib.Algebra.Ring.Nat

/-! Block masks: who may read whom in a row of tokens, given the blocks the tokens are in.

A row of counts opens a new block at every one of them; a token reads the valid tokens of its own
block and of the blocks before it. A mixing of scored values that gives a masked value no weight reads
the valid tokens only, so two rows that agree on them are mixed to one value.
-/

set_option autoImplicit false

namespace PhysicalAiStudio.Numeric

variable {Item Other Key Value Score : Type}

/-! ### Running sums -/

def runningSums : Nat → List Nat → List Nat
  | _, [] => []
  | total, count :: rest => (total + count) :: runningSums (total + count) rest

def cumsum (counts : List Nat) : List Nat := runningSums 0 counts

@[simp] theorem length_runningSums (total : Nat) (counts : List Nat) :
    (runningSums total counts).length = counts.length := by
  induction counts generalizing total with
  | nil => rfl
  | cons count rest ih => rw [runningSums, List.length_cons, ih, List.length_cons]

@[simp] theorem length_cumsum (counts : List Nat) : (cumsum counts).length = counts.length := length_runningSums 0 counts

theorem runningSums_append (total : Nat) (first second : List Nat) :
    runningSums total (first ++ second) = runningSums total first ++ runningSums (total + first.sum) second := by
  induction first generalizing total with
  | nil => rfl
  | cons count rest ih =>
    rw [List.cons_append, runningSums, ih, runningSums, List.cons_append, List.sum_cons, Nat.add_assoc]

theorem runningSums_eq_map (total : Nat) (counts : List Nat) :
    runningSums total counts = (cumsum counts).map (total + ·) := by
  suffices general : ∀ base, runningSums (total + base) counts = (runningSums base counts).map (total + ·) from general 0
  induction counts with
  | nil => exact fun _ => rfl
  | cons count rest ih =>
    intro base
    rw [runningSums, runningSums, List.map_cons, ← ih, Nat.add_assoc]

theorem cumsum_append (first second : List Nat) :
    cumsum (first ++ second) = cumsum first ++ (cumsum second).map (first.sum + ·) := by
  rw [cumsum, runningSums_append, Nat.zero_add, runningSums_eq_map first.sum]
  rfl

theorem runningSums_le {total sum : Nat} {counts : List Nat} (member : sum ∈ runningSums total counts) :
    total ≤ sum ∧ sum ≤ total + counts.sum := by
  induction counts generalizing total with
  | nil => cases member
  | cons count rest ih =>
    rw [runningSums, List.mem_cons] at member
    rw [List.sum_cons]
    obtain rfl | later := member
    · omega
    · have := ih later
      omega

theorem cumsum_le {sum : Nat} {counts : List Nat} (member : sum ∈ cumsum counts) : sum ≤ counts.sum := by
  have := (runningSums_le member).2
  omega

/-- A row that opens a block with its first token has no sum below one. -/
theorem cumsum_pos {sum count : Nat} {rest : List Nat} (opens : 0 < count) (member : sum ∈ cumsum (count :: rest)) :
    0 < sum := by
  rw [cumsum, runningSums, List.mem_cons] at member
  obtain rfl | later := member
  · omega
  · have := (runningSums_le later).1
    omega

/-! ### Block masks -/

abbrev Tokens := List (Bool × Nat)

def readers (tokens : Tokens) (reader : Bool × Nat) : List Bool :=
  tokens.map fun token => decide (token.2 ≤ reader.2) && (token.1 && reader.1)

def blockMask (tokens : Tokens) : List (List Bool) := tokens.map (readers tokens)

@[simp] theorem length_readers (tokens : Tokens) (reader : Bool × Nat) : (readers tokens reader).length = tokens.length :=
  List.length_map _

@[simp] theorem length_blockMask (tokens : Tokens) : (blockMask tokens).length = tokens.length := List.length_map _

theorem width_blockMask {tokens : Tokens} {row : List Bool} (member : row ∈ blockMask tokens) :
    row.length = tokens.length := by
  rw [blockMask, List.mem_map] at member
  obtain ⟨reader, _, rfl⟩ := member
  exact length_readers tokens reader

/-- No token reads a later block; all read the earlier ones, as far as they are valid. -/
theorem blockMask_append {first second : Tokens} (valid : ∀ token ∈ second, token.1 = true)
    (later : ∀ before ∈ first, ∀ after ∈ second, before.2 < after.2) :
    blockMask (first ++ second) =
      (blockMask first).map (· ++ List.replicate second.length false) ++
        (blockMask second).map (first.map Prod.fst ++ ·) := by
  rw [blockMask, List.map_append, blockMask, blockMask, List.map_map, List.map_map]
  congr 1
  · refine List.map_congr_left fun reader inside => ?_
    have blind : second.map (fun token => decide (token.2 ≤ reader.2) && (token.1 && reader.1)) =
        List.replicate second.length false := by
      rw [List.eq_replicate_iff, List.length_map]
      refine ⟨rfl, fun seen member => ?_⟩
      rw [List.mem_map] at member
      obtain ⟨token, there, rfl⟩ := member
      rw [decide_eq_false (Nat.not_le.mpr (later reader inside token there)), Bool.false_and]
    rw [readers, List.map_append, blind]
    rfl
  · refine List.map_congr_left fun reader inside => ?_
    have open_to : first.map (fun token => decide (token.2 ≤ reader.2) && (token.1 && reader.1)) = first.map Prod.fst := by
      refine List.map_congr_left fun token there => ?_
      rw [decide_eq_true (Nat.le_of_lt (later token there reader inside)), valid reader inside, Bool.and_true, Bool.true_and]
    rw [readers, List.map_append, open_to]
    rfl

/-- Moving all blocks by one amount changes nothing. -/
theorem blockMask_shift (tokens : Tokens) (amount : Nat) :
    blockMask (tokens.map fun token => (token.1, amount + token.2)) = blockMask tokens := by
  rw [blockMask, List.map_map, blockMask]
  refine List.map_congr_left fun reader _ => ?_
  rw [Function.comp_apply, readers, List.map_map, readers]
  refine List.map_congr_left fun token _ => ?_
  rw [Function.comp_apply]
  congr 1
  exact decide_eq_decide.mpr (Nat.add_le_add_iff_left)

/-- A valid row that opens a block of its own, put behind another row. -/
theorem blockMask_cat {valid valid' : List Bool} {counts counts' : List Nat} (long : valid.length = counts.length)
    (all : ∀ flag ∈ valid', flag = true) (opens : ∀ first ∈ counts'.head?, 0 < first) :
    blockMask ((valid ++ valid').zip (cumsum (counts ++ counts'))) =
      (blockMask (valid.zip (cumsum counts))).map (· ++ List.replicate (valid'.zip (cumsum counts')).length false) ++
        (blockMask (valid'.zip (cumsum counts'))).map (valid ++ ·) := by
  have tokens : (valid ++ valid').zip (cumsum (counts ++ counts')) =
      valid.zip (cumsum counts) ++ (valid'.zip (cumsum counts')).map fun token => (token.1, counts.sum + token.2) := by
    rw [cumsum_append, List.zip_append (by rw [length_cumsum, long]), List.zip_map_right]
    rfl
  have shown : (valid.zip (cumsum counts)).map Prod.fst = valid :=
    List.map_fst_zip (Nat.le_of_eq (by rw [length_cumsum, long]))
  rw [tokens, blockMask_append, blockMask_shift, List.length_map, shown]
  · intro token inside
    rw [List.mem_map] at inside
    obtain ⟨token, there, rfl⟩ := inside
    exact all token.1 (List.of_mem_zip there).1
  · intro before early after late
    rw [List.mem_map] at late
    obtain ⟨token, there, rfl⟩ := late
    have low : before.2 ≤ counts.sum := cumsum_le (List.of_mem_zip early).2
    have high : 0 < token.2 := by
      have member := (List.of_mem_zip there).2
      cases counts' with
      | nil => cases member
      | cons first rest => exact cumsum_pos (opens first rfl) member
    change before.2 < counts.sum + token.2
    omega

theorem readers_valid (tokens : Tokens) (reader : Bool × Nat) :
    List.Forall₂ (fun seen token => seen = true → token.1 = true) (readers tokens reader) tokens := by
  rw [readers, List.forall₂_map_left_iff, List.forall₂_same]
  intro token _ seen
  rw [Bool.and_eq_true, Bool.and_eq_true] at seen
  exact seen.2.1

theorem readers_self {tokens : Tokens} {reader : Bool × Nat} (inside : reader ∈ tokens) (valid : reader.1 = true) :
    true ∈ readers tokens reader := by
  rw [readers, List.mem_map]
  refine ⟨reader, inside, ?_⟩
  rw [decide_eq_true (Nat.le_refl _), valid]
  rfl

/-! ### Rows that agree where they are valid -/

/-- Two rows with the same entry wherever the entry is valid. -/
inductive Agree : List Bool → List Item → List Item → Prop where
  | nil : Agree [] [] []
  | cons {valid : Bool} {one other : Item} {flags : List Bool} {row row' : List Item} :
      (valid = true → one = other) → Agree flags row row' → Agree (valid :: flags) (one :: row) (other :: row')

namespace Agree

variable {flags : List Bool} {row row' : List Item}

theorem refl (flags : List Bool) {row : List Item} (same : flags.length = row.length) : Agree flags row row := by
  induction row generalizing flags with
  | nil =>
    cases flags with
    | nil => exact .nil
    | cons flag rest => cases same
  | cons item row ih =>
    cases flags with
    | nil => cases same
    | cons flag rest => exact .cons (fun _ => rfl) (ih rest (Nat.succ.inj same))

theorem length_left (agree : Agree flags row row') : row.length = flags.length := by
  induction agree with
  | nil => rfl
  | cons _ _ ih => rw [List.length_cons, ih, List.length_cons]

theorem length_right (agree : Agree flags row row') : row'.length = flags.length := by
  induction agree with
  | nil => rfl
  | cons _ _ ih => rw [List.length_cons, ih, List.length_cons]

theorem map (change : Item → Other) (agree : Agree flags row row') :
    Agree flags (row.map change) (row'.map change) := by
  induction agree with
  | nil => exact .nil
  | cons same _ ih => exact .cons (fun valid => congrArg change (same valid)) ih

theorem zipWith_right {side : List Other} {Result : Type} (combine : Item → Other → Result)
    (agree : Agree flags row row') (long : side.length = flags.length) :
    Agree flags (row.zipWith combine side) (row'.zipWith combine side) := by
  induction agree generalizing side with
  | nil =>
    cases side with
    | nil => exact .nil
    | cons _ _ => cases long
  | cons same _ ih =>
    cases side with
    | nil => cases long
    | cons item side =>
      exact .cons (fun valid => congrArg (combine · item) (same valid)) (ih (Nat.succ.inj long))

theorem zipWith {Result : Type} {side : List Other} {combine combine' : Item → Other → Result}
    (agree : Agree flags row row')
    (each : List.Forall₂ (fun valid item => valid = true → ∀ entry, combine entry item = combine' entry item) flags side) :
    Agree flags (row.zipWith combine side) (row'.zipWith combine' side) := by
  induction agree generalizing side with
  | nil =>
    cases each
    exact .nil
  | cons same _ ih =>
    cases each with
    | cons here rest => exact .cons (fun valid => by rw [same valid, here valid]) (ih rest)

theorem zip {side side' : List Other} (agree : Agree flags row row') (sides : Agree flags side side') :
    Agree flags (row.zip side) (row'.zip side') := by
  induction agree generalizing side side' with
  | nil =>
    cases sides
    exact .nil
  | cons same _ ih =>
    cases sides with
    | cons same' rest => exact .cons (fun valid => Prod.ext (same valid) (same' valid)) (ih rest)

theorem combine {Result : Type} {side side' : List Other} (op : Item → Other → Result) (agree : Agree flags row row')
    (sides : Agree flags side side') : Agree flags (row.zipWith op side) (row'.zipWith op side') := by
  rw [← List.map_uncurry_zip_eq_zipWith, ← List.map_uncurry_zip_eq_zipWith]
  exact (agree.zip sides).map _

theorem append {flags' : List Bool} {more more' : List Item} (agree : Agree flags row row')
    (further : Agree flags' more more') : Agree (flags ++ flags') (row ++ more) (row' ++ more') := by
  induction agree with
  | nil => exact further
  | cons same _ ih => exact .cons same ih

/-- Through a mask that reads valid entries only, both rows show the same. -/
theorem filter_eq {mask : List Bool} (agree : Agree flags row row')
    (reads : List.Forall₂ (fun seen valid => seen = true → valid = true) mask flags) :
    (mask.zip row).filter Prod.fst = (mask.zip row').filter Prod.fst := by
  induction agree generalizing mask with
  | nil => rw [List.zip_nil_right]
  | cons same _ ih =>
    cases reads with
    | cons valid rest =>
      rename_i seen mask
      cases seen with
      | false => exact ih rest
      | true =>
        have here := same (valid rfl)
        rw [List.zip_cons_cons, List.zip_cons_cons, List.filter_cons_of_pos rfl, List.filter_cons_of_pos rfl, ih rest, here]

end Agree

/-! ### Mixing scored values -/

/-- A mixing that gives an entry with the masked score no weight, as long as another entry has one. -/
structure Masking (masked : Score) (mix : List (Score × Value) → Value) : Prop where
  drops : ∀ (before : List (Score × Value)) (value : Value) (after : List (Score × Value)),
    (∃ entry ∈ before ++ after, entry.1 ≠ masked) → mix (before ++ (masked, value) :: after) = mix (before ++ after)

/-- The entries a mask lets through keep their score, the others get the masked one. -/
def maskScores (masked : Score) (score : Key → Score) (entries : List (Bool × Key × Value)) : List (Score × Value) :=
  entries.map fun entry => (if entry.1 then score entry.2.1 else masked, entry.2.2)

variable {masked : Score} {mix : List (Score × Value) → Value} {score : Key → Score}

theorem mix_filter (masking : Masking masked mix) (unmasked : ∀ key, score key ≠ masked)
    (entries : List (Bool × Key × Value)) (read : ∃ entry ∈ entries, entry.1 = true) :
    mix (maskScores masked score entries) = mix (maskScores masked score (entries.filter Prod.fst)) := by
  -- The induction drops the hidden entries one by one and needs what stands before them as a parameter.
  suffices general : ∀ before : List (Score × Value),
      (∃ entry ∈ before ++ maskScores masked score entries, entry.1 ≠ masked) →
      mix (before ++ maskScores masked score entries) =
        mix (before ++ maskScores masked score (entries.filter Prod.fst)) by
    refine general [] ?_
    obtain ⟨entry, inside, seen⟩ := read
    refine ⟨_, List.mem_map.mpr ⟨entry, inside, rfl⟩, ?_⟩
    rw [if_pos seen]
    exact unmasked entry.2.1
  clear read
  induction entries with
  | nil => exact fun _ _ => rfl
  | cons entry rest ih =>
    obtain ⟨seen, key, value⟩ := entry
    intro before some_read
    cases seen with
    | true =>
      have here : (score key, value) ∈ before ++ [(score key, value)] := List.mem_append_right _ List.mem_cons_self
      have reads := ih (before ++ [(score key, value)]) ⟨_, List.mem_append_left _ here, unmasked key⟩
      rwa [List.append_assoc, List.append_assoc] at reads
    | false =>
      change ∃ entry ∈ before ++ (masked, value) :: maskScores masked score rest, entry.1 ≠ masked at some_read
      -- A hidden entry is masked, so the one that is read stands elsewhere.
      have others : ∃ entry ∈ before ++ maskScores masked score rest, entry.1 ≠ masked := by
        obtain ⟨entry, inside, apart⟩ := some_read
        rw [List.mem_append, List.mem_cons] at inside
        obtain early | rfl | late := inside
        · exact ⟨entry, List.mem_append_left _ early, apart⟩
        · exact absurd rfl apart
        · exact ⟨entry, List.mem_append_right _ late, apart⟩
      exact (masking.drops before value _ others).trans (ih before others)

theorem mix_congr (masking : Masking masked mix) (unmasked : ∀ key, score key ≠ masked)
    {entries entries' : List (Bool × Key × Value)} (read : ∃ entry ∈ entries, entry.1 = true)
    (same : entries.filter Prod.fst = entries'.filter Prod.fst) :
    mix (maskScores masked score entries) = mix (maskScores masked score entries') := by
  have read' : ∃ entry ∈ entries', entry.1 = true := by
    obtain ⟨entry, inside, seen⟩ := read
    have kept : entry ∈ entries'.filter Prod.fst := by
      rw [← same]
      exact List.mem_filter.mpr ⟨inside, seen⟩
    exact ⟨entry, (List.mem_filter.mp kept).1, seen⟩
  rw [mix_filter masking unmasked entries read, mix_filter masking unmasked entries' read', same]

end PhysicalAiStudio.Numeric
