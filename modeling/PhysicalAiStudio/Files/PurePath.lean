import Mathlib.Data.List.Infix
import PhysicalAiStudio.Strings.Text

/-! Paths as texts, as the parts they are made of, and the places they lead to.

The parts are those of POSIX paths. A place is a list of names from the root of the file
system down; there are no links, so a parent part leads to the place above.
-/

set_option autoImplicit false

namespace PhysicalAiStudio.Files
open Strings

abbrev Place := List Text

def slash : Char := '/'

def up : Text := ['.', '.']

def IsPart (part : Text) : Prop := part ≠ [] ∧ part ≠ ['.'] ∧ slash ∉ part

instance (part : Text) : Decidable (IsPart part) := inferInstanceAs (Decidable (_ ∧ _ ∧ _))

structure PurePath where
  root : Text
  parts : List Text
  anchored : root = [] ∨ root = [slash] ∨ root = [slash, slash]
  plain : ∀ part ∈ parts, IsPart part
  deriving DecidableEq

namespace PurePath

/-- The root of a text, and what follows it. Two slashes are a root of their own, more are one. -/
def splitroot : Text → Text × Text
  | '/' :: '/' :: '/' :: rest => ([slash], '/' :: '/' :: rest)
  | '/' :: '/' :: rest => ([slash, slash], rest)
  | '/' :: rest => ([slash], rest)
  | text => ([], text)

theorem splitroot_anchored (text : Text) :
    (splitroot text).1 = [] ∨ (splitroot text).1 = [slash] ∨ (splitroot text).1 = [slash, slash] := by
  unfold splitroot
  split
  · exact .inr (.inl rfl)
  · exact .inr (.inr rfl)
  · exact .inr (.inl rfl)
  · exact .inl rfl

theorem notMem_of_splitOn {part text : Text} (member : part ∈ text.splitOn slash) : slash ∉ part := by
  induction text generalizing part with
  | nil =>
    rw [List.splitOn_nil, List.mem_singleton] at member
    subst member
    exact List.not_mem_nil
  | cons c rest ih =>
    rw [List.splitOn_cons_eq_if_modifyHead] at member
    by_cases here : c = slash
    · rw [if_pos (by simpa using here)] at member
      rcases List.mem_cons.mp member with rfl | later
      · exact List.not_mem_nil
      · exact ih later
    · rw [if_neg (by simpa using here)] at member
      cases split : rest.splitOn slash with
      | nil => exact absurd split (List.splitOn_ne_nil _ _)
      | cons first others =>
        rw [split, List.modifyHead_cons] at member
        rcases List.mem_cons.mp member with rfl | later
        · intro inside
          rcases List.mem_cons.mp inside with same | inside
          · exact here same.symm
          · exact ih (by rw [split]; exact List.mem_cons_self) inside
        · exact ih (by rw [split]; exact List.mem_cons_of_mem _ later)

/-- `Path(text)`: the empty parts and those that stay where they are are left out. -/
def parse (text : Text) : PurePath where
  root := (splitroot text).1
  parts := ((splitroot text).2.splitOn slash).filter fun part => part ≠ [] ∧ part ≠ ['.']
  anchored := splitroot_anchored text
  plain := by
    intro part member
    obtain ⟨split, kept⟩ := List.mem_filter.mp member
    obtain ⟨nonempty, moves⟩ := of_decide_eq_true kept
    exact ⟨nonempty, moves, notMem_of_splitOn split⟩

def text (path : PurePath) : Text :=
  if path.root = [] ∧ path.parts = [] then ['.'] else path.root ++ [slash].intercalate path.parts

def joinpath (base other : PurePath) : PurePath :=
  if other.root = [] then
    { base with
      parts := base.parts ++ other.parts
      plain := fun part member => (List.mem_append.mp member).elim (base.plain part) (other.plain part) }
  else other

/-- `path.relative_to(other)`, if it does not raise. -/
def relativeTo (path other : PurePath) : Option PurePath :=
  if path.root = other.root ∧ other.parts <+: path.parts then
    some {
      root := []
      parts := path.parts.drop other.parts.length
      anchored := .inl rfl
      plain := fun part member => path.plain part (List.mem_of_mem_drop member) }
  else none

def follow (place : Place) (parts : List Text) : Place :=
  parts.foldl (fun place part => if part = up then place.dropLast else place ++ [part]) place

def place (workingDirectory : Place) (path : PurePath) : Place :=
  follow (if path.root = [] then workingDirectory else []) path.parts

/-- The parts do not lead above the place where they start, from so many names below it. -/
def Stays : Nat → List Text → Prop
  | _, [] => True
  | depth, part :: rest => if part = up then 0 < depth ∧ Stays (depth - 1) rest else Stays (depth + 1) rest

instance Stays.decidable : (depth : Nat) → (parts : List Text) → Decidable (Stays depth parts)
  | _, [] => isTrue trivial
  | depth, part :: rest =>
    if same : part = up then
      @decidable_of_iff _ (0 < depth ∧ Stays (depth - 1) rest) (by rw [Stays, if_pos same])
        (@instDecidableAnd _ _ _ (Stays.decidable (depth - 1) rest))
    else
      @decidable_of_iff _ (Stays (depth + 1) rest) (by rw [Stays, if_neg same]) (Stays.decidable (depth + 1) rest)

theorem follow_append (place : Place) (first second : List Text) :
    follow place (first ++ second) = follow (follow place first) second := by
  rw [follow, List.foldl_append]
  rfl

/-- Parts that stay below a place lead to the same names below every place. -/
theorem follow_stays (base below : Place) {parts : List Text} (stays : Stays below.length parts) :
    follow (base ++ below) parts = base ++ follow below parts := by
  induction parts generalizing below with
  | nil => rfl
  | cons part rest ih =>
    rw [Stays] at stays
    simp only [follow, List.foldl_cons] at ih ⊢
    by_cases same : part = up
    · rw [if_pos same] at stays
      have nonempty : below ≠ [] := List.length_pos_iff.mp stays.1
      rw [if_pos same, if_pos same, List.dropLast_append_of_ne_nil nonempty]
      exact ih _ (by rw [List.length_dropLast]; exact stays.2)
    · rw [if_neg same] at stays
      rw [if_neg same, if_neg same, List.append_assoc]
      exact ih _ (by rw [List.length_append]; exact stays)

theorem splitroot_append {root rest : Text} (anchored : root = [] ∨ root = [slash] ∨ root = [slash, slash])
    (plain : rest.head? ≠ some slash) : splitroot (root ++ rest) = (root, rest) := by
  cases rest with
  | nil => obtain rfl | rfl | rfl := anchored <;> rfl
  | cons c rest =>
    have other : c ≠ '/' := fun same => plain (congrArg some same)
    obtain rfl | rfl | rfl := anchored
    · unfold splitroot
      split <;> simp_all
    · unfold splitroot
      split <;> simp_all [slash]
    · unfold splitroot
      split <;> simp_all [slash]
      rename_i apart same
      exact apart _ same.symm

theorem head?_intercalate {parts : List Text} (plain : ∀ part ∈ parts, IsPart part) :
    ([slash].intercalate parts).head? ≠ some slash := by
  cases parts with
  | nil => exact Option.some_ne_none slash ∘ Eq.symm
  | cons part rest =>
    obtain ⟨nonempty, -, whole⟩ := plain part List.mem_cons_self
    intro starts
    have first : ([slash].intercalate (part :: rest)).head? = part.head? := by
      cases rest with
      | nil => rw [List.intercalate_singleton]
      | cons next rest =>
        rw [List.intercalate_cons_cons, List.append_assoc, List.head?_append_of_ne_nil _ nonempty]
    rw [first] at starts
    exact whole (List.mem_of_mem_head? starts)

theorem parse_text (path : PurePath) : parse path.text = path := by
  obtain ⟨root, parts, anchored, plain⟩ := path
  simp only [parse, PurePath.mk.injEq]
  by_cases empty : root = [] ∧ parts = []
  · obtain ⟨rfl, rfl⟩ := empty
    exact ⟨rfl, rfl⟩
  · rw [text, if_neg empty, splitroot_append anchored (head?_intercalate plain)]
    refine ⟨rfl, ?_⟩
    show List.filter _ (([slash].intercalate parts).splitOn slash) = parts
    by_cases none : parts = []
    · rw [none]
      rfl
    · rw [List.splitOn_intercalate slash (fun part member => (plain part member).2.2) none, List.filter_eq_self]
      exact fun part member => decide_eq_true ⟨(plain part member).1, (plain part member).2.1⟩

theorem joinpath_root {base other : PurePath} (relative : other.root = []) :
    (base.joinpath other).root = base.root := by
  rw [joinpath, if_pos relative]

theorem joinpath_parts {base other : PurePath} (relative : other.root = []) :
    (base.joinpath other).parts = base.parts ++ other.parts := by
  rw [joinpath, if_pos relative]

theorem relativeTo_eq_some {path other relative : PurePath} (below : path.relativeTo other = some relative) :
    relative.root = [] ∧ path.root = other.root ∧ path.parts = other.parts ++ relative.parts := by
  unfold relativeTo at below
  split at below
  · rename_i starts
    obtain ⟨same, rest, split⟩ := starts
    cases below
    refine ⟨rfl, same, ?_⟩
    show path.parts = other.parts ++ path.parts.drop other.parts.length
    rw [← split, List.drop_left]
  · cases below

/-- A path that goes on from another without leaving it leads to the same names below its place. -/
theorem place_append {path base relative : PurePath} (workingDirectory : Place) (root : path.root = base.root)
    (parts : path.parts = base.parts ++ relative.parts) (stays : Stays 0 relative.parts) :
    path.place workingDirectory = base.place workingDirectory ++ follow [] relative.parts := by
  rw [place, root, parts, follow_append, ← follow_stays _ [] stays, List.append_nil]
  rfl

end PurePath

end PhysicalAiStudio.Files
