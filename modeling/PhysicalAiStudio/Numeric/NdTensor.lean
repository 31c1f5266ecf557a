import PhysicalAiStudio.Numeric.Tensor
import Mathlib.Algebra.BigOperators.Group.List.Basic
import Mathlib.Data.List.Forall2

/-! Tensors of any number of axes, and how they broadcast.

The axes of a tensor and the positions of an index are listed from the last axis, the one along which
entries are next to each other, so that broadcasting aligns the fronts of the lists.
-/

set_option autoImplicit false

namespace PhysicalAiStudio.Numeric

structure NdTensor (α : Type) where
  axes : List Nat
  entry : List Nat → α

namespace NdTensor

variable {α β γ : Type}

/-! ### Axes -/

/-- An axis of extent one, or one that is missing, is repeated along the axis of the larger tensor. -/
def Fits : List Nat → List Nat → Prop
  | [], _ => True
  | _ :: _, [] => False
  | extent :: small, full :: large => (extent = full ∨ extent = 1) ∧ Fits small large

def Inside (axes index : List Nat) : Prop :=
  List.Forall₂ (fun position extent => position < extent) index axes

/-- The axes of the result of an operation on tensors of these axes. -/
def join : List Nat → List Nat → List Nat
  | [], second => second
  | first, [] => first
  | extent :: first, other :: second => (if extent = 1 then other else extent) :: join first second

@[simp] theorem join_nil_right (axes : List Nat) : join axes [] = axes := by
  cases axes <;> rfl

@[simp] theorem join_nil_left (axes : List Nat) : join [] axes = axes := rfl

theorem fits_nil (large : List Nat) : Fits [] large := by
  cases large <;> trivial

theorem fits_self (axes : List Nat) : Fits axes axes := by
  induction axes with
  | nil => trivial
  | cons extent rest ih => exact ⟨Or.inl rfl, ih⟩

theorem fits_append (axes leading : List Nat) : Fits axes (axes ++ leading) := by
  induction axes with
  | nil => exact fits_nil leading
  | cons extent rest ih => exact ⟨Or.inl rfl, ih⟩

theorem join_of_fits {small large : List Nat} (fits : Fits small large) : join small large = large := by
  induction small generalizing large with
  | nil => rfl
  | cons extent small ih =>
      cases large with
      | nil => exact fits.elim
      | cons full large =>
          rw [join, ih fits.2]
          rcases fits.1 with same | one
          · rw [same, ite_self]
          · rw [if_pos one]

theorem join_of_fits_right {small large : List Nat} (fits : Fits small large) : join large small = large := by
  induction small generalizing large with
  | nil => exact join_nil_right large
  | cons extent small ih =>
      cases large with
      | nil => exact fits.elim
      | cons full large =>
          rw [join, ih fits.2]
          rcases fits.1 with same | one
          · rw [same, ite_self]
          · rw [one]
            split
            · next single => rw [single]
            · rfl

@[simp] theorem join_self (axes : List Nat) : join axes axes = axes :=
  join_of_fits (fits_self axes)

/-! ### Reading entries -/

/-- The position that a tensor of these axes is read at for an index of a larger one. -/
def restrict (axes index : List Nat) : List Nat :=
  List.zipWith axis axes index

def read (tensor : NdTensor α) (index : List Nat) : α :=
  tensor.entry (restrict tensor.axes index)

/-- Reading through an intermediate tensor reads the same entry. -/
theorem restrict_restrict {small large : List Nat} (fits : Fits small large) (index : List Nat) :
    restrict small (restrict large index) = restrict small index := by
  induction small generalizing large index with
  | nil => rfl
  | cons extent small ih =>
      cases large with
      | nil => exact fits.elim
      | cons full large =>
          cases index with
          | nil => rfl
          | cons position index =>
              have rest : List.zipWith axis small (List.zipWith axis large index) = List.zipWith axis small index :=
                ih fits.2 index
              have first : axis extent (axis full position) = axis extent position := by
                rcases fits.1 with same | one
                · rw [same]
                  unfold axis
                  split <;> rfl
                · rw [one]
                  rfl
              simp only [restrict, List.zipWith_cons_cons, rest, first]

theorem restrict_inside {axes index : List Nat} (inside : Inside axes index) : restrict axes index = index := by
  induction inside with
  | nil => rfl
  | cons bounded _ ih =>
      simp only [restrict, List.zipWith_cons_cons] at ih ⊢
      rw [ih, axis_inside bounded]

theorem inside_restrict {small large index : List Nat} (fits : Fits small large) (inside : Inside large index) :
    Inside small (restrict small index) := by
  induction small generalizing large index with
  | nil => exact List.Forall₂.nil
  | cons extent small ih =>
      cases inside with
      | nil => exact fits.elim
      | @cons position full index large bounded within =>
          refine List.Forall₂.cons ?_ (ih fits.2 within)
          unfold axis
          split
          · next one => omega
          · next many =>
              have same : extent = full := fits.1.resolve_right many
              omega

theorem read_inside {tensor : NdTensor α} {index : List Nat} (inside : Inside tensor.axes index) :
    tensor.read index = tensor.entry index := by
  rw [read, restrict_inside inside]

/-! ### Operations -/

def scalar (value : α) : NdTensor α :=
  ⟨[], fun _ => value⟩

def map (op : α → β) (tensor : NdTensor α) : NdTensor β :=
  ⟨tensor.axes, fun index => op (tensor.entry index)⟩

def map2 (op : α → β → γ) (first : NdTensor α) (second : NdTensor β) : NdTensor γ :=
  ⟨join first.axes second.axes, fun index => op (first.read index) (second.read index)⟩

@[simp] theorem axes_scalar (value : α) : (scalar value).axes = [] := rfl

@[simp] theorem read_scalar (value : α) (index : List Nat) : (scalar value).read index = value := rfl

@[simp] theorem axes_map (op : α → β) (tensor : NdTensor α) : (map op tensor).axes = tensor.axes := rfl

@[simp] theorem read_map (op : α → β) (tensor : NdTensor α) (index : List Nat) :
    (map op tensor).read index = op (tensor.read index) := rfl

@[simp] theorem axes_map2 (op : α → β → γ) (first : NdTensor α) (second : NdTensor β) :
    (map2 op first second).axes = join first.axes second.axes := rfl

theorem read_map2_right (op : α → β → γ) {first : NdTensor α} {second : NdTensor β}
    (fits : Fits second.axes first.axes) (index : List Nat) :
    (map2 op first second).read index = op (first.read index) (second.read index) := by
  show op (first.read (restrict (join first.axes second.axes) index))
    (second.read (restrict (join first.axes second.axes) index)) = _
  rw [join_of_fits_right fits]
  simp only [read, restrict_restrict fits, restrict_restrict (fits_self first.axes)]

theorem read_map2_left (op : α → β → γ) {first : NdTensor α} {second : NdTensor β}
    (fits : Fits first.axes second.axes) (index : List Nat) :
    (map2 op first second).read index = op (first.read index) (second.read index) := by
  show op (first.read (restrict (join first.axes second.axes) index))
    (second.read (restrict (join first.axes second.axes) index)) = _
  rw [join_of_fits fits]
  simp only [read, restrict_restrict fits, restrict_restrict (fits_self second.axes)]

/-! ### All entries -/

def indices : List Nat → List (List Nat)
  | [] => [[]]
  | extent :: rest => (List.range extent).flatMap fun position => (indices rest).map (position :: ·)

theorem mem_indices {axes index : List Nat} : index ∈ indices axes ↔ Inside axes index := by
  induction axes generalizing index with
  | nil => simp [indices, Inside]
  | cons extent rest ih =>
      cases index with
      | nil => simp [indices, Inside]
      | cons position index =>
          simp only [indices, Inside, List.mem_flatMap, List.mem_range, List.mem_map, List.cons.injEq,
            List.forall₂_cons]
          constructor
          · rintro ⟨first, bounded, tail, member, same, rest⟩
            subst same rest
            exact ⟨bounded, ih.mp member⟩
          · rintro ⟨bounded, within⟩
            exact ⟨position, bounded, index, ih.mpr within, rfl, rfl⟩

/-! ### Another shape -/

def flatten : List Nat → List Nat → Nat
  | extent :: axes, position :: index => position + extent * flatten axes index
  | _, _ => 0

def unflatten : List Nat → Nat → List Nat
  | [], _ => []
  | extent :: axes, place => place % extent :: unflatten axes (place / extent)

def view (axes : List Nat) (tensor : NdTensor α) : Option (NdTensor α) :=
  if axes.prod = tensor.axes.prod then
    some ⟨axes, fun index => tensor.entry (unflatten tensor.axes (flatten axes index))⟩
  else none

theorem axes_of_view {axes : List Nat} {tensor viewed : NdTensor α} (done : tensor.view axes = some viewed) :
    viewed.axes = axes := by
  unfold view at done
  split at done
  · cases done
    rfl
  · cases done

end NdTensor

end PhysicalAiStudio.Numeric
