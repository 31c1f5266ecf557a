import Mathlib.Algebra.Group.Defs
import Mathlib.Tactic.SplitIfs

/-! Tensors of two and three axes with their shape, and the operations that read and join them.

An entry outside the shape reads as zero, so that zero padding is a wider shape over the same
entries. Operations that a library would refuse for the shapes they are given return `none`.
-/

set_option autoImplicit false

namespace PhysicalAiStudio.Numeric

structure Tensor2 (α : Type) where
  rows : Nat
  width : Nat
  entry : Fin rows → Fin width → α

structure Tensor3 (α : Type) where
  batch : Nat
  steps : Nat
  width : Nat
  entry : Fin batch → Fin steps → Fin width → α

variable {α β γ : Type}

/-! ### Entries -/

def Tensor2.get [Zero α] (tensor : Tensor2 α) (row channel : Nat) : α :=
  if inside : row < tensor.rows ∧ channel < tensor.width then
    tensor.entry ⟨row, inside.1⟩ ⟨channel, inside.2⟩
  else 0

def Tensor2.generate (rows width : Nat) (value : Nat → Nat → α) : Tensor2 α :=
  ⟨rows, width, fun row channel => value row channel⟩

@[simp] theorem Tensor2.width_generate (rows width : Nat) (value : Nat → Nat → α) :
    (generate rows width value).width = width := rfl

theorem Tensor2.generate_congr {rows width : Nat} {first second : Nat → Nat → α}
    (entries : ∀ row < rows, ∀ channel < width, first row channel = second row channel) :
    generate rows width first = generate rows width second := by
  unfold generate
  congr 1
  funext row channel
  exact entries row row.isLt channel channel.isLt

theorem Tensor2.get_generate [Zero α] (rows width : Nat) (value : Nat → Nat → α) (row channel : Nat) :
    (generate rows width value).get row channel =
      if row < rows ∧ channel < width then value row channel else 0 := by
  by_cases inside : row < rows ∧ channel < width
  · rw [if_pos inside]
    exact dif_pos inside
  · rw [if_neg inside]
    exact dif_neg inside

def Tensor3.Inside (tensor : Tensor3 α) (sample step channel : Nat) : Prop :=
  sample < tensor.batch ∧ step < tensor.steps ∧ channel < tensor.width

instance (tensor : Tensor3 α) (sample step channel : Nat) : Decidable (tensor.Inside sample step channel) :=
  inferInstanceAs (Decidable (_ ∧ _))

def Tensor3.get [Zero α] (tensor : Tensor3 α) (sample step channel : Nat) : α :=
  if inside : tensor.Inside sample step channel then
    tensor.entry ⟨sample, inside.1⟩ ⟨step, inside.2.1⟩ ⟨channel, inside.2.2⟩
  else 0

def Tensor3.generate (batch steps width : Nat) (value : Nat → Nat → Nat → α) : Tensor3 α :=
  ⟨batch, steps, width, fun sample step channel => value sample step channel⟩

@[simp] theorem Tensor3.batch_generate (batch steps width : Nat) (value : Nat → Nat → Nat → α) :
    (generate batch steps width value).batch = batch := rfl

@[simp] theorem Tensor3.steps_generate (batch steps width : Nat) (value : Nat → Nat → Nat → α) :
    (generate batch steps width value).steps = steps := rfl

@[simp] theorem Tensor3.width_generate (batch steps width : Nat) (value : Nat → Nat → Nat → α) :
    (generate batch steps width value).width = width := rfl

theorem Tensor3.generate_congr {batch steps width : Nat} {first second : Nat → Nat → Nat → α}
    (entries : ∀ sample step channel, sample < batch ∧ step < steps ∧ channel < width →
      first sample step channel = second sample step channel) :
    generate batch steps width first = generate batch steps width second := by
  unfold generate
  congr 1
  funext sample step channel
  exact entries sample step channel ⟨sample.isLt, step.isLt, channel.isLt⟩

theorem Tensor3.get_generate [Zero α] (batch steps width : Nat) (value : Nat → Nat → Nat → α)
    (sample step channel : Nat) :
    (generate batch steps width value).get sample step channel =
      if sample < batch ∧ step < steps ∧ channel < width then value sample step channel else 0 := by
  by_cases inside : sample < batch ∧ step < steps ∧ channel < width
  · rw [if_pos inside]
    exact dif_pos inside
  · rw [if_neg inside]
    exact dif_neg inside

theorem Tensor3.get_outside [Zero α] {tensor : Tensor3 α} {sample step channel : Nat}
    (outside : ¬tensor.Inside sample step channel) : tensor.get sample step channel = 0 :=
  dif_neg outside

theorem Tensor3.ext_get [Zero α] {first second : Tensor3 α} (batch : first.batch = second.batch)
    (steps : first.steps = second.steps) (width : first.width = second.width)
    (entries : ∀ sample step channel, first.Inside sample step channel →
      first.get sample step channel = second.get sample step channel) : first = second := by
  obtain ⟨batches, lengths, widths, left⟩ := first
  obtain ⟨batches', lengths', widths', right⟩ := second
  cases batch
  cases steps
  cases width
  have same : left = right := by
    funext sample step channel
    have inside : Inside ⟨batches, lengths, widths, left⟩ sample step channel :=
      ⟨sample.isLt, step.isLt, channel.isLt⟩
    have equal := entries sample step channel inside
    unfold get at equal
    rw [dif_pos inside, dif_pos (show Inside ⟨batches, lengths, widths, right⟩ sample step channel from inside)]
      at equal
    exact equal
  rw [same]

/-! ### Slices along the last axis -/

variable [Zero α]

def Tensor3.narrow (tensor : Tensor3 α) (count : Nat) : Tensor3 α :=
  generate tensor.batch tensor.steps (min count tensor.width) tensor.get

def Tensor3.rest (tensor : Tensor3 α) (count : Nat) : Tensor3 α :=
  generate tensor.batch tensor.steps (tensor.width - count)
    fun sample step channel => tensor.get sample step (count + channel)

/-- `pad(tensor, (0, max(0, count - width)))[..., :count]`. -/
def Tensor3.fit (tensor : Tensor3 α) (count : Nat) : Tensor3 α :=
  (generate tensor.batch tensor.steps (tensor.width + (count - tensor.width)) tensor.get).narrow count

def Tensor3.cat (first second : Tensor3 α) : Option (Tensor3 α) :=
  if first.batch = second.batch ∧ first.steps = second.steps then
    some (generate first.batch first.steps (first.width + second.width) fun sample step channel =>
      if channel < first.width then first.get sample step channel
      else second.get sample step (channel - first.width))
  else none

def Tensor3.last (tensor : Tensor3 α) : Option (Tensor3 α) :=
  match tensor.steps with
  | 0 => none
  | before + 1 => some (generate tensor.batch 1 tensor.width fun sample _ channel => tensor.get sample before channel)

/-- A tensor of two axes where one of three is expected: broadcasting adds the axis in front. -/
def Tensor2.lift (tensor : Tensor2 α) : Tensor3 α :=
  .generate 1 tensor.rows tensor.width fun _ => tensor.get

def Tensor2.unsqueeze (tensor : Tensor2 α) : Tensor3 α :=
  .generate tensor.rows 1 tensor.width fun sample _ channel => tensor.get sample channel

@[simp] theorem Tensor3.width_narrow (tensor : Tensor3 α) (count : Nat) :
    (tensor.narrow count).width = min count tensor.width := rfl

@[simp] theorem Tensor3.width_rest (tensor : Tensor3 α) (count : Nat) :
    (tensor.rest count).width = tensor.width - count := rfl

theorem Tensor3.get_narrow {tensor : Tensor3 α} {count sample step channel : Nat} (before : channel < count) :
    (tensor.narrow count).get sample step channel = tensor.get sample step channel := by
  unfold narrow
  rw [get_generate]
  by_cases inside : tensor.Inside sample step channel
  · rw [if_pos ⟨inside.1, inside.2.1, by have := inside.2.2; omega⟩]
  · rw [get_outside inside, ite_self]

theorem Tensor3.get_rest {tensor : Tensor3 α} {count sample step channel : Nat} :
    (tensor.rest count).get sample step channel = tensor.get sample step (count + channel) := by
  unfold rest
  rw [get_generate]
  by_cases inside : tensor.Inside sample step (count + channel)
  · rw [if_pos ⟨inside.1, inside.2.1, by have := inside.2.2; omega⟩]
  · rw [get_outside inside, ite_self]

theorem Tensor3.narrow_width (tensor : Tensor3 α) : tensor.narrow tensor.width = tensor := by
  apply ext_get
  · rfl
  · rfl
  · exact Nat.min_self _
  · intro sample step channel inside
    have width : channel < min tensor.width tensor.width := inside.2.2
    exact get_narrow (by omega)

theorem Tensor3.fit_eq (tensor : Tensor3 α) (count : Nat) :
    tensor.fit count = generate tensor.batch tensor.steps count tensor.get := by
  apply ext_get
  · rfl
  · rfl
  · simp only [fit, narrow, width_generate]
    omega
  · intro sample step channel inside
    simp only [Inside, fit, narrow, batch_generate, steps_generate, width_generate] at inside
    simp only [fit, narrow, get_generate, batch_generate, steps_generate, width_generate]
    rw [if_pos (by omega), if_pos (by omega), if_pos (by omega)]

/-! ### Broadcasting -/

def extent (first second : Nat) : Option Nat :=
  if first = second then some first
  else if first = 1 then some second
  else if second = 1 then some first
  else none

/-- Where an axis is read for a position of the broadcast result. -/
def axis (extent position : Nat) : Nat :=
  if extent = 1 then 0 else position

@[simp] theorem extent_self (count : Nat) : extent count count = some count := by
  simp [extent]

@[simp] theorem extent_one_right (count : Nat) : extent count 1 = some count := by
  unfold extent
  split_ifs with same one <;> simp_all

@[simp] theorem extent_one_left (count : Nat) : extent 1 count = some count := by
  unfold extent
  split_ifs with same <;> simp_all

theorem extent_eq_left {first second : Nat} :
    extent first second = some first ↔ second = first ∨ second = 1 := by
  unfold extent
  split_ifs with same one single
  · simp [same]
  · simp only [Option.some.injEq]
    omega
  · simp [single]
  · simp only [false_iff]
    omega

@[simp] theorem axis_one (position : Nat) : axis 1 position = 0 := rfl

theorem axis_inside {count position : Nat} (inside : position < count) : axis count position = position := by
  unfold axis
  split_ifs
  · omega
  · rfl

variable [Zero β]

def Tensor3.broadcast (op : α → β → γ) (first : Tensor3 α) (second : Tensor3 β) : Option (Tensor3 γ) := do
  let batch ← extent first.batch second.batch
  let steps ← extent first.steps second.steps
  let width ← extent first.width second.width
  some (generate batch steps width fun sample step channel =>
    op (first.get (axis first.batch sample) (axis first.steps step) (axis first.width channel))
      (second.get (axis second.batch sample) (axis second.steps step) (axis second.width channel)))

/-- An operation in place: the result must have the shape of the tensor it is written to. -/
def Tensor3.into (op : α → β → α) (first : Tensor3 α) (second : Tensor3 β) : Option (Tensor3 α) := do
  let result ← broadcast op first second
  if result.batch = first.batch ∧ result.steps = first.steps ∧ result.width = first.width then some result
  else none

theorem Tensor3.broadcast_eq {op : α → β → γ} {first : Tensor3 α} {second : Tensor3 β} {batch steps width : Nat}
    (batches : extent first.batch second.batch = some batch) (lengths : extent first.steps second.steps = some steps)
    (widths : extent first.width second.width = some width) :
    broadcast op first second = some (generate batch steps width fun sample step channel =>
      op (first.get (axis first.batch sample) (axis first.steps step) (axis first.width channel))
        (second.get (axis second.batch sample) (axis second.steps step) (axis second.width channel))) := by
  simp only [broadcast, batches, lengths, widths, Option.bind_eq_bind, Option.bind_some]

theorem Tensor3.broadcast_extents {op : α → β → γ} {first : Tensor3 α} {second : Tensor3 β} {result : Tensor3 γ}
    (done : broadcast op first second = some result) :
    extent first.batch second.batch = some result.batch ∧ extent first.steps second.steps = some result.steps ∧
      extent first.width second.width = some result.width := by
  simp only [broadcast, Option.bind_eq_bind, Option.bind_eq_some_iff] at done
  obtain ⟨batch, batches, steps, lengths, width, widths, built⟩ := done
  cases built
  exact ⟨batches, lengths, widths⟩

end PhysicalAiStudio.Numeric
