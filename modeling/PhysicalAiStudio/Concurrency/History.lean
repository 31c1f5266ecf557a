import Mathlib.Data.List.Basic

/-! What happened in a run, newest event first.

A property of runs is often one of each event and of what came before it.
-/

set_option autoImplicit false

namespace PhysicalAiStudio.Concurrency

variable {Event : Type} {P Q : List Event → Event → Prop}

def Always (P : List Event → Event → Prop) : List Event → Prop
  | [] => True
  | event :: older => P older event ∧ Always P older

instance Always.decidable [∀ older event, Decidable (P older event)] :
    (history : List Event) → Decidable (Always P history)
  | [] => inferInstanceAs (Decidable True)
  | event :: older => @instDecidableAnd _ _ (inferInstanceAs (Decidable (P older event))) (Always.decidable older)

@[simp] theorem always_nil : Always P [] := trivial

@[simp] theorem always_cons (event : Event) (older : List Event) :
    Always P (event :: older) ↔ P older event ∧ Always P older := Iff.rfl

theorem Always.mono (weaker : ∀ older event, P older event → Q older event) {history : List Event}
    (always : Always P history) : Always Q history := by
  induction history with
  | nil => trivial
  | cons event older ih => exact ⟨weaker older event always.1, ih always.2⟩

/-- Two conditions that agree on every event of a history hold of it together. -/
theorem always_congr {R : List Event → Event → Prop} {history : List Event} (known : Always R history)
    (same : ∀ older event, R older event → (P older event ↔ Q older event)) :
    Always P history ↔ Always Q history := by
  induction history with
  | nil => exact Iff.rfl
  | cons event older ih => exact and_congr (same older event known.1) (ih known.2)

theorem Always.and_before {history : List Event} (here : Always P history) (before : Always Q history) :
    Always (fun older event => P older event ∧ Always Q older) history := by
  induction history with
  | nil => trivial
  | cons event older ih => exact ⟨⟨here.1, before.2⟩, ih here.2 before.2⟩

theorem Always.suffix {later older : List Event} (always : Always P (later ++ older)) : Always P older := by
  induction later with
  | nil => exact always
  | cons event later ih => exact ih always.2

theorem always_iff (history : List Event) :
    Always P history ↔ ∀ later event older, history = later ++ event :: older → P older event := by
  induction history with
  | nil => simp
  | cons newest older ih =>
    rw [always_cons, ih]
    constructor
    · rintro ⟨here, before⟩ later event rest same
      cases later with
      | nil => cases same; exact here
      | cons _ later => cases same; exact before later event rest rfl
    · exact fun every => ⟨every [] newest older rfl, fun later event rest same =>
        every (newest :: later) event rest (by rw [same, List.cons_append])⟩

end PhysicalAiStudio.Concurrency
