import Mathlib.Logic.Function.Basic
import Mathlib.Data.List.Nodup

/-! A memory after a log of writes: what a place holds is decided by the last write to it. -/

set_option autoImplicit false

namespace PhysicalAiStudio.Collections

variable {Place Value : Type} [DecidableEq Place]

def writeAll (memory : Place → Value) : List (Place × Value) → Place → Value
  | [] => memory
  | write :: log => writeAll (Function.update memory write.1 write.2) log

def lastWrite : List (Place × Value) → Place → Option Value
  | [], _ => none
  | write :: log, place => (lastWrite log place).or (if write.1 = place then some write.2 else none)

theorem writeAll_cons (memory : Place → Value) (write : Place × Value) (log : List (Place × Value)) :
    writeAll memory (write :: log) = writeAll (Function.update memory write.1 write.2) log := rfl

@[simp] theorem lastWrite_nil (place : Place) : lastWrite ([] : List (Place × Value)) place = none := rfl

theorem lastWrite_cons (write : Place × Value) (log : List (Place × Value)) (place : Place) :
    lastWrite (write :: log) place =
      (lastWrite log place).or (if write.1 = place then some write.2 else none) := rfl

theorem writeAll_apply (memory : Place → Value) (log : List (Place × Value)) (place : Place) :
    writeAll memory log place = (lastWrite log place).getD (memory place) := by
  induction log generalizing memory with
  | nil => rfl
  | cons write log ih =>
      rw [writeAll_cons, ih, lastWrite_cons]
      cases lastWrite log place with
      | some value => rfl
      | none =>
          by_cases here : write.1 = place
          · subst here
            simp
          · simp [here, Function.update_of_ne (Ne.symm here)]

theorem lastWrite_append (first second : List (Place × Value)) (place : Place) :
    lastWrite (first ++ second) place = (lastWrite second place).or (lastWrite first place) := by
  induction first with
  | nil => exact (Option.or_none).symm
  | cons write first ih =>
      rw [List.cons_append, lastWrite_cons, ih, lastWrite_cons, Option.or_assoc]

theorem lastWrite_eq_none {log : List (Place × Value)} {place : Place} :
    lastWrite log place = none ↔ place ∉ log.map Prod.fst := by
  induction log with
  | nil => simp
  | cons write log ih =>
      rw [lastWrite_cons, Option.or_eq_none_iff, ih]
      by_cases here : write.1 = place
      · simp [here]
      · simp [here, Ne.symm here]

theorem mem_of_lastWrite {log : List (Place × Value)} {place : Place} {value : Value}
    (last : lastWrite log place = some value) : (place, value) ∈ log := by
  induction log with
  | nil => cases last
  | cons write log ih =>
      rw [lastWrite_cons] at last
      cases later : lastWrite log place with
      | some other =>
          rw [later, Option.some_or] at last
          rw [later] at ih
          exact List.mem_cons_of_mem _ (ih last)
      | none =>
          rw [later, Option.none_or] at last
          split at last
          next here =>
            obtain ⟨writtenPlace, writtenValue⟩ := write
            cases last
            cases here
            exact List.mem_cons_self
          next elsewhere => cases last

theorem lastWrite_of_forall {log : List (Place × Value)} {place : Place} {value : Value}
    (written : place ∈ log.map Prod.fst) (only : ∀ write ∈ log, write.1 = place → write.2 = value) :
    lastWrite log place = some value := by
  cases last : lastWrite log place with
  | none => exact absurd written (lastWrite_eq_none.mp last)
  | some other => exact congrArg some (only _ (mem_of_lastWrite last) rfl)

/-- A log that writes no place twice holds its writes. -/
theorem lastWrite_eq_some_iff {log : List (Place × Value)} (nodup : (log.map Prod.fst).Nodup) {place : Place}
    {value : Value} : lastWrite log place = some value ↔ (place, value) ∈ log := by
  constructor
  · exact mem_of_lastWrite
  · intro member
    apply lastWrite_of_forall (List.mem_map.mpr ⟨_, member, rfl⟩)
    intro write written same
    have whole := List.inj_on_of_nodup_map nodup written member same
    rw [whole]

theorem lastWrite_map {Source : Type} (log : List (Place × Source)) (compute : Place → Source → Value)
    (place : Place) :
    lastWrite (log.map fun write => (write.1, compute write.1 write.2)) place =
      (lastWrite log place).map (compute place) := by
  induction log with
  | nil => rfl
  | cons write log ih =>
      rw [List.map_cons, lastWrite_cons, lastWrite_cons, ih]
      cases lastWrite log place with
      | some source => rfl
      | none =>
          by_cases here : write.1 = place
          · subst here
            simp
          · simp [here]

end PhysicalAiStudio.Collections
