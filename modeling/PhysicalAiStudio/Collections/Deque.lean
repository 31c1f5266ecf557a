import Mathlib.Data.List.Basic

/-! A double-ended queue with a bound: what is appended beyond it pushes the oldest elements out. -/

set_option autoImplicit false

namespace PhysicalAiStudio.Collections

variable {Element : Type}

def keepLast (count : Nat) (elements : List Element) : List Element := elements.drop (elements.length - count)

theorem length_keepLast (count : Nat) (elements : List Element) :
    (keepLast count elements).length = min count elements.length := by
  rw [keepLast, List.length_drop]
  omega

theorem keepLast_of_le {count : Nat} {elements : List Element} (short : elements.length ≤ count) :
    keepLast count elements = elements := by
  rw [keepLast, Nat.sub_eq_zero_of_le short, List.drop_zero]

/-- What was pushed out does not come back. -/
theorem keepLast_append (count : Nat) (elements more : List Element) :
    keepLast count (keepLast count elements ++ more) = keepLast count (elements ++ more) := by
  by_cases short : elements.length ≤ count
  · rw [keepLast_of_le short]
  · have split : keepLast count elements ++ more = (elements ++ more).drop (elements.length - count) := by
      rw [List.drop_append_of_le_length (by omega)]
      rfl
    rw [split, keepLast, keepLast, List.length_drop, List.drop_drop, List.length_append]
    congr 1
    omega

structure Deque (Element : Type) where
  maxlen : Nat
  items : List Element
  bounded : items.length ≤ maxlen

namespace Deque

def empty (maxlen : Nat) : Deque Element := ⟨maxlen, [], Nat.zero_le maxlen⟩

def append (deque : Deque Element) (element : Element) : Deque Element where
  maxlen := deque.maxlen
  items := keepLast deque.maxlen (deque.items ++ [element])
  bounded := by
    rw [length_keepLast]
    exact Nat.min_le_left _ _

def extend (deque : Deque Element) (elements : List Element) : Deque Element := elements.foldl append deque

def clear (deque : Deque Element) : Deque Element := empty deque.maxlen

/-- `popleft`; `none` where it raises `IndexError`. -/
def popleft (deque : Deque Element) : Option (Element × Deque Element) :=
  match deque with
  | ⟨_, [], _⟩ => none
  | ⟨maxlen, first :: rest, bounded⟩ => some (first, ⟨maxlen, rest, Nat.le_of_succ_le bounded⟩)

@[simp] theorem items_empty (maxlen : Nat) : (empty maxlen : Deque Element).items = [] := rfl

@[simp] theorem maxlen_append (deque : Deque Element) (element : Element) :
    (deque.append element).maxlen = deque.maxlen := rfl

theorem items_append (deque : Deque Element) (element : Element) :
    (deque.append element).items = keepLast deque.maxlen (deque.items ++ [element]) := rfl

@[simp] theorem maxlen_extend (deque : Deque Element) (elements : List Element) :
    (deque.extend elements).maxlen = deque.maxlen := by
  induction elements generalizing deque with
  | nil => rfl
  | cons element elements ih => exact (ih (deque.append element)).trans (maxlen_append deque element)

/-- Elements that are appended one by one are kept as if they had come at once. -/
theorem items_extend (deque : Deque Element) (elements : List Element) :
    (deque.extend elements).items = keepLast deque.maxlen (deque.items ++ elements) := by
  induction elements generalizing deque with
  | nil => rw [extend, List.foldl_nil, List.append_nil, keepLast_of_le deque.bounded]
  | cons element elements ih =>
    calc (deque.extend (element :: elements)).items
        = ((deque.append element).extend elements).items := rfl
      _ = keepLast deque.maxlen (keepLast deque.maxlen (deque.items ++ [element]) ++ elements) := ih _
      _ = keepLast deque.maxlen (deque.items ++ element :: elements) := by
        rw [keepLast_append, List.append_assoc, List.singleton_append]

theorem popleft_cons {deque : Deque Element} {first : Element} {rest : List Element} (items : deque.items = first :: rest) :
    ∃ left, deque.popleft = some (first, left) ∧ left.items = rest ∧ left.maxlen = deque.maxlen := by
  obtain ⟨maxlen, elements, bounded⟩ := deque
  subst items
  exact ⟨⟨maxlen, rest, _⟩, rfl, rfl, rfl⟩

theorem popleft_nil {deque : Deque Element} (items : deque.items = []) : deque.popleft = none := by
  obtain ⟨maxlen, elements, bounded⟩ := deque
  subst items
  rfl

end Deque

end PhysicalAiStudio.Collections
