import PhysicalAiStudio.Observations.Batch

/-! Which batches give their samples back. -/

set_option autoImplicit false

namespace PhysicalAiStudio.Observations.Batch
open Strings

variable {Tensor NdArray Number Object : Type} (torch : Torch Tensor NdArray Number Object)

def SameEntry (value got : Value Tensor NdArray Number Object) : Prop :=
  got = value ∨ ∃ row, got = .tensor row ∧ Converts torch.fromNumpy torch.alike torch.holds value row

def Same (value got : Value Tensor NdArray Number Object) : Prop :=
  SameEntry torch value got ∨
    ∃ entries indexed, value = .dict entries ∧ got = .dict indexed ∧
      ∀ key, Option.Rel (SameEntry torch) (entries.lookup key) (indexed.lookup key)

/-- The collated batch has as many samples as it is made of, and gives each of them back. -/
structure Promised (batch : List (Observation Tensor NdArray Number Object))
    (collated : Observation Tensor NdArray Number Object) : Prop where
  length : torch.inferBatchSize collated = some batch.length
  samples : ∀ i sample, batch[i]? = some sample →
    ∃ got, torch.getItem collated i = some got ∧ ∀ field, Same torch (sample field) (got field)

def firstNonNone (values : List (Value Tensor NdArray Number Object)) : Option (Value Tensor NdArray Number Object) :=
  (values.filter fun value => !value.isNone).head?

/-- No sample lacks a field that is stacked, and all dictionaries of a field have the keys of the first. -/
def AlignedField (values : List (Value Tensor NdArray Number Object)) : Prop :=
  match firstNonNone values with
  | some (.tensor _) | some (.array _) | some (.number _) => ∀ value ∈ values, value.isNone = false
  | some (.dict first) => ∀ value ∈ values, ∃ entries, value = .dict entries ∧
      ∀ key, (entries.lookup key).isSome = (first.lookup key).isSome
  | _ => True

def MakesTensor (values : List (Value Tensor NdArray Number Object)) : Prop :=
  match firstNonNone values with
  | some (.tensor _) | some (.array _) | some (.number _) => True
  | some (.dict first) => ∃ key value, first.lookup key = some value ∧ value.isArrayLike = true
  | _ => False

structure Aligned (batch : List (Observation Tensor NdArray Number Object)) : Prop where
  fields : ∀ field, AlignedField (batch.map fun sample => sample field)
  tensor : ∃ field, MakesTensor (batch.map fun sample => sample field)

/-! ### Lists of values -/

theorem mapM_getElem {α β : Type} {f : α → Option β} {values : List α} {results : List β}
    (done : values.mapM f = some results) :
    results.length = values.length ∧
      ∀ (i : Nat) (value : α), values[i]? = some value →
        ∃ result, f value = some result ∧ results[i]? = some result := by
  induction values generalizing results with
  | nil =>
      cases done
      exact ⟨rfl, fun i value there => by cases there⟩
  | cons head values ih =>
      rw [List.mapM_cons] at done
      cases first : f head with
      | none =>
          rw [first] at done
          cases done
      | some made =>
          cases rest : values.mapM f with
          | none =>
              rw [first, rest] at done
              cases done
          | some others =>
              rw [first, rest] at done
              cases done
              obtain ⟨same, each⟩ := ih rest
              constructor
              · rw [List.length_cons, List.length_cons, same]
              · intro i value there
                cases i with
                | zero =>
                    cases there
                    exact ⟨made, first, rfl⟩
                | succ i => exact each i value there

variable {torch}

theorem stackAll_spec {values : List (Value Tensor NdArray Number Object)} {t : Tensor}
    (done : torch.stackAll values = some t) :
    torch.size t = some values.length ∧ ∀ i value, values[i]? = some value →
      ∃ row, torch.index t i = some row ∧ Converts torch.fromNumpy torch.alike torch.holds value row := by
  rw [Torch.stackAll] at done
  obtain ⟨parts, converted, stacked⟩ := Option.bind_eq_some_iff.mp done
  obtain ⟨same, each⟩ := mapM_getElem converted
  constructor
  · rw [torch.stack_size parts t stacked, same]
  · intro i value there
    obtain ⟨part, made, placed⟩ := each i value there
    obtain ⟨row, indexed, alike⟩ := torch.stack_index parts t stacked i part placed
    refine ⟨row, indexed, ?_⟩
    cases value with
    | tensor own =>
        cases made
        exact alike
    | array own =>
        cases made
        exact alike
    | none | number | object | list | dict => cases made

/-! ### Dictionaries -/

/-- One key of a collated dictionary: what it holds, and what it gives back at an index. -/
theorem collated_entry {inner : List (Value Tensor NdArray Number Object)}
    {first collated : Value Tensor NdArray Number Object}
    (made : (if first.isArrayLike then (torch.stackAll inner).map Value.tensor else some (.list inner)) =
      some collated) :
    (∀ i value, inner[i]? = some value →
        ∃ got, torch.indexValue i collated = some got ∧ SameEntry torch value got) ∧
      ((∃ t, collated = .tensor t) ↔ first.isArrayLike = true) ∧
      ∀ t, collated = .tensor t → torch.size t = some inner.length := by
  -- An array-like column is stacked, any other is a list and gives back its members as they are.
  split at made
  next arrays =>
    obtain ⟨t, stacked, same⟩ := Option.map_eq_some_iff.mp made
    subst same
    obtain ⟨size, rows⟩ := stackAll_spec stacked
    refine ⟨?_, ⟨fun _ => arrays, fun _ => ⟨t, rfl⟩⟩, ?_⟩
    · intro i value there
      obtain ⟨row, indexed, converts⟩ := rows i value there
      refine ⟨.tensor row, ?_, Or.inr ⟨row, rfl, converts⟩⟩
      rw [Torch.indexValue, indexed]
      rfl
    · intro other same
      cases same
      exact size
  next plain =>
    cases made
    refine ⟨?_, ⟨?_, fun arrays => absurd arrays plain⟩, ?_⟩
    · intro i value there
      refine ⟨value, ?_, Or.inl rfl⟩
      rw [Torch.indexValue]
      exact there
    · rintro ⟨t, same⟩
      cases same
    · intro t same
      cases same

theorem collateEntries_cons {dicts : List (Value Tensor NdArray Number Object)} (some_dict : dicts ≠ [])
    {key : Text} {value : Value Tensor NdArray Number Object}
    {entries out : List (Text × Value Tensor NdArray Number Object)}
    (done : torch.collateEntries dicts ((key, value) :: entries) = some out) :
    ∃ inner first values collated rest, dicts.mapM (Value.get key) = some inner ∧ inner = first :: values ∧
      (if first.isArrayLike then (torch.stackAll inner).map Value.tensor else some (.list inner)) = some collated ∧
        torch.collateEntries dicts entries = some rest ∧ out = (key, collated) :: rest := by
  rw [Torch.collateEntries] at done
  obtain ⟨inner, got, later⟩ := Option.bind_eq_some_iff.mp done
  obtain ⟨rest, collatedRest, made⟩ := Option.bind_eq_some_iff.mp later
  cases inner with
  | nil =>
      have same := (mapM_getElem got).1
      exact absurd (List.length_eq_zero_iff.mp same.symm) some_dict
  | cons first values =>
      simp only at made
      split at made
      next arrays =>
        obtain ⟨t, stacked, same⟩ := Option.bind_eq_some_iff.mp made
        cases same
        refine ⟨first :: values, first, values, .tensor t, rest, got, rfl, ?_, collatedRest, rfl⟩
        rw [if_pos arrays, stacked]
        rfl
      next plain =>
        cases made
        exact ⟨first :: values, first, values, .list (first :: values), rest, got, rfl, if_neg plain, collatedRest, rfl⟩

theorem collateEntries_index {dicts : List (Value Tensor NdArray Number Object)} {i : Nat}
    {value : Value Tensor NdArray Number Object} (there : dicts[i]? = some value)
    {entries out : List (Text × Value Tensor NdArray Number Object)}
    (done : torch.collateEntries dicts entries = some out) :
    ∃ indexed, torch.indexEntries i out = some indexed ∧
      ∀ key, (indexed.lookup key).isSome = (entries.lookup key).isSome ∧
        ∀ got, indexed.lookup key = some got → ∃ own, value.get key = some own ∧ SameEntry torch own got := by
  induction entries generalizing out with
  | nil =>
      cases done
      exact ⟨[], rfl, fun key => ⟨rfl, fun got found => by cases found⟩⟩
  | cons entry entries ih =>
      obtain ⟨name, given⟩ := entry
      have some_dict : dicts ≠ [] := by
        intro empty
        rw [empty] at there
        cases there
      obtain ⟨inner, first, values, collated, rest, got, shape, made, later, same⟩ :=
        collateEntries_cons some_dict done
      subst same
      obtain ⟨own, ownGot, placed⟩ := (mapM_getElem got).2 i value there
      obtain ⟨back, indexedBack, kept⟩ := (collated_entry made).1 i own placed
      obtain ⟨indexed, indexedLater, each⟩ := ih later
      refine ⟨(name, back) :: indexed, ?_, ?_⟩
      · rw [Torch.indexEntries, indexedBack, indexedLater]
        rfl
      · intro key
        -- The first column answers for its own key and shadows any later one of that name.
        by_cases here : key = name
        · subst here
          rw [List.lookup_cons_self, List.lookup_cons_self]
          exact ⟨rfl, fun found same => ⟨own, ownGot, Option.some.inj same ▸ kept⟩⟩
        · have different : (key == name) = false := beq_eq_false_iff_ne.mpr here
          rw [List.lookup_cons, List.lookup_cons, different]
          exact each key

theorem collateEntries_tensor {dicts : List (Value Tensor NdArray Number Object)}
    {all entries out : List (Text × Value Tensor NdArray Number Object)} (head : dicts.head? = some (.dict all))
    (done : torch.collateEntries dicts entries = some out) :
    (∀ key t, (key, .tensor t) ∈ out → torch.size t = some dicts.length) ∧
      ((∃ key t, (key, .tensor t) ∈ out) ↔
        ∃ entry ∈ entries, ((all.lookup entry.1).getD .none).isArrayLike = true) := by
  induction entries generalizing out with
  | nil =>
      cases done
      simp
  | cons entry entries ih =>
      obtain ⟨name, given⟩ := entry
      have some_dict : dicts ≠ [] := by
        intro empty
        rw [empty] at head
        cases head
      obtain ⟨inner, first, values, collated, rest, got, shape, made, later, same⟩ :=
        collateEntries_cons some_dict done
      subst same
      -- The column of this key is collated as a field of its own; the columns after it are the hypothesis.
      obtain ⟨sizes, stand⟩ := ih later
      obtain ⟨-, kind, size⟩ := collated_entry made
      obtain ⟨sameLength, each⟩ := mapM_getElem got
      have firstOwn : first = (all.lookup name).getD .none := by
        rw [List.head?_eq_getElem?] at head
        obtain ⟨own, ownGot, placed⟩ := each 0 _ head
        rw [shape] at placed
        cases placed
        exact (Option.some.inj ownGot).symm
      constructor
      · intro key t member
        rcases List.mem_cons.mp member with here | there
        · rw [size t (Prod.mk.inj here).2.symm, sameLength]
        · exact sizes key t there
      · constructor
        · rintro ⟨key, t, member⟩
          rcases List.mem_cons.mp member with here | there
          · have arrays := kind.mp ⟨t, (Prod.mk.inj here).2.symm⟩
            rw [firstOwn] at arrays
            exact ⟨(name, given), List.mem_cons_self, arrays⟩
          · obtain ⟨entry, listed, arrays⟩ := stand.mp ⟨key, t, there⟩
            exact ⟨entry, List.mem_cons_of_mem _ listed, arrays⟩
        · rintro ⟨entry, listed, arrays⟩
          rcases List.mem_cons.mp listed with here | there
          · subst here
            rw [← firstOwn] at arrays
            obtain ⟨t, same⟩ := kind.mpr arrays
            subst same
            exact ⟨name, t, List.mem_cons_self⟩
          · obtain ⟨key, t, member⟩ := stand.mpr ⟨entry, there, arrays⟩
            exact ⟨key, t, List.mem_cons_of_mem _ member⟩

/-! ### Fields -/

def Value.isStacked : Value Tensor NdArray Number Object → Bool
  | .tensor _ | .array _ | .number _ => true
  | _ => false

def Value.isListed : Value Tensor NdArray Number Object → Bool
  | .object _ | .list _ => true
  | _ => false

def nonNone (values : List (Value Tensor NdArray Number Object)) : List (Value Tensor NdArray Number Object) :=
  values.filter fun value => !value.isNone

/-- What a field is collated to, by its first value that is not `None`. -/
inductive CollatedTo (torch : Torch Tensor NdArray Number Object)
    (values : List (Value Tensor NdArray Number Object)) :
    Option (Value Tensor NdArray Number Object) → Value Tensor NdArray Number Object → Prop where
  | absent : CollatedTo torch values none .none
  | stacked {first : Value Tensor NdArray Number Object} {t : Tensor} (kind : first.isStacked = true)
      (size : torch.size t = some (nonNone values).length)
      (rows : ∀ i value, (nonNone values)[i]? = some value →
        ∃ row, torch.index t i = some row ∧ Converts torch.fromNumpy torch.alike torch.holds value row) :
      CollatedTo torch values (some first) (.tensor t)
  | dict {first entries : List (Text × Value Tensor NdArray Number Object)}
      (collated : torch.collateEntries (nonNone values) first = some entries) :
      CollatedTo torch values (some (.dict first)) (.dict entries)
  | listed {first : Value Tensor NdArray Number Object} (kind : first.isListed = true) :
      CollatedTo torch values (some first) (.list values)

theorem collateField_spec {values : List (Value Tensor NdArray Number Object)}
    {out : Value Tensor NdArray Number Object} (done : torch.collateField values = some out) :
    CollatedTo torch values (firstNonNone values) out := by
  have head : firstNonNone values = (nonNone values).head? := rfl
  have filtered : (values.filter fun value => !value.isNone) = nonNone values := rfl
  simp only [Torch.collateField, filtered] at done
  rw [head]
  cases shape : nonNone values with
  | nil =>
      rw [shape] at done
      cases done
      exact .absent
  | cons first rest =>
      rw [shape] at done
      have present : first.isNone = false := by
        have member : first ∈ nonNone values := by
          rw [shape]
          exact List.mem_cons_self
        have kept := (List.mem_filter.mp member).2
        simpa using kept
      rw [List.head?_cons]
      -- One case per branch of the isinstance chain on the first value that is not None.
      cases first with
      | none => cases present
      | tensor own =>
          obtain ⟨t, stacked, same⟩ := Option.map_eq_some_iff.mp done
          subst same
          rw [← shape] at stacked
          exact .stacked rfl (stackAll_spec stacked).1 (stackAll_spec stacked).2
      | array own =>
          obtain ⟨t, stacked, same⟩ := Option.map_eq_some_iff.mp done
          subst same
          rw [← shape] at stacked
          exact .stacked rfl (stackAll_spec stacked).1 (stackAll_spec stacked).2
      | number own =>
          obtain ⟨t, stacked, same⟩ := Option.map_eq_some_iff.mp done
          subst same
          rw [← shape] at stacked
          exact .stacked rfl (torch.tensorOf_size _ t stacked) (torch.tensorOf_index _ t stacked)
      | dict entries =>
          obtain ⟨collated, made, same⟩ := Option.map_eq_some_iff.mp done
          subst same
          rw [← shape] at made
          exact .dict made
      | object own =>
          cases done
          exact .listed rfl
      | list own =>
          cases done
          exact .listed rfl

/-- A field that gives every sample's value back. -/
def Kept (torch : Torch Tensor NdArray Number Object) (values : List (Value Tensor NdArray Number Object))
    (collated : Value Tensor NdArray Number Object) : Prop :=
  ∀ (i : Nat) (value : Value Tensor NdArray Number Object), values[i]? = some value →
    ∃ got, torch.indexValue i collated = some got ∧ Same torch value got

theorem nonNone_eq_self {values : List (Value Tensor NdArray Number Object)}
    (present : ∀ value ∈ values, value.isNone = false) : nonNone values = values := by
  apply List.filter_eq_self.mpr
  intro value member
  rw [present value member]
  rfl

theorem all_none_of_first {values : List (Value Tensor NdArray Number Object)} (none_first : firstNonNone values = none)
    {value : Value Tensor NdArray Number Object} (member : value ∈ values) : value = .none := by
  have empty : nonNone values = [] := List.head?_eq_none_iff.mp none_first
  have dropped := (List.filter_eq_nil_iff.mp empty) value member
  cases value with
  | none => rfl
  | tensor | array | number | object | list | dict => exact absurd rfl dropped

theorem aligned_stacked {values : List (Value Tensor NdArray Number Object)}
    {first : Value Tensor NdArray Number Object} (head : firstNonNone values = some first)
    (kind : first.isStacked = true) : AlignedField values ↔ ∀ value ∈ values, value.isNone = false := by
  unfold AlignedField
  rw [head]
  cases first with
  | tensor | array | number => exact Iff.rfl
  | none | object | list | dict => cases kind

theorem aligned_dict {values : List (Value Tensor NdArray Number Object)}
    {first : List (Text × Value Tensor NdArray Number Object)} (head : firstNonNone values = some (.dict first)) :
    AlignedField values ↔ ∀ value ∈ values, ∃ entries, value = .dict entries ∧
      ∀ key, (entries.lookup key).isSome = (first.lookup key).isSome := by
  unfold AlignedField
  rw [head]

theorem aligned_listed {values : List (Value Tensor NdArray Number Object)}
    {first : Value Tensor NdArray Number Object} (head : firstNonNone values = some first)
    (kind : first.isListed = true) : AlignedField values := by
  unfold AlignedField
  rw [head]
  cases first with
  | object | list => trivial
  | none | tensor | array | number | dict => cases kind

/-- An absent value is given back as nothing but an absent value. -/
theorem same_none {got : Value Tensor NdArray Number Object} (same : Same torch .none got) : got = .none := by
  rcases same with (equal | ⟨row, made, converts⟩) | ⟨entries, indexed, dict, made, each⟩
  · exact equal
  · cases converts
  · cases dict

theorem same_dict {value : Value Tensor NdArray Number Object}
    {indexed : List (Text × Value Tensor NdArray Number Object)} (same : Same torch value (.dict indexed)) :
    ∃ entries, value = .dict entries ∧ ∀ key, (entries.lookup key).isSome = (indexed.lookup key).isSome := by
  rcases same with (equal | ⟨row, made, converts⟩) | ⟨entries, given, dict, made, each⟩
  · exact ⟨indexed, equal.symm, fun key => rfl⟩
  · cases made
  · cases made
    refine ⟨entries, dict, ?_⟩
    intro key
    have related := each key
    cases own : entries.lookup key with
    | none =>
        cases given : indexed.lookup key with
        | none => rfl
        | some got =>
            rw [own, given] at related
            cases related
    | some held =>
        cases given : indexed.lookup key with
        | none =>
            rw [own, given] at related
            cases related
        | some got => rfl

theorem rel_of_keys {value : Value Tensor NdArray Number Object}
    {own indexed : List (Text × Value Tensor NdArray Number Object)} {key : Text} (dict : value = .dict own)
    (keys : (own.lookup key).isSome = (indexed.lookup key).isSome)
    (each : ∀ got, indexed.lookup key = some got → ∃ held, value.get key = some held ∧ SameEntry torch held got) :
    Option.Rel (SameEntry torch) (own.lookup key) (indexed.lookup key) := by
  cases given : indexed.lookup key with
  | none =>
      rw [given, Option.isSome_none, Option.isSome_eq_false_iff, Option.isNone_iff_eq_none] at keys
      rw [keys]
      exact .none
  | some got =>
      obtain ⟨held, heldGot, same⟩ := each got given
      rw [given, Option.isSome_some, Option.isSome_iff_exists] at keys
      obtain ⟨there, found⟩ := keys
      rw [dict, Value.get, found, Option.getD_some, Option.some.injEq] at heldGot
      rw [found, heldGot]
      exact .some same

theorem kept_iff_aligned {values : List (Value Tensor NdArray Number Object)}
    {collated : Value Tensor NdArray Number Object} (done : torch.collateField values = some collated) :
    Kept torch values collated ↔ AlignedField values := by
  have made := collateField_spec done
  cases head : firstNonNone values with
  | none =>
      rw [head] at made
      cases made
      constructor
      · intro _
        unfold AlignedField
        rw [head]
        trivial
      · intro _ i value there
        rw [all_none_of_first head (List.mem_of_getElem? there)]
        exact ⟨.none, rfl, Or.inl (Or.inl rfl)⟩
  | some first =>
      rw [head] at made
      cases made with
      | stacked kind size rows =>
          rename_i t
          rw [aligned_stacked head kind]
          constructor
          · -- A stacked tensor has no row for a None, so a field that is kept has none.
            intro kept value member
            obtain ⟨i, there⟩ := List.mem_iff_getElem?.mp member
            obtain ⟨got, indexed, same⟩ := kept i value there
            cases value with
            | none =>
                rw [same_none same, Torch.indexValue] at indexed
                cases row : torch.index t i <;> rw [row] at indexed <;> cases indexed
            | tensor | array | number | object | list | dict => rfl
          · intro present i value there
            rw [nonNone_eq_self present] at rows
            obtain ⟨row, indexed, converts⟩ := rows i value there
            refine ⟨.tensor row, ?_, Or.inl (Or.inr ⟨row, rfl, converts⟩)⟩
            rw [Torch.indexValue, indexed]
            rfl
      | dict collatedEntries =>
          rename_i first entries
          rw [aligned_dict head]
          constructor
          · intro kept
            -- A collated dict is indexed to a dict, and a sample can only be equal to that as one with the same keys.
            have asDict : ∀ i value, values[i]? = some value → ∃ indexed own, value = .dict own ∧
                torch.indexEntries i entries = some indexed ∧
                  ∀ key, (own.lookup key).isSome = (indexed.lookup key).isSome := by
              intro i value there
              obtain ⟨got, gotIndexed, same⟩ := kept i value there
              rw [Torch.indexValue] at gotIndexed
              obtain ⟨indexed, indexedEntries, shape⟩ := Option.map_eq_some_iff.mp gotIndexed
              subst shape
              obtain ⟨own, dict, keys⟩ := same_dict same
              exact ⟨indexed, own, dict, indexedEntries, keys⟩
            have present : ∀ value ∈ values, value.isNone = false := by
              intro value member
              obtain ⟨i, there⟩ := List.mem_iff_getElem?.mp member
              obtain ⟨indexed, own, dict, -, -⟩ := asDict i value there
              rw [dict]
              rfl
            rw [nonNone_eq_self present] at collatedEntries
            intro value member
            obtain ⟨i, there⟩ := List.mem_iff_getElem?.mp member
            obtain ⟨indexed, own, dict, indexedEntries, keys⟩ := asDict i value there
            obtain ⟨again, indexedAgain, each⟩ := collateEntries_index there collatedEntries
            rw [indexedEntries] at indexedAgain
            cases indexedAgain
            exact ⟨own, dict, fun key => (keys key).trans (each key).1⟩
          · intro dicts i value there
            have present : ∀ value ∈ values, value.isNone = false := by
              intro value member
              obtain ⟨own, dict, -⟩ := dicts value member
              rw [dict]
              rfl
            rw [nonNone_eq_self present] at collatedEntries
            obtain ⟨own, dict, keys⟩ := dicts value (List.mem_of_getElem? there)
            obtain ⟨indexed, indexedEntries, each⟩ := collateEntries_index there collatedEntries
            refine ⟨.dict indexed, ?_, Or.inr ⟨own, indexed, dict, rfl, ?_⟩⟩
            · rw [Torch.indexValue, indexedEntries]
              rfl
            · intro key
              exact rel_of_keys dict ((keys key).trans (each key).1.symm) (each key).2
      | listed kind =>
          constructor
          · intro _
            exact aligned_listed head kind
          · intro _ i value there
            exact ⟨value, there, Or.inl (Or.inl rfl)⟩

/-! ### The length -/

theorem firstTensor_dict (entries : List (Text × Value Tensor NdArray Number Object)) :
    (∀ t, (Value.dict entries).firstTensor = some t → ∃ key, (key, .tensor t) ∈ entries) ∧
      ((∃ key t, (key, .tensor t) ∈ entries) → ((Value.dict entries).firstTensor).isSome = true) := by
  rw [Value.firstTensor]
  constructor
  · intro t found
    obtain ⟨entry, member, held⟩ := List.exists_of_findSome?_eq_some found
    obtain ⟨key, value⟩ := entry
    cases value with
    | tensor own =>
        cases held
        exact ⟨key, member⟩
    | none | array | number | object | list | dict => cases held
  · rintro ⟨key, t, member⟩
    rw [List.findSome?_isSome_iff]
    exact ⟨(key, .tensor t), member, rfl⟩

theorem makesTensor_dict {values : List (Value Tensor NdArray Number Object)}
    {first : List (Text × Value Tensor NdArray Number Object)} (head : firstNonNone values = some (.dict first)) :
    MakesTensor values ↔ ∃ entry ∈ first, ((first.lookup entry.1).getD .none).isArrayLike = true := by
  unfold MakesTensor
  rw [head]
  constructor
  · rintro ⟨key, value, found, arrays⟩
    have listed := List.lookup_eq_some_iff.mp found
    obtain ⟨before, after, split, -⟩ := listed
    refine ⟨(key, value), ?_, ?_⟩
    · rw [split]
      simp
    · rw [found]
      exact arrays
  · rintro ⟨entry, member, arrays⟩
    cases found : first.lookup entry.1 with
    | none =>
        rw [found] at arrays
        cases arrays
    | some value =>
        rw [found] at arrays
        exact ⟨entry.1, value, found, arrays⟩

theorem firstTensor_spec {values : List (Value Tensor NdArray Number Object)}
    {collated : Value Tensor NdArray Number Object} (done : torch.collateField values = some collated)
    (aligned : AlignedField values) :
    (collated.firstTensor.isSome = true ↔ MakesTensor values) ∧
      ∀ t, collated.firstTensor = some t → torch.size t = some values.length := by
  have made := collateField_spec done
  cases head : firstNonNone values with
  | none =>
      rw [head] at made
      cases made
      unfold MakesTensor
      rw [head]
      exact ⟨by simp [Value.firstTensor], fun t found => by cases found⟩
  | some first =>
      rw [head] at made
      cases made with
      | stacked kind size rows =>
          rw [nonNone_eq_self ((aligned_stacked head kind).mp aligned)] at size
          constructor
          · unfold MakesTensor
            rw [head]
            cases first with
            | tensor | array | number => exact ⟨fun _ => trivial, fun _ => rfl⟩
            | none | object | list | dict => cases kind
          · intro t found
            cases found
            exact size
      | dict collatedEntries =>
          rename_i first entries
          have present : ∀ value ∈ values, value.isNone = false := by
            intro value member
            obtain ⟨own, dict, -⟩ := (aligned_dict head).mp aligned value member
            rw [dict]
            rfl
          -- A collated dict holds a tensor exactly when the first dict has an array-like entry.
          have first_dict : (nonNone values).head? = some (.dict first) := head
          obtain ⟨sizes, stand⟩ := collateEntries_tensor first_dict collatedEntries
          obtain ⟨holds, found⟩ := firstTensor_dict entries
          constructor
          · rw [makesTensor_dict head, ← stand]
            constructor
            · intro isSome
              obtain ⟨t, same⟩ := Option.isSome_iff_exists.mp isSome
              obtain ⟨key, member⟩ := holds t same
              exact ⟨key, t, member⟩
            · exact found
          · intro t same
            obtain ⟨key, member⟩ := holds t same
            have size := sizes key t member
            rwa [nonNone_eq_self present] at size
      | listed kind =>
          constructor
          · unfold MakesTensor
            rw [head]
            cases first with
            | object | list => exact iff_of_false Bool.false_ne_true id
            | none | tensor | array | number | dict => cases kind
          · intro t found
            cases found

variable {batch : List (Observation Tensor NdArray Number Object)} {out : Observation Tensor NdArray Number Object}

theorem inferBatchSize_iff
    (done : ∀ field, torch.collateField (batch.map fun sample => sample field) = some (out field))
    (aligned : ∀ field, AlignedField (batch.map fun sample => sample field)) :
    torch.inferBatchSize out = some batch.length ↔ ∃ field, MakesTensor (batch.map fun sample => sample field) := by
  have sized : ∀ field t, (out field).firstTensor = some t → torch.size t = some batch.length := by
    intro field t found
    have size := (firstTensor_spec (done field) (aligned field)).2 t found
    rwa [List.length_map] at size
  constructor
  · intro length
    obtain ⟨t, found, -⟩ := Option.bind_eq_some_iff.mp length
    obtain ⟨field, -, held⟩ := List.exists_of_findSome?_eq_some found
    refine ⟨field, (firstTensor_spec (done field) (aligned field)).1.mp ?_⟩
    rw [held]
    rfl
  · rintro ⟨field, makes⟩
    have isSome := (firstTensor_spec (done field) (aligned field)).1.mpr makes
    have found : ((([.action, .state, .images] : List FieldName) ++ FieldName.all).findSome? fun field =>
        (out field).firstTensor).isSome = true := by
      rw [List.findSome?_isSome_iff]
      exact ⟨field, List.mem_append_right _ (FieldName.mem_all field), isSome⟩
    obtain ⟨t, first⟩ := Option.isSome_iff_exists.mp found
    obtain ⟨other, -, held⟩ := List.exists_of_findSome?_eq_some first
    exact Option.bind_eq_some_iff.mpr ⟨t, first, sized other t held⟩

theorem samples_iff
    (done : ∀ field, torch.collateField (batch.map fun sample => sample field) = some (out field)) :
    (∀ i sample, batch[i]? = some sample →
        ∃ got, torch.getItem out i = some got ∧ ∀ field, Same torch (sample field) (got field)) ↔
      ∀ field, AlignedField (batch.map fun sample => sample field) := by
  constructor
  · intro samples field
    rw [← kept_iff_aligned (done field)]
    intro i value there
    rw [List.getElem?_map] at there
    obtain ⟨sample, inBatch, same⟩ := Option.map_eq_some_iff.mp there
    obtain ⟨got, indexed, each⟩ := samples i sample inBatch
    refine ⟨got field, build_eq_some.mp indexed field, ?_⟩
    rw [← same]
    exact each field
  · intro aligned i sample inBatch
    have kept : ∀ field, ∃ got, torch.indexValue i (out field) = some got ∧ Same torch (sample field) got := by
      intro field
      apply (kept_iff_aligned (done field)).mpr (aligned field) i (sample field)
      rw [List.getElem?_map, inBatch]
      rfl
    choose got indexed same using kept
    exact ⟨got, build_eq_some.mpr indexed, same⟩

theorem collateObservations_fields (nonempty : batch ≠ []) (collated : torch.collateObservations batch = some out)
    (field : FieldName) : torch.collateField (batch.map fun sample => sample field) = some (out field) := by
  rw [Torch.collateObservations, if_neg (by simpa using nonempty)] at collated
  exact build_eq_some.mp collated field

/-- A collated batch has the length and the samples it is made of exactly where they are aligned. -/
theorem collate_observations_promised_iff (torch : Torch Tensor NdArray Number Object)
    (batch : List (Observation Tensor NdArray Number Object)) (nonempty : batch ≠ [])
    (out : Observation Tensor NdArray Number Object) (collated : torch.collateObservations batch = some out) :
    Promised torch batch out ↔ Aligned batch := by
  have done := collateObservations_fields nonempty collated
  constructor
  · intro promised
    have aligned := (samples_iff done).mp promised.samples
    exact ⟨aligned, (inferBatchSize_iff done aligned).mp promised.length⟩
  · intro aligned
    exact ⟨(inferBatchSize_iff done aligned.fields).mpr aligned.tensor, (samples_iff done).mpr aligned.fields⟩

/-! ### Tensors as nested lists -/

inductive Nested where
  | number (x : Int)
  | rows (parts : List Nested)

def Nested.shape : Nested → List Nat
  | .number _ => []
  | .rows [] => [0]
  | .rows (part :: parts) => (parts.length + 1) :: part.shape

def Nested.index : Nested → Nat → Option Nested
  | .number _, _ => none
  | .rows parts, i => parts[i]?

def Nested.ofScalar : Value Nested Nested Int Unit → Option Nested
  | .number x => some (.number x)
  | .tensor (.number x) => some (.number x)
  | _ => none

def exactTorch : Torch Nested Nested Int Unit where
  size t := t.shape.head?
  index := Nested.index
  indexArray := Nested.index
  fromNumpy := id
  stack ts := if ts ≠ [] ∧ ∀ t ∈ ts, t.shape = (ts.head?.map Nested.shape).getD [] then some (.rows ts) else none
  tensorOf values := (values.mapM Nested.ofScalar).map .rows
  alike first second := first = second
  holds x t := t = .number x
  stack_size := by
    intro ts t stacked
    split at stacked
    next fits =>
      cases stacked
      cases ts with
      | nil => exact absurd rfl fits.1
      | cons first ts => rfl
    next => cases stacked
  stack_index := by
    intro ts t stacked i part there
    split at stacked
    next =>
      cases stacked
      exact ⟨part, there, rfl⟩
    next => cases stacked
  tensorOf_size := by
    intro values t made
    obtain ⟨parts, scalars, same⟩ := Option.map_eq_some_iff.mp made
    cases same
    rw [← (mapM_getElem scalars).1]
    cases parts with
    | nil => rfl
    | cons first parts => rfl
  tensorOf_index := by
    intro values t made i value there
    obtain ⟨parts, scalars, same⟩ := Option.map_eq_some_iff.mp made
    cases same
    obtain ⟨row, scalar, placed⟩ := (mapM_getElem scalars).2 i value there
    refine ⟨row, placed, ?_⟩
    unfold Nested.ofScalar at scalar
    split at scalar <;> cases scalar <;> rfl

def sampleOf (action : Int) (cameras : List (Text × Value Nested Nested Int Unit))
    (reward : Value Nested Nested Int Unit) : Observation Nested Nested Int Unit
  | .action => .tensor (.rows [.number action])
  | .images => .dict cameras
  | .nextReward => reward
  | .task => .object ()
  | _ => .none

theorem two_samples_given_back :
    ∃ out, exactTorch.collateObservations
        [sampleOf 1 [("top".toList, .tensor (.rows []))] .none, sampleOf 2 [("top".toList, .array (.rows []))] .none] =
          some out ∧
      Promised exactTorch
        [sampleOf 1 [("top".toList, .tensor (.rows []))] .none, sampleOf 2 [("top".toList, .array (.rows []))] .none]
        out := by
  have returned : (exactTorch.collateObservations
      [sampleOf 1 [("top".toList, .tensor (.rows []))] .none,
        sampleOf 2 [("top".toList, .array (.rows []))] .none]).isSome = true := by decide
  obtain ⟨out, collated⟩ := Option.isSome_iff_exists.mp returned
  refine ⟨out, collated, (collate_observations_promised_iff exactTorch _ (List.cons_ne_nil _ _) out collated).mpr ?_⟩
  refine ⟨?_, ⟨.action, trivial⟩⟩
  intro field
  cases field with
  | action =>
      intro value member
      rcases List.mem_cons.mp member with here | there
      · rw [here]
        rfl
      · rw [List.mem_singleton.mp there]
        rfl
  | images =>
      intro value member
      rcases List.mem_cons.mp member with here | there
      · exact ⟨_, here, fun key => rfl⟩
      · refine ⟨_, List.mem_singleton.mp there, ?_⟩
        intro key
        rw [List.lookup_cons, List.lookup_cons]
        cases key == "top".toList <;> rfl
  | _ => trivial

/-- The reward of the second sample is given back as that of the first. -/
theorem late_reward_shifted :
    ∃ out, exactTorch.collateObservations [sampleOf 1 [] .none, sampleOf 2 [] (.tensor (.number 5))] = some out ∧
      ¬ Promised exactTorch [sampleOf 1 [] .none, sampleOf 2 [] (.tensor (.number 5))] out := by
  have returned : (exactTorch.collateObservations
      [sampleOf 1 [] .none, sampleOf 2 [] (.tensor (.number 5))]).isSome = true := by decide
  obtain ⟨out, collated⟩ := Option.isSome_iff_exists.mp returned
  refine ⟨out, collated, ?_⟩
  intro promised
  have done := collateObservations_fields (List.cons_ne_nil _ _) collated
  have aligned := (samples_iff done).mp promised.samples .nextReward
  have present : ∀ value ∈ [Value.none, .tensor (Nested.number 5)], value.isNone = false := aligned
  cases present _ List.mem_cons_self

end PhysicalAiStudio.Observations.Batch
