import PhysicalAiStudio.Collections.Dict
import PhysicalAiStudio.Observations.Fields

/-! Flattening an observation into one dictionary and reading it back: `to_dict`, `get_flattened_keys` and
`from_dict` of `data/observation.py`.
-/

set_option autoImplicit false

namespace PhysicalAiStudio.Observations
open Collections Strings

/-- A value of a field or of an entry of a field's dictionary. -/
inductive Value (α : Type) where
  | none
  | plain (value : α)
  | keys (names : List Text)
  | dict (entries : List (Text × Value α))

/-- An observation; no key stands in the dictionary of a field twice. -/
structure Observation (α : Type) where
  value : FieldName → Value α
  keyed : ∀ field entries, value field = .dict entries → (entries.map Prod.fst).Nodup

variable {α : Type}

def subKey (field : FieldName) (sub : Text) : Text := field.name ++ '.' :: sub

def keysKey (name : Text) : Text := '_' :: (name ++ "_keys".toList)

def flattenField (field : FieldName) : Value α → List (Text × Value α)
  | .dict entries =>
    (entries.map fun entry => (subKey field entry.1, entry.2)) ++
      [(keysKey field.name, .keys (entries.map fun entry => subKey field entry.1))]
  | value => [(field.name, value)]

def Observation.toDict (o : Observation α) : Dict Text (Value α) :=
  Dict.setAll ∅ (FieldName.all.flatMap fun field => flattenField field (o.value field))

def getFlattenedKeys (data : Dict Text (Value α)) (field : Text) : Option (List Text) :=
  if field ∈ data then some [field]
  else
    match data.get? (keysKey field) with
    | some (.keys names) => some names
    | some _ => none
    | none => some (data.keys.filter fun key => decide ((field ++ ['.']) <+: key))

/-- `key.split(".", 1)` of a key with a dot. -/
def splitKey (key : Text) : Option (Text × Text) :=
  match key.dropWhile (· ≠ '.') with
  | [] => none
  | _ :: sub => some (key.takeWhile (· ≠ '.'), sub)

structure Found (α : Type) where
  filtered : Dict FieldName (Value α) := ∅
  nested : Dict FieldName (Dict Text (Value α)) := ∅

def isKeysKey (key : Text) : Bool :=
  decide (['_'] <+: key) && decide ("_keys".toList <:+ key)

def Found.read (found : Found α) (key : Text) (value : Value α) : Found α :=
  match FieldName.ofName key with
  | some field => { found with filtered := found.filtered.set field value }
  -- No field of that name: the key is split at its first dot, and the marker of the keys is passed over.
  | none =>
    if isKeysKey key then found
    else
      match splitKey key with
      | none => found
      | some (head, sub) =>
        match FieldName.ofName head with
        | none => found
        | some field =>
          { found with nested := found.nested.set field (((found.nested.get? field).getD ∅).set sub value) }

/-- The value of a field, which stays `None` where nothing was found for it. -/
def Found.value (found : Found α) (field : FieldName) : Value α :=
  match found.filtered.get? field with
  | some value => value
  | none =>
    match found.nested.get? field with
    | some entries => .dict entries.items
    | none => .none

def Found.readAll (found : Found α) (items : List (Text × Value α)) : Found α :=
  items.foldl (fun found item => found.read item.1 item.2) found

def fromDict (data : Dict Text (Value α)) : FieldName → Value α :=
  (Found.readAll {} data.items).value

/-! ### Keys -/

theorem splitKey_subKey (field : FieldName) (sub : Text) : splitKey (subKey field sub) = some (field.name, sub) := by
  have plain : ∀ c ∈ field.name, c ≠ '.' := fun c member dot => field.name_plain.1 (dot ▸ member)
  have before : ∀ c ∈ field.name, (decide (c ≠ '.')) = true := fun c member => decide_eq_true (plain c member)
  have dropped : (subKey field sub).dropWhile (· ≠ '.') = '.' :: sub := by
    rw [subKey, List.dropWhile_append_of_pos before, List.dropWhile_cons_of_neg (by simp)]
  have taken : (subKey field sub).takeWhile (· ≠ '.') = field.name := by
    rw [subKey, List.takeWhile_append_of_pos before, List.takeWhile_cons_of_neg (by simp), List.append_nil]
  unfold splitKey
  rw [dropped, taken]

theorem ofName_subKey (field : FieldName) (sub : Text) : FieldName.ofName (subKey field sub) = none := by
  cases found : FieldName.ofName (subKey field sub) with
  | none => rfl
  | some other =>
      have same := FieldName.ofName_eq_some.mp found
      have dot : '.' ∈ other.name := by
        rw [← same]
        simp [subKey]
      exact absurd dot other.name_plain.1

theorem head_subKey (field : FieldName) (sub : Text) : (subKey field sub).head? = field.name.head? := by
  cases field <;> rfl

theorem isKeysKey_subKey (field : FieldName) (sub : Text) : isKeysKey (subKey field sub) = false := by
  have plain := field.name_plain.2
  rw [← head_subKey field sub] at plain
  unfold isKeysKey
  rw [Bool.and_eq_false_iff]
  left
  apply decide_eq_false
  intro starts
  obtain ⟨rest, same⟩ := starts
  rw [← same] at plain
  exact plain rfl

theorem ofName_keysKey (name : Text) : FieldName.ofName (keysKey name) = none := by
  cases found : FieldName.ofName (keysKey name) with
  | none => rfl
  | some other =>
      have same := FieldName.ofName_eq_some.mp found
      have plain := other.name_plain.2
      rw [← same] at plain
      exact absurd rfl plain

theorem isKeysKey_keysKey (name : Text) : isKeysKey (keysKey name) = true := by
  unfold isKeysKey keysKey
  rw [Bool.and_eq_true]
  exact ⟨decide_eq_true ⟨_, rfl⟩, decide_eq_true ⟨'_' :: name, rfl⟩⟩

theorem subKey_injective (field : FieldName) : Function.Injective (subKey field) := by
  intro first second same
  have split := splitKey_subKey field first
  rw [same, splitKey_subKey] at split
  exact (Prod.mk.inj (Option.some.inj split)).2.symm

/-- The name that a flat key starts with, or holds between the marks of a list of keys. -/
def stem (key : Text) : Text :=
  if key.head? = some '_' then key.tail.take (key.tail.length - "_keys".toList.length)
  else key.takeWhile (· ≠ '.')

theorem stem_name (field : FieldName) : stem field.name = field.name := by
  cases field <;> decide

theorem stem_subKey (field : FieldName) (sub : Text) : stem (subKey field sub) = field.name := by
  have plain := field.name_plain.2
  rw [← head_subKey field sub] at plain
  have split := splitKey_subKey field sub
  unfold stem
  rw [if_neg plain]
  unfold splitKey at split
  split at split
  · cases split
  · exact (Prod.mk.inj (Option.some.inj split)).1

theorem stem_keysKey (name : Text) : stem (keysKey name) = name := by
  have marked : (keysKey name).head? = some '_' := rfl
  unfold stem
  rw [if_pos marked, keysKey, List.tail_cons, List.length_append, Nat.add_sub_cancel, List.take_left']
  rfl

theorem stem_of_mem {field : FieldName} {value : Value α} {item : Text × Value α}
    (member : item ∈ flattenField field value) : stem item.1 = field.name := by
  cases value with
  | dict entries =>
      rcases List.mem_append.mp member with entry | keys
      · obtain ⟨given, -, same⟩ := List.mem_map.mp entry
        rw [← same]
        exact stem_subKey field given.1
      · rw [List.mem_singleton.mp keys]
        exact stem_keysKey field.name
  | none | plain | keys =>
      rw [List.mem_singleton.mp member]
      exact stem_name field

theorem keysKey_ne_subKey (name : Text) (field : FieldName) (sub : Text) : keysKey name ≠ subKey field sub := by
  intro same
  have kind := isKeysKey_keysKey name
  rw [same, isKeysKey_subKey] at kind
  cases kind

theorem flattenField_nodup (field : FieldName) {value : Value α}
    (keyed : ∀ entries, value = .dict entries → (entries.map Prod.fst).Nodup) :
    ((flattenField field value).map Prod.fst).Nodup := by
  cases value with
  | dict entries =>
      have subs : ((entries.map Prod.fst).map (subKey field)).Nodup := (keyed entries rfl).map (subKey_injective field)
      have flat : ((entries.map fun entry => (subKey field entry.1, entry.2)) ++
          [(keysKey field.name, (.keys (entries.map fun entry => subKey field entry.1) : Value α))]).map Prod.fst =
          (entries.map Prod.fst).map (subKey field) ++ [keysKey field.name] := by
        simp [Function.comp_def]
      rw [flattenField, flat, List.nodup_append]
      refine ⟨subs, List.nodup_singleton _, ?_⟩
      intro key listed other keys same
      obtain ⟨sub, -, made⟩ := List.mem_map.mp listed
      rw [List.mem_singleton] at keys
      exact keysKey_ne_subKey field.name field sub (keys.symm.trans (same.symm.trans made.symm))
  | none | plain | keys => exact List.nodup_singleton _

theorem Observation.flat_nodup (o : Observation α) :
    ((FieldName.all.flatMap fun field => flattenField field (o.value field)).map Prod.fst).Nodup := by
  rw [List.map_flatMap, List.nodup_flatMap]
  constructor
  · intro field _
    exact flattenField_nodup field (o.keyed field)
  · apply FieldName.all_nodup.imp
    intro first second apart key inFirst inSecond
    obtain ⟨item, member, same⟩ := List.mem_map.mp inFirst
    obtain ⟨other, memberOther, sameOther⟩ := List.mem_map.mp inSecond
    apply apart
    apply FieldName.name_injective
    rw [← stem_of_mem member, ← stem_of_mem memberOther, same, sameOther]

theorem Observation.items_toDict (o : Observation α) :
    o.toDict.items = FieldName.all.flatMap fun field => flattenField field (o.value field) := by
  unfold toDict
  rw [Dict.items_setAll (fun item _ present => absurd present (AList.notMem_empty _)) o.flat_nodup]
  rfl

/-! ### Reading back -/

theorem read_name (found : Found α) (field : FieldName) (value : Value α) :
    found.read field.name value = { found with filtered := found.filtered.set field value } := by
  simp only [Found.read, FieldName.ofName_name]

theorem read_keysKey (found : Found α) (name : Text) (value : Value α) : found.read (keysKey name) value = found := by
  simp only [Found.read, ofName_keysKey, isKeysKey_keysKey, if_true]

theorem read_subKey (found : Found α) (field : FieldName) (sub : Text) (value : Value α) :
    found.read (subKey field sub) value =
      { found with nested := found.nested.set field (((found.nested.get? field).getD ∅).set sub value) } := by
  simp only [Found.read, ofName_subKey, isKeysKey_subKey, splitKey_subKey, FieldName.ofName_name, Bool.false_eq_true,
    if_false]

/-- What is read back of a value: a dictionary without entries leaves nothing to read. -/
def restored : Value α → Value α
  | .dict [] => .none
  | value => value

structure Found.Keeps (before after : Found α) (field : FieldName) : Prop where
  filtered : after.filtered.get? field = before.filtered.get? field
  nested : after.nested.get? field = before.nested.get? field

theorem Found.Keeps.value {before after : Found α} {field : FieldName} (keeps : before.Keeps after field) :
    after.value field = before.value field := by
  unfold Found.value
  rw [keeps.filtered, keeps.nested]

theorem Found.Keeps.trans {first second third : Found α} {field : FieldName} (before : first.Keeps second field)
    (after : second.Keeps third field) : first.Keeps third field :=
  ⟨after.filtered.trans before.filtered, after.nested.trans before.nested⟩

def flatEntries (field : FieldName) (entries : List (Text × Value α)) : List (Text × Value α) :=
  entries.map fun entry => (subKey field entry.1, entry.2)

theorem read_entries (field : FieldName) (entries : List (Text × Value α)) (found : Found α) :
    (found.readAll (flatEntries field entries)).filtered = found.filtered ∧
      (∀ other ≠ field, (found.readAll (flatEntries field entries)).nested.get? other = found.nested.get? other) ∧
      (found.readAll (flatEntries field entries)).nested.get? field =
        if entries = [] then found.nested.get? field
        else some (((found.nested.get? field).getD ∅).setAll entries) := by
  induction entries generalizing found with
  | nil => exact ⟨rfl, fun _ _ => rfl, rfl⟩
  | cons entry rest ih =>
      obtain ⟨filtered, others, own⟩ := ih (found.read (subKey field entry.1) entry.2)
      have step : found.readAll (flatEntries field (entry :: rest)) =
          (found.read (subKey field entry.1) entry.2).readAll (flatEntries field rest) := rfl
      rw [step]
      refine ⟨?_, ?_, ?_⟩
      · rw [filtered, read_subKey]
      · intro other apart
        rw [others other apart, read_subKey]
        exact Dict.get?_set_ne _ _ apart
      · rw [own, read_subKey, if_neg (List.cons_ne_nil _ _)]
        simp only [Dict.get?_set_self]
        split
        · next last =>
            rw [last]
            rfl
        · rfl

theorem readAll_append (found : Found α) (first second : List (Text × Value α)) :
    found.readAll (first ++ second) = (found.readAll first).readAll second :=
  List.foldl_append

theorem read_field (field : FieldName) {value : Value α}
    (keyed : ∀ entries, value = .dict entries → (entries.map Prod.fst).Nodup) (found : Found α)
    (fresh : ({} : Found α).Keeps found field) :
    (found.readAll (flattenField field value)).value field = restored value ∧
      ∀ other ≠ field, found.Keeps (found.readAll (flattenField field value)) other := by
  -- A dict is spread over its sub-keys and an empty one leaves none; all else is one key.
  cases value with
  | dict entries =>
      obtain ⟨filtered, others, own⟩ := read_entries field entries found
      have keys : found.readAll (flattenField field (.dict entries)) = found.readAll (flatEntries field entries) := by
        rw [flattenField, readAll_append]
        exact read_keysKey _ _ _
      rw [keys]
      refine ⟨?_, fun other apart => ⟨by rw [filtered], others other apart⟩⟩
      have freshFiltered : found.filtered.get? field = none := fresh.filtered
      have freshNested : found.nested.get? field = none := fresh.nested
      have items : ((∅ : Dict Text (Value α)).setAll entries).items = entries :=
        Dict.items_setAll (fun _ _ present => absurd present (AList.notMem_empty _)) (keyed entries rfl)
      rw [freshNested] at own
      cases entries with
      | nil =>
          rw [if_pos rfl] at own
          simp only [Found.value, filtered, freshFiltered, own]
          rfl
      | cons first rest =>
          rw [if_neg (List.cons_ne_nil _ _)] at own
          simp only [Found.value, filtered, freshFiltered, own, Option.getD_none, items]
          rfl
  | none | plain | keys =>
      simp only [flattenField, Found.readAll, List.foldl_cons, List.foldl_nil, read_name]
      refine ⟨?_, fun other apart => ⟨Dict.get?_set_ne _ _ apart, rfl⟩⟩
      simp only [Found.value, Dict.get?_set_self, restored]

theorem read_fields (o : Observation α) {fields : List FieldName} (nodup : fields.Nodup) (found : Found α)
    (fresh : ∀ field ∈ fields, ({} : Found α).Keeps found field) :
    (∀ field ∈ fields,
      (found.readAll (fields.flatMap fun field => flattenField field (o.value field))).value field =
        restored (o.value field)) ∧
      ∀ other ∉ fields,
        found.Keeps (found.readAll (fields.flatMap fun field => flattenField field (o.value field))) other := by
  induction fields generalizing found with
  | nil => exact ⟨fun _ member => absurd member List.not_mem_nil, fun _ _ => ⟨rfl, rfl⟩⟩
  | cons first rest ih =>
      obtain ⟨apart, nodupRest⟩ := List.nodup_cons.mp nodup
      obtain ⟨own, kept⟩ := read_field first (o.keyed first) found (fresh first List.mem_cons_self)
      have freshRest : ∀ field ∈ rest, ({} : Found α).Keeps (found.readAll (flattenField first (o.value first))) field := by
        intro field member
        have other : field ≠ first := fun same => apart (same ▸ member)
        exact (fresh field (List.mem_cons_of_mem _ member)).trans (kept field other)
      obtain ⟨others, keptRest⟩ := ih nodupRest _ freshRest
      rw [List.flatMap_cons, readAll_append]
      constructor
      · intro field member
        rcases List.mem_cons.mp member with same | later
        · rw [same, (keptRest first apart).value, own]
        · exact others field later
      · intro other absent
        rw [List.mem_cons, not_or] at absent
        exact (kept other absent.1).trans (keptRest other absent.2)

theorem fromDict_toDict (o : Observation α) (field : FieldName) :
    fromDict o.toDict field = restored (o.value field) := by
  unfold fromDict
  rw [o.items_toDict]
  exact (read_fields o FieldName.all_nodup {} (fun _ _ => ⟨rfl, rfl⟩)).1 field field.mem_all

theorem restored_eq_self {value : Value α} : restored value = value ↔ value ≠ .dict [] := by
  cases value with
  | none | plain | keys => simp [restored]
  | dict entries => cases entries <;> simp [restored]

/-! ### The keys of a field -/

def flatKeys (field : FieldName) : Value α → List Text
  | .dict entries => entries.map fun entry => subKey field entry.1
  | _ => [field.name]

theorem get?_toDict (o : Observation α) {field : FieldName} {item : Text × Value α}
    (member : item ∈ flattenField field (o.value field)) : o.toDict.get? item.1 = some item.2 := by
  apply Dict.mem_items.mp
  rw [o.items_toDict]
  exact List.mem_flatMap.mpr ⟨field, field.mem_all, member⟩

theorem mem_toDict {o : Observation α} {key : Text} (present : key ∈ o.toDict) :
    ∃ field, ∃ item ∈ flattenField field (o.value field), item.1 = key := by
  obtain ⟨value, found⟩ := Dict.mem_iff_get?.mp present
  have listed := Dict.mem_items.mpr found
  rw [o.items_toDict] at listed
  obtain ⟨field, -, member⟩ := List.mem_flatMap.mp listed
  exact ⟨field, _, member, rfl⟩

/-- The name of a field with a dictionary is no key, since no other field's keys have that stem. -/
theorem name_mem_toDict (o : Observation α) (field : FieldName) :
    field.name ∈ o.toDict ↔ ∀ entries, o.value field ≠ .dict entries := by
  constructor
  · intro present entries given
    obtain ⟨owner, item, member, same⟩ := mem_toDict present
    have stems := stem_of_mem member
    rw [same, stem_name] at stems
    rw [← FieldName.name_injective stems, given] at member
    rcases List.mem_append.mp member with entry | keys
    · obtain ⟨sub, -, made⟩ := List.mem_map.mp entry
      have dotted := ofName_subKey field sub.1
      have flat : subKey field sub.1 = field.name := by
        rw [← same, ← made]
      rw [flat, FieldName.ofName_name] at dotted
      cases dotted
    · have marked := ofName_keysKey field.name
      have flat : keysKey field.name = field.name := by
        rw [List.mem_singleton.mp keys] at same
        exact same
      rw [flat, FieldName.ofName_name] at marked
      cases marked
  · intro flat
    have member : (field.name, o.value field) ∈ flattenField field (o.value field) := by
      cases given : o.value field with
      | dict entries => exact absurd given (flat entries)
      | none | plain | keys => exact List.mem_singleton.mpr rfl
    exact Dict.mem_iff_get?.mpr ⟨_, get?_toDict o member⟩

theorem getFlattenedKeys_toDict (o : Observation α) (field : FieldName) :
    getFlattenedKeys o.toDict field.name = some (flatKeys field (o.value field)) := by
  unfold getFlattenedKeys
  cases given : o.value field with
  | dict entries =>
      have absent : field.name ∉ o.toDict := fun present => (name_mem_toDict o field).mp present entries given
      have marker : (keysKey field.name, (.keys (entries.map fun entry => subKey field entry.1) : Value α)) ∈
          flattenField field (o.value field) := by
        rw [given]
        exact List.mem_append_right _ (List.mem_singleton.mpr rfl)
      rw [if_neg absent, get?_toDict o marker]
      rfl
  | none | plain | keys =>
      have present : field.name ∈ o.toDict := by
        apply (name_mem_toDict o field).mpr
        intro entries same
        rw [given] at same
        cases same
      rw [if_pos present]
      rfl

/-- The keys of a field are all different, stand in the dictionary, and are keys of no other field. -/
structure KeysExact (o : Observation α) : Prop where
  reported : ∀ field, getFlattenedKeys o.toDict field.name = some (flatKeys field (o.value field))
  nodup : ∀ field, (flatKeys field (o.value field)).Nodup
  present : ∀ field, ∀ key ∈ flatKeys field (o.value field), key ∈ o.toDict
  apart : ∀ first second, first ≠ second →
    ∀ key ∈ flatKeys first (o.value first), key ∉ flatKeys second (o.value second)

theorem stem_of_mem_flatKeys {field : FieldName} {value : Value α} {key : Text} (member : key ∈ flatKeys field value) :
    stem key = field.name := by
  cases value with
  | dict entries =>
      obtain ⟨entry, -, same⟩ := List.mem_map.mp member
      rw [← same]
      exact stem_subKey field entry.1
  | none | plain | keys =>
      rw [List.mem_singleton.mp member]
      exact stem_name field

theorem flatKeys_nodup (o : Observation α) (field : FieldName) : (flatKeys field (o.value field)).Nodup := by
  cases given : o.value field with
  | dict entries =>
      have subs := (o.keyed field entries given).map (subKey_injective field)
      rw [List.map_map] at subs
      exact subs
  | none | plain | keys => exact List.nodup_singleton _

theorem flatKeys_present (o : Observation α) (field : FieldName) {key : Text}
    (member : key ∈ flatKeys field (o.value field)) : key ∈ o.toDict := by
  cases given : o.value field with
  | dict entries =>
      rw [given] at member
      obtain ⟨entry, listed, same⟩ := List.mem_map.mp member
      have flat : (subKey field entry.1, entry.2) ∈ flattenField field (o.value field) := by
        rw [given]
        exact List.mem_append_left _ (List.mem_map.mpr ⟨entry, listed, rfl⟩)
      rw [← same]
      exact Dict.mem_iff_get?.mpr ⟨_, get?_toDict o flat⟩
  | none | plain | keys =>
      rw [given] at member
      rw [List.mem_singleton.mp member]
      apply (name_mem_toDict o field).mpr
      intro entries same
      rw [given] at same
      cases same

theorem keysExact (o : Observation α) : KeysExact o where
  reported := getFlattenedKeys_toDict o
  nodup := flatKeys_nodup o
  present := fun field _ member => flatKeys_present o field member
  apart := by
    intro first second different key inFirst inSecond
    apply different
    apply FieldName.name_injective
    rw [← stem_of_mem_flatKeys inFirst, stem_of_mem_flatKeys inSecond]

/-! ### There and back -/

theorem observation_round_trip_iff (o : Observation α) :
    (fromDict o.toDict = o.value ∧ KeysExact o) ↔ ∀ field, o.value field ≠ .dict [] := by
  constructor
  · rintro ⟨same, -⟩ field
    rw [← restored_eq_self, ← fromDict_toDict o field, same]
  · intro full
    refine ⟨?_, keysExact o⟩
    funext field
    rw [fromDict_toDict, restored_eq_self]
    exact full field

def noCameras : Observation Nat where
  value := fun field => if field = .images then .dict [] else .none
  keyed := by
    intro field entries given
    split at given
    · cases given
      exact List.nodup_nil
    · cases given

theorem noCameras_lost : ¬(fromDict noCameras.toDict = noCameras.value ∧ KeysExact noCameras) := by
  rintro ⟨same, -⟩
  have images := congrFun same .images
  rw [fromDict_toDict] at images
  cases images

end PhysicalAiStudio.Observations
