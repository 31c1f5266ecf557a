import PhysicalAiStudio.Collections.WriteLog
import Mathlib.Data.List.AList

/-! Dictionaries that keep their keys in the order of first insertion. -/

set_option autoImplicit false

namespace PhysicalAiStudio.Collections

/-- A dictionary from keys to values; no key stands in it twice. -/
abbrev Dict (κ α : Type) := AList fun _ : κ => α

namespace Dict
variable {κ α : Type} [DecidableEq κ]

def get? (d : Dict κ α) (key : κ) : Option α := AList.lookup key d

def items (d : Dict κ α) : List (κ × α) := d.entries.map fun entry => (entry.1, entry.2)

/-- The dictionary with one key set, in its place if it has the key and at the end otherwise. -/
def set (d : Dict κ α) (key : κ) (value : α) : Dict κ α :=
  if fresh : key ∈ d then d.replace key value
  else ⟨d.entries ++ [⟨key, value⟩], by
    have absent : key ∉ d.entries.map Sigma.fst := fun present => fresh present
    simpa [List.NodupKeys, List.keys, List.nodup_append, List.mem_map] using
      ⟨d.nodupKeys, fun k v held same => absent (List.mem_map.mpr ⟨⟨k, v⟩, held, same⟩)⟩⟩

theorem set_of_mem {d : Dict κ α} {key : κ} (present : key ∈ d) (value : α) :
    d.set key value = d.replace key value := dif_pos present

theorem entries_set_of_absent {d : Dict κ α} {key : κ} (absent : key ∉ d) (value : α) :
    (d.set key value).entries = d.entries ++ [⟨key, value⟩] := congrArg AList.entries (dif_neg absent)

theorem dlookup_kreplace (key other : κ) (value : α) (entries : List (Sigma fun _ : κ => α))
    (present : key ∈ entries.keys) :
    List.dlookup other (List.kreplace key value entries) =
      if other = key then some value else List.dlookup other entries := by
  induction entries with
  | nil => simp at present
  | cons entry rest ih =>
    obtain ⟨k, v⟩ := entry
    by_cases here : key = k
    · subst here
      by_cases same : other = key
      · subst same
        simp [List.kreplace, List.lookmap_cons_some, List.dlookup_cons_eq]
      · simp [List.kreplace, List.lookmap_cons_some, List.dlookup_cons_ne, same]
    · have unchanged : List.kreplace key value (⟨k, v⟩ :: rest) = ⟨k, v⟩ :: List.kreplace key value rest := by
        simp [List.kreplace, List.lookmap_cons_none, here]
      have later : key ∈ rest.keys := by
        simpa [List.keys_cons, here] using present
      rw [unchanged]
      by_cases same : other = k
      · subst same
        have apart : other ≠ key := fun e => here e.symm
        rw [List.dlookup_cons_eq, List.dlookup_cons_eq, if_neg apart]
      · rw [List.dlookup_cons_ne _ _ same, List.dlookup_cons_ne _ _ same, ih later]

theorem get?_set (d : Dict κ α) (key other : κ) (value : α) :
    (d.set key value).get? other = if other = key then some value else d.get? other := by
  by_cases present : key ∈ d
  · rw [set_of_mem present]
    exact dlookup_kreplace key other value d.entries (AList.mem_keys.mp present)
  · change List.dlookup other (d.set key value).entries = if other = key then some value else List.dlookup other d.entries
    rw [entries_set_of_absent present, List.dlookup_append]
    by_cases same : other = key
    · subst same
      have absent : List.dlookup other d.entries = none := List.dlookup_eq_none.mpr present
      simp [absent, List.dlookup_cons_eq]
    · simp [same, List.dlookup_cons_ne]

@[simp] theorem get?_set_self (d : Dict κ α) (key : κ) (value : α) : (d.set key value).get? key = some value := by
  simp [get?_set]

theorem get?_set_ne (d : Dict κ α) {key other : κ} (value : α) (apart : other ≠ key) :
    (d.set key value).get? other = d.get? other := by
  simp [get?_set, apart]

theorem mem_iff_get? {d : Dict κ α} {key : κ} : key ∈ d ↔ ∃ value, d.get? key = some value := by
  rw [← AList.lookup_isSome, Option.isSome_iff_exists]
  rfl

theorem mem_set {d : Dict κ α} {key other : κ} {value : α} : other ∈ d.set key value ↔ other = key ∨ other ∈ d := by
  simp only [mem_iff_get?, get?_set]
  by_cases same : other = key <;> simp [same]

theorem keys_set_of_mem {d : Dict κ α} {key : κ} (value : α) (present : key ∈ d) : (d.set key value).keys = d.keys := by
  rw [set_of_mem present, AList.keys_replace]

theorem get?_empty (key : κ) : (∅ : Dict κ α).get? key = none := rfl

theorem mem_items {d : Dict κ α} {key : κ} {value : α} : (key, value) ∈ d.items ↔ d.get? key = some value := by
  have listed : (⟨key, value⟩ : Sigma fun _ : κ => α) ∈ d.entries ↔ d.get? key = some value :=
    (List.mem_dlookup_iff d.nodupKeys).symm
  rw [← listed]
  refine List.mem_map.trans ?_
  constructor
  · intro found
    obtain ⟨entry, held, same⟩ := found
    cases same
    exact held
  · intro held
    exact ⟨_, held, rfl⟩

omit [DecidableEq κ] in
theorem items_keys (d : Dict κ α) : d.items.map Prod.fst = d.keys := by
  exact List.map_map

omit [DecidableEq κ] in
theorem items_keys_nodup (d : Dict κ α) : (d.items.map Prod.fst).Nodup := by
  rw [items_keys]
  exact d.keys_nodup

omit [DecidableEq κ] in
theorem items_inj {d e : Dict κ α} : d.items = e.items ↔ d = e := by
  refine ⟨fun same => AList.ext (List.map_injective_iff.mpr ?_ same), congrArg items⟩
  intro first second pairs
  cases first
  cases second
  cases pairs
  rfl

/-! ### Many keys set one after the other -/

def setAll (d : Dict κ α) (items : List (κ × α)) : Dict κ α := items.foldl (fun d item => d.set item.1 item.2) d

theorem get?_setAll (d : Dict κ α) (items : List (κ × α)) (key : κ) :
    (d.setAll items).get? key = (lastWrite items key).or (d.get? key) := by
  induction items generalizing d with
  | nil => rfl
  | cons item items ih =>
    have step : d.setAll (item :: items) = (d.set item.1 item.2).setAll items := rfl
    rw [step, ih, lastWrite_cons, get?_set]
    cases lastWrite items key with
    | some value => rfl
    | none =>
      by_cases here : item.1 = key
      · subst here
        simp
      · simp [here, Ne.symm here]

theorem get?_setAll_of_absent {items : List (κ × α)} {key : κ} (absent : key ∉ items.map Prod.fst) (d : Dict κ α) :
    (d.setAll items).get? key = d.get? key := by
  rw [get?_setAll, lastWrite_eq_none.mpr absent, Option.none_or]

theorem get?_setAll_of_mem {items : List (κ × α)} {key : κ} {value : α} (nodup : (items.map Prod.fst).Nodup)
    (held : (key, value) ∈ items) (d : Dict κ α) : (d.setAll items).get? key = some value := by
  rw [get?_setAll, (lastWrite_eq_some_iff nodup).mpr held, Option.some_or]

theorem keys_setAll_of_mem {items : List (κ × α)} {d : Dict κ α} (present : ∀ item ∈ items, item.1 ∈ d) :
    (d.setAll items).keys = d.keys := by
  induction items generalizing d with
  | nil => rfl
  | cons item rest ih =>
    have later : ∀ other ∈ rest, other.1 ∈ d.set item.1 item.2 := fun other member =>
      mem_set.mpr (.inr (present other (List.mem_cons_of_mem _ member)))
    exact (ih later).trans (keys_set_of_mem item.2 (present item List.mem_cons_self))

theorem items_set_of_absent {d : Dict κ α} {key : κ} (absent : key ∉ d) (value : α) :
    (d.set key value).items = d.items ++ [(key, value)] := by
  change (d.set key value).entries.map (fun entry => (entry.1, entry.2)) = _
  rw [entries_set_of_absent absent, List.map_append]
  rfl

/-- Keys that are all new are stored as they are listed. -/
theorem items_setAll {items : List (κ × α)} {d : Dict κ α} (fresh : ∀ item ∈ items, item.1 ∉ d)
    (nodup : (items.map Prod.fst).Nodup) : (d.setAll items).items = d.items ++ items := by
  induction items generalizing d with
  | nil => exact (List.append_nil _).symm
  | cons item rest ih =>
    simp only [List.map_cons, List.nodup_cons] at nodup
    have later : ∀ other ∈ rest, other.1 ∉ d.set item.1 item.2 := by
      intro other member present
      rcases mem_set.mp present with same | old
      · exact nodup.1 (same ▸ List.mem_map_of_mem member)
      · exact fresh other (List.mem_cons_of_mem _ member) old
    have tail := ih later nodup.2
    rw [items_set_of_absent (fresh item List.mem_cons_self), List.append_assoc] at tail
    exact tail

/-- The dictionary with its keys renamed; of two keys with one new name the later value stays. -/
def mapKeys {κ' : Type} [DecidableEq κ'] (d : Dict κ α) (rename : κ → κ') : Dict κ' α :=
  setAll ∅ (d.items.map fun item => (rename item.1, item.2))

theorem get?_mapKeys {κ' : Type} [DecidableEq κ'] (d : Dict κ α) {rename : κ → κ'}
    (injective : Function.Injective rename) (key : κ) : (d.mapKeys rename).get? (rename key) = d.get? key := by
  have renamed : (d.items.map fun item => (rename item.1, item.2)).map Prod.fst = d.keys.map rename := by
    rw [← items_keys, List.map_map, List.map_map]
    rfl
  cases found : d.get? key with
  | some value =>
    have nodup : ((d.items.map fun item => (rename item.1, item.2)).map Prod.fst).Nodup := by
      rw [renamed]
      exact d.keys_nodup.map injective
    exact get?_setAll_of_mem nodup (List.mem_map.mpr ⟨_, mem_items.mpr found, rfl⟩) ∅
  | none =>
    refine get?_setAll_of_absent ?_ ∅
    rw [renamed]
    intro listed
    obtain ⟨other, present, same⟩ := List.mem_map.mp listed
    cases injective same
    obtain ⟨value, held⟩ := mem_iff_get?.mp (AList.mem_keys.mpr present)
    rw [found] at held
    cases held

omit [DecidableEq κ] in
theorem get?_mapKeys_of_absent {κ' : Type} [DecidableEq κ'] (d : Dict κ α) {rename : κ → κ'} {key : κ'}
    (absent : ∀ k, rename k ≠ key) : (d.mapKeys rename).get? key = none := by
  refine get?_setAll_of_absent ?_ ∅
  intro listed
  rw [List.map_map] at listed
  obtain ⟨item, _, same⟩ := List.mem_map.mp listed
  exact absent item.1 same

def rename {κ' : Type} [DecidableEq κ'] (d : Dict κ α) (name : κ → Option κ') : Dict κ' α :=
  setAll ∅ (d.items.filterMap fun item => (name item.1).map fun key => (key, item.2))

theorem get?_rename {κ' : Type} [DecidableEq κ'] (d : Dict κ α) {name : κ → Option κ'}
    (injective : ∀ first ∈ d, ∀ second ∈ d, ∀ key,
      name first = some key → name second = some key → first = second)
    (key : κ') (value : α) :
    (d.rename name).get? key = some value ↔ ∃ old, name old = some key ∧ d.get? old = some value := by
  have renamed (pair : κ' × α) :
      pair ∈ (d.items.filterMap fun item => (name item.1).map fun key => (key, item.2)) ↔
        ∃ old, name old = some pair.1 ∧ d.get? old = some pair.2 := by
    simp only [List.mem_filterMap, Option.map_eq_some_iff]
    constructor
    · rintro ⟨item, held, key, new, rfl⟩
      exact ⟨item.1, new, mem_items.mp held⟩
    · rintro ⟨old, new, held⟩
      exact ⟨(old, pair.2), mem_items.mpr held, pair.1, new, rfl⟩
  rw [rename, get?_setAll, get?_empty, Option.or_none]
  constructor
  · intro last
    exact (renamed (key, value)).mp (mem_of_lastWrite last)
  · rintro ⟨old, new, held⟩
    have member := (renamed (key, value)).mpr ⟨old, new, held⟩
    cases last : lastWrite (d.items.filterMap fun item => (name item.1).map fun key => (key, item.2)) key with
    | none => exact absurd (List.mem_map_of_mem member) (lastWrite_eq_none.mp last)
    | some other =>
      obtain ⟨again, same, value_held⟩ := (renamed (key, other)).mp (mem_of_lastWrite last)
      have both := injective old (mem_iff_get?.mpr ⟨value, held⟩) again (mem_iff_get?.mpr ⟨other, value_held⟩)
      cases both key new same
      exact value_held.symm.trans held

end Dict

end PhysicalAiStudio.Collections
