import PhysicalAiStudio.Observations.LeRobotFormat
import Mathlib.Data.List.Infix

/-! What the conversions to and from LeRobot's naming keep. -/

set_option autoImplicit false

namespace PhysicalAiStudio.Observations.LeRobot
open Collections Strings

variable {α : Type}

/-! ### Keys -/

namespace Part

theorem base_apart (part : Part) : ∀ pfx ∈ part.prefixes, ¬pfx <+: part.baseKey := by
  cases part <;> decide

theorem subPrefix_mem {part : Part} {pfx : Text} (sub : part.subPrefix = some pfx) : pfx ∈ part.prefixes := by
  cases part <;> cases sub <;> decide

theorem prefix_unique {part : Part} {first second key : Text} (memFirst : first ∈ part.prefixes)
    (memSecond : second ∈ part.prefixes) (startsFirst : first <+: key) (startsSecond : second <+: key) :
    first = second := by
  have comparable := List.prefix_or_prefix_of_prefix startsFirst startsSecond
  have apart : ∀ one ∈ part.prefixes, ∀ other ∈ part.prefixes, one <+: other ∨ other <+: one → one = other := by
    cases part <;> decide
  exact apart first memFirst second memSecond comparable

theorem find_prefix {part : Part} {pfx key : Text} (member : pfx ∈ part.prefixes) (starts : pfx <+: key) :
    (part.prefixes.find? fun pfx => decide (pfx <+: key)) = some pfx := by
  cases found : part.prefixes.find? fun pfx => decide (pfx <+: key) with
  | none =>
      have absent := List.find?_eq_none.mp found pfx member
      exact absurd (decide_eq_true starts) absent
  | some other =>
      have passes := List.find?_some found
      rw [prefix_unique (List.mem_of_find?_eq_some found) member (of_decide_eq_true passes) starts]

theorem owns_iff {part : Part} {key : Text} :
    part.owns key = true ↔ key = part.baseKey ∨ ∃ pfx ∈ part.prefixes, pfx <+: key := by
  simp [owns]

def stem : Part → Text
  | .images => "observation.i".toList
  | .state => "observation.s".toList
  | .action => "action".toList
  | .task => "task".toList

theorem stem_of_owns {part : Part} {key : Text} (owned : part.owns key = true) : part.stem <+: key := by
  have base : part.stem <+: part.baseKey := by
    cases part <;> decide
  have prefixes : ∀ pfx ∈ part.prefixes, part.stem <+: pfx := by
    cases part <;> decide
  rcases owns_iff.mp owned with same | ⟨pfx, member, starts⟩
  · rw [same]
    exact base
  · exact (prefixes pfx member).trans starts

theorem owns_unique {part other : Part} {key : Text} (owned : part.owns key = true) (also : other.owns key = true) :
    part = other := by
  have comparable := List.prefix_or_prefix_of_prefix (stem_of_owns owned) (stem_of_owns also)
  revert comparable
  cases part <;> cases other <;> decide

theorem metadata_not_owned (part : Part) : ∀ field ∈ metadata, part.owns field.name = false := by
  cases part <;> decide

end Part

theorem reserved_iff {key : Text} :
    reserved key = true ↔ (∃ field ∈ metadata, field.name = key) ∨ ∃ part : Part, part.owns key = true := by
  simp only [reserved, Bool.or_eq_true, decide_eq_true_eq, List.mem_map, List.any_eq_true]
  constructor
  · rintro (field | ⟨part, -, owned⟩)
    · exact Or.inl field
    · exact Or.inr ⟨part, owned⟩
  · rintro (field | ⟨part, owned⟩)
    · exact Or.inl field
    · exact Or.inr ⟨part, by cases part <;> decide, owned⟩

/-! ### Collecting -/

def OnlyPrefix (item : Item α) (part : Part) (pfx : Text) : Prop :=
  ∀ key ∈ item, ∀ other ∈ part.prefixes, other <+: key → other = pfx

def prefixedEntry (part : Part) (entry : Text × Value α) : Option (Text × Value α) :=
  (part.prefixes.find? fun pfx => decide (pfx <+: entry.1)).map fun pfx => (entry.1.drop pfx.length, entry.2)

theorem collected_eq (item : Item α) (part : Part) :
    collected item part = (collectBase item part).setAll (item.items.filterMap (prefixedEntry part)) := by
  unfold collected
  generalize collectBase item part = found
  induction item.items generalizing found with
  | nil => rfl
  | cons entry entries ih =>
      rw [List.foldl_cons, ih]
      cases matching : part.prefixes.find? fun pfx => decide (pfx <+: entry.1) with
      | none =>
          have skipped : prefixedEntry part entry = none := by
            rw [prefixedEntry, matching]
            rfl
          rw [List.filterMap_cons_none skipped, collectEntry, matching]
      | some pfx =>
          have taken : prefixedEntry part entry = some (entry.1.drop pfx.length, entry.2) := by
            rw [prefixedEntry, matching]
            rfl
          rw [List.filterMap_cons_some taken, collectEntry, matching]
          rfl

theorem get?_collectBase (item : Item α) (part : Part) (sub : Text) :
    (collectBase item part).get? sub = if sub = part.baseKey then item.get? part.baseKey else none := by
  unfold collectBase
  cases held : item.get? part.baseKey with
  | none =>
      rw [ite_self]
      rfl
  | some value =>
      simp only
      rw [Dict.get?_set]
      rfl

theorem prefixedEntry_eq_some {part : Part} {entry : Text × Value α} {made : Text × Value α} :
    prefixedEntry part entry = some made ↔
      ∃ pfx ∈ part.prefixes, entry.1 = pfx ++ made.1 ∧ entry.2 = made.2 := by
  unfold prefixedEntry
  rw [Option.map_eq_some_iff]
  constructor
  · rintro ⟨pfx, found, same⟩
    have starts := List.find?_some found
    obtain ⟨rest, split⟩ := of_decide_eq_true starts
    refine ⟨pfx, List.mem_of_find?_eq_some found, ?_, ?_⟩
    · rw [← same, ← split, List.drop_left]
    · rw [← same]
  · rintro ⟨pfx, member, key, value⟩
    refine ⟨pfx, Part.find_prefix member ⟨made.1, key.symm⟩, ?_⟩
    rw [key, List.drop_left, value]

/-- With one prefix only, what is collected under a name is what stands under its key. -/
theorem get?_collected {item : Item α} {part : Part} {pfx : Text} (member : pfx ∈ part.prefixes)
    (only : OnlyPrefix item part pfx) (sub : Text) :
    (collected item part).get? sub =
      (item.get? (pfx ++ sub)).or (if sub = part.baseKey then item.get? part.baseKey else none) := by
  rw [collected_eq, Dict.get?_setAll, get?_collectBase]
  congr 1
  have value : ∀ made ∈ item.items.filterMap (prefixedEntry part), item.get? (pfx ++ made.1) = some made.2 := by
    intro made listed
    obtain ⟨entry, inItem, same⟩ := List.mem_filterMap.mp listed
    obtain ⟨other, otherMember, key, held⟩ := prefixedEntry_eq_some.mp same
    have there : item.get? entry.1 = some entry.2 := Dict.mem_items.mp inItem
    have present : entry.1 ∈ item := Dict.mem_iff_get?.mpr ⟨_, there⟩
    rw [← only entry.1 present other otherMember ⟨made.1, key.symm⟩, ← key, there, held]
  cases held : item.get? (pfx ++ sub) with
  | none =>
      rw [lastWrite_eq_none, List.mem_map]
      rintro ⟨made, listed, same⟩
      have there := value made listed
      rw [same, held] at there
      cases there
  | some x =>
      apply lastWrite_of_forall
      · have made : prefixedEntry part (pfx ++ sub, x) = some (sub, x) :=
          prefixedEntry_eq_some.mpr ⟨pfx, member, rfl, rfl⟩
        exact List.mem_map.mpr ⟨(sub, x), List.mem_filterMap.mpr ⟨_, Dict.mem_items.mpr held, made⟩, rfl⟩
      · intro made listed same
        have there := value made listed
        rw [same, held] at there
        exact (Option.some.inj there).symm

/-! ### A single value or a dictionary -/

theorem collectField_none {item : Item α} {part : Part} (absent : ∀ sub, (collected item part).get? sub = none) :
    collectField item part = .none := by
  have empty : (collected item part).items = [] := by
    rw [List.eq_nil_iff_forall_not_mem]
    rintro ⟨sub, value⟩ listed
    have there := Dict.mem_items.mp listed
    rw [absent] at there
    cases there
  unfold collectField
  rw [empty]

theorem collectField_single {item : Item α} {part : Part} {value : Value α}
    (base : (collected item part).get? part.baseKey = some value)
    (alone : ∀ sub ≠ part.baseKey, (collected item part).get? sub = none) : collectField item part = value := by
  have nodup : ((collected item part).items.map Prod.fst).Nodup := Dict.items_keys_nodup _
  have listed : (part.baseKey, value) ∈ (collected item part).items := Dict.mem_items.mpr base
  have only : ∀ entry ∈ (collected item part).items, entry = (part.baseKey, value) := by
    rintro ⟨sub, x⟩ member
    have there := Dict.mem_items.mp member
    by_cases same : sub = part.baseKey
    · subst same
      rw [base] at there
      rw [Option.some.inj there]
    · rw [alone sub same] at there
      cases there
  unfold collectField
  cases items : (collected item part).items with
  | nil =>
      rw [items] at listed
      cases listed
  | cons first rest =>
      rw [items] at only nodup
      have here := only first List.mem_cons_self
      subst here
      cases rest with
      | nil => exact if_pos rfl
      | cons second rest =>
          have there := only second (List.mem_cons_of_mem _ List.mem_cons_self)
          subst there
          simp at nodup

theorem collectField_dict {item : Item α} {part : Part} {sub : Text} {value : Value α} (apart : sub ≠ part.baseKey)
    (held : (collected item part).get? sub = some value) :
    collectField item part = .dict (collected item part).items := by
  have listed : (sub, value) ∈ (collected item part).items := Dict.mem_items.mpr held
  unfold collectField
  cases items : (collected item part).items with
  | nil =>
      rw [items] at listed
      cases listed
  | cons first rest =>
      cases rest with
      | nil =>
          rw [items, List.mem_singleton] at listed
          subst listed
          exact if_neg apart
      | cons second rest => rfl

/-! ### One part there and back -/

theorem partEntries_cases (part : Part) (value : Value α) :
    (value = .none ∧ partEntries part value = []) ∨
      (value ≠ .none ∧ (part.subPrefix ≠ none → ∀ entries, value ≠ .dict entries) ∧
        partEntries part value = [(part.baseKey, value)]) ∨
      ∃ pfx entries, part.subPrefix = some pfx ∧ value = .dict entries ∧
        partEntries part value = entries.map fun entry => (pfx ++ entry.1, entry.2) := by
  cases value with
  | none => exact Or.inl ⟨rfl, rfl⟩
  | plain | keys =>
      refine Or.inr (Or.inl ⟨by simp, by simp, ?_⟩)
      cases part <;> rfl
  | dict entries =>
      cases sub : part.subPrefix with
      | none =>
          refine Or.inr (Or.inl ⟨by simp, by simp, ?_⟩)
          cases part <;> cases sub
          rfl
      | some pfx =>
          refine Or.inr (Or.inr ⟨pfx, entries, rfl, rfl, ?_⟩)
          unfold partEntries
          rw [sub]

theorem partEntries_single {part : Part} {value : Value α} (there : value ≠ .none)
    (plain : part.subPrefix ≠ none → ∀ entries, value ≠ .dict entries) :
    partEntries part value = [(part.baseKey, value)] := by
  rcases partEntries_cases part value with ⟨none, -⟩ | ⟨-, -, single⟩ | ⟨pfx, entries, sub, dict, -⟩
  · exact absurd none there
  · exact single
  · exact absurd dict (plain (by simp [sub]) entries)

theorem partEntries_dict {part : Part} {pfx : Text} (sub : part.subPrefix = some pfx)
    (entries : List (Text × Value α)) :
    partEntries part (.dict entries) = entries.map fun entry => (pfx ++ entry.1, entry.2) := by
  unfold partEntries
  rw [sub]

theorem not_own_entry {key : Text} {entries : List (Text × Value α)} : (key, Value.dict entries) ∉ entries := by
  intro member
  have smaller := List.sizeOf_lt_of_mem member
  simp at smaller
  omega

/-- The sample stores the part as it would be stored again. -/
structure Part.Plain (part : Part) (item : Item α) : Prop where
  /-- No sub-key of a state, and no image under the other prefix. -/
  prefixes : ∀ key ∈ item, ∀ pfx ∈ part.prefixes, pfx <+: key → part.subPrefix = some pfx
  alone : part.baseKey ∈ item → ∀ key ∈ item, ∀ pfx ∈ part.prefixes, ¬pfx <+: key
  single : ∀ value, item.get? part.baseKey = some value →
    value ≠ .none ∧ (part.subPrefix ≠ none → ∀ entries, value ≠ .dict entries)
  /-- A sub-key of the base key's own name does not stand alone. -/
  named : ∀ pfx, part.subPrefix = some pfx → part.baseKey ∉ item → pfx ++ part.baseKey ∈ item →
    ∃ sub, sub ≠ part.baseKey ∧ pfx ++ sub ∈ item

/-- Under the keys of the part, storing what was collected gives the sample again. -/
def Part.Kept (part : Part) (item : Item α) : Prop :=
  ∀ key, part.owns key = true → lastWrite (partEntries part (collectField item part)) key = item.get? key

theorem lastWrite_mapped {pfx : Text} (entries : List (Text × Value α)) (sub : Text) :
    lastWrite (entries.map fun entry => (pfx ++ entry.1, entry.2)) (pfx ++ sub) = lastWrite entries sub := by
  induction entries with
  | nil => rfl
  | cons entry entries ih =>
      rw [List.map_cons, lastWrite_cons, lastWrite_cons, ih]
      simp

theorem lastWrite_unmapped {pfx key : Text} (entries : List (Text × Value α)) (apart : ¬pfx <+: key) :
    lastWrite (entries.map fun entry => (pfx ++ entry.1, entry.2)) key = none := by
  rw [lastWrite_eq_none, List.map_map, List.mem_map]
  rintro ⟨entry, -, same⟩
  exact apart ⟨entry.1, same⟩

theorem lastWrite_items (item : Item α) (key : Text) : lastWrite item.items key = item.get? key := by
  cases held : item.get? key with
  | none =>
      rw [lastWrite_eq_none, List.mem_map]
      rintro ⟨entry, listed, same⟩
      have there : item.get? entry.1 = some entry.2 := Dict.mem_items.mp listed
      rw [same, held] at there
      cases there
  | some value =>
      apply lastWrite_of_forall
      · exact List.mem_map.mpr ⟨(key, value), Dict.mem_items.mpr held, rfl⟩
      · intro entry listed same
        have there : item.get? entry.1 = some entry.2 := Dict.mem_items.mp listed
        rw [same, held] at there
        exact (Option.some.inj there).symm

theorem get?_eq_none {item : Item α} {key : Text} (absent : key ∉ item) : item.get? key = none := by
  cases held : item.get? key with
  | none => rfl
  | some value => exact absurd (Dict.mem_iff_get?.mpr ⟨value, held⟩) absent

/-- Without a base key, and with no key that the part is stored under, nothing is collected. -/
theorem collectField_absent {part : Part} {item : Item α} (base : part.baseKey ∉ item)
    (unprefixed : ∀ key ∈ item, ∀ pfx ∈ part.prefixes, ¬pfx <+: key) : collectField item part = .none := by
  obtain ⟨pfx, rest, prefixes⟩ : ∃ pfx rest, part.prefixes = pfx :: rest := by
    cases part <;> exact ⟨_, _, rfl⟩
  have member : pfx ∈ part.prefixes := by simp [prefixes]
  have only : OnlyPrefix item part pfx := fun key inItem other otherMember starts =>
    absurd starts (unprefixed key inItem other otherMember)
  apply collectField_none
  intro sub
  have absent : pfx ++ sub ∉ item := fun inItem => unprefixed _ inItem pfx member ⟨sub, rfl⟩
  rw [get?_collected member only, get?_eq_none absent, get?_eq_none base, ite_self]
  rfl

theorem kept_of_plain {part : Part} {item : Item α} (plain : part.Plain item) : part.Kept item := by
  intro key owned
  cases base : item.get? part.baseKey with
  | some value =>
      -- The base key is there: then it is the only key of its part, and the value is collected bare.
      have present : part.baseKey ∈ item := Dict.mem_iff_get?.mpr ⟨value, base⟩
      obtain ⟨pfx, rest, prefixes⟩ : ∃ pfx rest, part.prefixes = pfx :: rest := by
        cases part <;> exact ⟨_, _, rfl⟩
      have member : pfx ∈ part.prefixes := by simp [prefixes]
      have only : OnlyPrefix item part pfx := fun key inItem other otherMember starts =>
        absurd starts (plain.alone present key inItem other otherMember)
      have unprefixed : ∀ sub, item.get? (pfx ++ sub) = none := by
        intro sub
        cases held : item.get? (pfx ++ sub) with
        | none => rfl
        | some x =>
            exact absurd ⟨sub, rfl⟩ (plain.alone present _ (Dict.mem_iff_get?.mpr ⟨x, held⟩) pfx member)
      have single : collectField item part = value := by
        apply collectField_single
        · rw [get?_collected member only, unprefixed, if_pos rfl, base]
          rfl
        · intro sub apart
          rw [get?_collected member only, unprefixed, if_neg apart]
          rfl
      have valid := plain.single value base
      rw [single, partEntries_single valid.1 valid.2]
      rcases Part.owns_iff.mp owned with same | ⟨other, otherMember, starts⟩
      · subst same
        rw [base]
        simp [lastWrite_cons]
      · have different : part.baseKey ≠ key := by
          intro same
          exact part.base_apart other otherMember (same ▸ starts)
        cases held : item.get? key with
        | none => simp [lastWrite_cons, different]
        | some x =>
            exact absurd starts (plain.alone present key (Dict.mem_iff_get?.mpr ⟨x, held⟩) other otherMember)
  | none =>
      -- No base key: the part is stored under one prefix, and a sub-key apart from the base name shows which.
      have absent : part.baseKey ∉ item := by
        intro present
        obtain ⟨value, held⟩ := Dict.mem_iff_get?.mp present
        rw [base] at held
        cases held
      by_cases named : ∃ pfx sub, part.subPrefix = some pfx ∧ sub ≠ part.baseKey ∧ pfx ++ sub ∈ item
      · obtain ⟨pfx, sub, stored, apart, present⟩ := named
        have member := Part.subPrefix_mem stored
        have only : OnlyPrefix item part pfx := by
          intro other inItem pre preMember starts
          have same := plain.prefixes other inItem pre preMember starts
          rw [stored] at same
          exact (Option.some.inj same).symm
        obtain ⟨x, held⟩ := Dict.mem_iff_get?.mp present
        have there : (collected item part).get? sub = some x := by
          rw [get?_collected member only, held]
          rfl
        rw [collectField_dict apart there, partEntries_dict stored]
        by_cases starts : pfx <+: key
        · obtain ⟨name, split⟩ := starts
          rw [← split, lastWrite_mapped, lastWrite_items, get?_collected member only, base, ite_self, Option.or_none]
        · rw [lastWrite_unmapped _ starts]
          rcases Part.owns_iff.mp owned with same | ⟨other, otherMember, otherStarts⟩
          · rw [same, base]
          · refine (get?_eq_none fun inItem => ?_).symm
            exact starts (only key inItem other otherMember otherStarts ▸ otherStarts)
      · have unprefixed : ∀ other ∈ item, ∀ pfx ∈ part.prefixes, ¬pfx <+: other := by
          intro other inItem pfx member starts
          have stored := plain.prefixes other inItem pfx member starts
          obtain ⟨sub, split⟩ := starts
          rw [← split] at inItem
          by_cases same : sub = part.baseKey
          · rw [same] at inItem
            obtain ⟨second, apart, present⟩ := plain.named pfx stored absent inItem
            exact named ⟨pfx, second, stored, apart, present⟩
          · exact named ⟨pfx, sub, stored, same, inItem⟩
        rw [collectField_absent absent unprefixed]
        rcases Part.owns_iff.mp owned with same | ⟨other, otherMember, starts⟩
        · rw [same, base]
          rfl
        · rw [get?_eq_none fun inItem => unprefixed key inItem other otherMember starts]
          rfl

theorem plain_of_kept {part : Part} {item : Item α} (kept : part.Kept item) : part.Plain item := by
  have held : ∀ key, part.owns key = true → key ∈ item →
      key ∈ (partEntries part (collectField item part)).map Prod.fst := by
    intro key owned inItem
    obtain ⟨value, there⟩ := Dict.mem_iff_get?.mp inItem
    have written := kept key owned
    rw [there] at written
    exact List.mem_map.mpr ⟨(key, value), mem_of_lastWrite written, rfl⟩
  have prefixedOwned : ∀ {key pfx : Text}, pfx ∈ part.prefixes → pfx <+: key → part.owns key = true :=
    fun member starts => Part.owns_iff.mpr (Or.inr ⟨_, member, starts⟩)
  have baseOwned : part.owns part.baseKey = true := Part.owns_iff.mpr (Or.inl rfl)
  rcases partEntries_cases part (collectField item part) with
    ⟨none, entries⟩ | ⟨there, plain, entries⟩ | ⟨stored, inner, sub, dict, entries⟩
  · -- Nothing is stored: no key of the part is in the sample.
    rw [entries] at held
    have absent : ∀ key, part.owns key = true → key ∉ item := fun key owned inItem => by
      simpa using held key owned inItem
    exact
      { prefixes := fun key inItem pfx member starts => absurd inItem (absent key (prefixedOwned member starts))
        alone := fun inItem => absurd inItem (absent _ baseOwned)
        single := fun value base => absurd (Dict.mem_iff_get?.mpr ⟨value, base⟩) (absent _ baseOwned)
        named := fun pfx sub _ inItem =>
          absurd inItem (absent _ (prefixedOwned (Part.subPrefix_mem sub) ⟨_, rfl⟩)) }
  · -- One value is stored: the base key is the only one.
    rw [entries] at held
    have onlyBase : ∀ key, part.owns key = true → key ∈ item → key = part.baseKey := fun key owned inItem => by
      simpa using held key owned inItem
    have unprefixed : ∀ key ∈ item, ∀ pfx ∈ part.prefixes, ¬pfx <+: key := by
      intro key inItem pfx member starts
      have same := onlyBase key (prefixedOwned member starts) inItem
      exact part.base_apart pfx member (same ▸ starts)
    refine ⟨fun key inItem pfx member starts => absurd starts (unprefixed key inItem pfx member),
      fun _ => unprefixed, ?_, fun pfx sub _ inItem =>
        absurd ⟨_, rfl⟩ (unprefixed _ inItem pfx (Part.subPrefix_mem sub))⟩
    intro value base
    have written := kept part.baseKey baseOwned
    rw [entries, base] at written
    have same : collectField item part = value := by
      simpa [lastWrite_cons] using written
    rw [← same]
    exact ⟨there, plain⟩
  · -- A dictionary is stored: every key has the prefix.
    rw [entries] at held
    have allPrefixed : ∀ key, part.owns key = true → key ∈ item → stored <+: key := by
      intro key owned inItem
      have listed := held key owned inItem
      rw [List.map_map, List.mem_map] at listed
      obtain ⟨entry, -, same⟩ := listed
      exact ⟨entry.1, same⟩
    have member := Part.subPrefix_mem sub
    have noBase : part.baseKey ∉ item := fun inItem =>
      part.base_apart stored member (allPrefixed _ baseOwned inItem)
    have only : OnlyPrefix item part stored := fun key inItem pfx pfxMember starts =>
      Part.prefix_unique pfxMember member starts (allPrefixed key (prefixedOwned pfxMember starts) inItem)
    refine ⟨?_, fun inItem => absurd inItem noBase,
      fun value base => absurd (Dict.mem_iff_get?.mpr ⟨value, base⟩) noBase, ?_⟩
    · intro key inItem pfx pfxMember starts
      rw [only key inItem pfx pfxMember starts]
      exact sub
    · intro pfx again _ inItem
      rw [sub] at again
      cases again
      by_contra lonely
      push Not at lonely
      obtain ⟨value, there⟩ := Dict.mem_iff_get?.mp inItem
      -- The lone sub-key is taken for a single value, which would have to be an entry of itself.
      have single : collectField item part = value := by
        apply collectField_single
        · rw [get?_collected member only, there]
          rfl
        · intro name apart
          rw [get?_collected member only, get?_eq_none (lonely name apart), if_neg apart]
          rfl
      have written := kept _ (prefixedOwned member ⟨part.baseKey, rfl⟩)
      rw [entries, lastWrite_mapped, there, ← single, dict] at written
      exact not_own_entry (mem_of_lastWrite written)

/-! ### The whole dictionary -/

theorem partEntries_owned {part : Part} {value : Value α} {entry : Text × Value α}
    (member : entry ∈ partEntries part value) : part.owns entry.1 = true := by
  rcases partEntries_cases part value with ⟨-, entries⟩ | ⟨-, -, entries⟩ | ⟨pfx, inner, sub, -, entries⟩
  · rw [entries] at member
    cases member
  · rw [entries, List.mem_singleton] at member
    rw [member]
    exact Part.owns_iff.mpr (Or.inl rfl)
  · rw [entries] at member
    obtain ⟨own, -, same⟩ := List.mem_map.mp member
    rw [← same]
    exact Part.owns_iff.mpr (Or.inr ⟨pfx, Part.subPrefix_mem sub, own.1, rfl⟩)

theorem lastWrite_other_part {part : Part} {value : Value α} {key : Text} (unowned : ¬part.owns key = true) :
    lastWrite (partEntries part value) key = none := by
  rw [lastWrite_eq_none, List.mem_map]
  rintro ⟨entry, member, same⟩
  exact unowned (same ▸ partEntries_owned member)

theorem lastWrite_metadata_none {value : FieldName → Value α} {key : Text}
    (unnamed : ∀ field ∈ metadata, field.name ≠ key) : lastWrite (metadataEntries value) key = none := by
  rw [lastWrite_eq_none, metadataEntries, List.map_map, List.mem_map]
  rintro ⟨field, member, same⟩
  exact unnamed field member same

theorem metadata_none_of_owned {value : FieldName → Value α} {part : Part} {key : Text}
    (owned : part.owns key = true) : lastWrite (metadataEntries value) key = none := by
  apply lastWrite_metadata_none
  intro field member same
  rw [← same, part.metadata_not_owned field member] at owned
  cases owned

theorem lastWrite_stored_part (value : FieldName → Value α) {part : Part} {key : Text} (owned : part.owns key = true) :
    lastWrite (storedEntries value) key = lastWrite (partEntries part (value part.field)) key := by
  have other : ∀ second : Part, second ≠ part → ∀ x : Value α, lastWrite (partEntries second x) key = none := by
    intro second apart x
    apply lastWrite_other_part
    intro also
    exact apart (Part.owns_unique also owned)
  have named : lastWrite (metadataEntries value) key = none := metadata_none_of_owned owned
  simp only [storedEntries, lastWrite_append, named]
  cases part with
  | images => simp [other .state (by decide), other .action (by decide), other .task (by decide), Part.field]
  | state => simp [other .images (by decide), other .action (by decide), other .task (by decide), Part.field]
  | action => simp [other .images (by decide), other .state (by decide), other .task (by decide), Part.field]
  | task => simp [other .images (by decide), other .state (by decide), other .action (by decide), Part.field]

theorem lastWrite_metadata (value : FieldName → Value α) {field : FieldName} (member : field ∈ metadata) :
    lastWrite (metadataEntries value) field.name = some (value field) := by
  apply lastWrite_of_forall
  · rw [metadataEntries, List.map_map]
    exact List.mem_map.mpr ⟨field, member, rfl⟩
  · intro entry listed same
    obtain ⟨own, -, made⟩ := List.mem_map.mp listed
    subst made
    rw [FieldName.name_injective same]

theorem lastWrite_stored_metadata (value : FieldName → Value α) {field : FieldName} (member : field ∈ metadata) :
    lastWrite (storedEntries value) field.name = some (value field) := by
  rw [storedEntries, lastWrite_append, lastWrite_metadata value member]
  rfl

theorem lastWrite_stored_free (value : FieldName → Value α) {key : Text} (free : reserved key = false) :
    lastWrite (storedEntries value) key = none := by
  have unreserved : ¬reserved key = true := by simp [free]
  rw [reserved_iff, not_or] at unreserved
  have parts : ∀ (part : Part) (x : Value α), lastWrite (partEntries part x) key = none := fun part x =>
    lastWrite_other_part fun owned => unreserved.2 ⟨part, owned⟩
  have named : lastWrite (metadataEntries value) key = none :=
    lastWrite_metadata_none fun field member same => unreserved.1 ⟨field, member, same⟩
  simp [storedEntries, lastWrite_append, named, parts]

theorem get?_converted {value : FieldName → Value α} {extra : List (Text × Value α)}
    (given : extraEntries (value .extra) = some extra) :
    ∃ stored, convertObservationToLerobotDict value = some stored ∧
      ∀ key, stored.get? key = (lastWrite extra key).or (lastWrite (storedEntries value) key) := by
  refine ⟨_, by rw [convertObservationToLerobotDict, given]; rfl, ?_⟩
  intro key
  rw [Dict.get?_setAll, Dict.get?_setAll, Dict.get?_empty, Option.or_none]

/-! ### A sample there and back -/

theorem converted_ok {item : Item α} {decoded : FieldName → Value α}
    (accepted : convertLerobotDictToObservation item = .ok decoded) :
    decoded = observationOf item ∧ ∀ field ∈ metadata, field.name ∈ item := by
  unfold convertLerobotDictToObservation at accepted
  split at accepted
  next => cases accepted
  next complete =>
    split at accepted
    next => cases accepted
    next =>
      split at accepted
      next => cases accepted
      next =>
        refine ⟨(Except.ok.inj accepted).symm, ?_⟩
        intro field member
        have found := List.find?_eq_none.mp complete field member
        simpa using found

theorem observationOf_part (item : Item α) (part : Part) :
    partEntries part (observationOf item part.field) = partEntries part (collectField item part) := by
  cases part with
  | images =>
      simp only [Part.field, observationOf]
      split
      next none => rw [none]; rfl
      next => rfl
  | state | action | task => rfl

theorem observationOf_metadata (item : Item α) {field : FieldName} (member : field ∈ metadata) :
    observationOf item field = (item.get? field.name).getD .none := by
  revert member
  cases field <;> first | (intro _; rfl) | (intro member; exact absurd member (by decide))

theorem sample_restored_iff {item : Item α} (complete : ∀ field ∈ metadata, field.name ∈ item) :
    (∃ stored, convertObservationToLerobotDict (observationOf item) = some stored ∧
        ∀ key, stored.get? key = item.get? key) ↔ ∀ part : Part, part.Plain item := by
  obtain ⟨stored, converted, get⟩ := @get?_converted α (observationOf item) _ rfl
  -- Whatever no field claims goes through the extra field unchanged.
  have extra : ∀ key, lastWrite (item.items.filter fun entry => !reserved entry.1) key =
      if reserved key = true then none else item.get? key := by
    intro key
    split
    next taken =>
      rw [lastWrite_eq_none, List.mem_map]
      rintro ⟨entry, listed, same⟩
      have free := (List.mem_filter.mp listed).2
      rw [same, taken] at free
      cases free
    next free =>
      cases held : item.get? key with
      | none =>
          rw [lastWrite_eq_none, List.mem_map]
          rintro ⟨entry, listed, same⟩
          have there : item.get? entry.1 = some entry.2 := Dict.mem_items.mp (List.mem_of_mem_filter listed)
          rw [same, held] at there
          cases there
      | some value =>
          apply lastWrite_of_forall
          · refine List.mem_map.mpr ⟨(key, value), List.mem_filter.mpr ⟨Dict.mem_items.mpr held, ?_⟩, rfl⟩
            simpa using free
          · intro entry listed same
            have there : item.get? entry.1 = some entry.2 := Dict.mem_items.mp (List.mem_of_mem_filter listed)
            rw [same, held] at there
            exact (Option.some.inj there).symm
  have parts : ∀ {part : Part} {key : Text}, part.owns key = true →
      stored.get? key = lastWrite (partEntries part (collectField item part)) key := by
    intro part key owned
    rw [get, extra, if_pos (reserved_iff.mpr (Or.inr ⟨part, owned⟩)), lastWrite_stored_part _ owned, observationOf_part]
    rfl
  constructor
  · rintro ⟨again, same, kept⟩ part
    rw [converted] at same
    cases same
    apply plain_of_kept
    intro key owned
    rw [← parts owned]
    exact kept key
  · intro plain
    refine ⟨stored, converted, ?_⟩
    intro key
    by_cases taken : reserved key = true
    · rcases reserved_iff.mp taken with ⟨field, member, same⟩ | ⟨part, owned⟩
      · obtain ⟨value, held⟩ := Dict.mem_iff_get?.mp (complete field member)
        rw [get, extra, if_pos taken, ← same, lastWrite_stored_metadata _ member, observationOf_metadata item member, held]
        rfl
      · rw [parts owned]
        exact kept_of_plain (plain part) key owned
    · rw [get, extra, if_neg taken, lastWrite_stored_free _ (by simpa using taken), Option.or_none]

/-! ### An observation there and back -/

def Same (value other : Value α) : Prop :=
  value = other ∨ ∃ entries others, value = .dict entries ∧ other = .dict others ∧
    ∀ entry, entry ∈ entries ↔ entry ∈ others

def Holds (stored : Item α) (part : Part) (value : Value α) : Prop :=
  ∀ key, part.owns key = true → stored.get? key = lastWrite (partEntries part value) key

theorem collect_none {stored : Item α} {part : Part} (holds : Holds stored part .none) :
    collectField stored part = .none := by
  have absent : ∀ key, part.owns key = true → key ∉ stored := by
    intro key owned present
    obtain ⟨value, held⟩ := Dict.mem_iff_get?.mp present
    rw [holds key owned] at held
    cases held
  apply collectField_absent (absent _ (Part.owns_iff.mpr (Or.inl rfl)))
  intro key present pfx member starts
  exact absent key (Part.owns_iff.mpr (Or.inr ⟨pfx, member, starts⟩)) present

theorem collect_single {stored : Item α} {part : Part} {value : Value α} (holds : Holds stored part value)
    (there : value ≠ .none) (plain : part.subPrefix ≠ none → ∀ entries, value ≠ .dict entries) :
    collectField stored part = value := by
  have get : ∀ key, part.owns key = true → stored.get? key = if part.baseKey = key then some value else none := by
    intro key owned
    rw [holds key owned, partEntries_single there plain]
    simp [lastWrite_cons]
  obtain ⟨pfx, rest, prefixes⟩ : ∃ pfx rest, part.prefixes = pfx :: rest := by
    cases part <;> exact ⟨_, _, rfl⟩
  have member : pfx ∈ part.prefixes := by simp [prefixes]
  have unprefixed : ∀ key other, other ∈ part.prefixes → other <+: key → stored.get? key = none := by
    intro key other otherMember starts
    rw [get key (Part.owns_iff.mpr (Or.inr ⟨other, otherMember, starts⟩)), if_neg]
    intro same
    exact part.base_apart other otherMember (same ▸ starts)
  have only : OnlyPrefix stored part pfx := by
    intro key present other otherMember starts
    obtain ⟨x, held⟩ := Dict.mem_iff_get?.mp present
    rw [unprefixed key other otherMember starts] at held
    cases held
  apply collectField_single
  · rw [get?_collected member only, unprefixed _ pfx member ⟨_, rfl⟩, if_pos rfl,
      get _ (Part.owns_iff.mpr (Or.inl rfl)), if_pos rfl]
    rfl
  · intro sub apart
    rw [get?_collected member only, unprefixed _ pfx member ⟨_, rfl⟩, if_neg apart]
    rfl

theorem get?_collect_dict {stored : Item α} {part : Part} {pfx : Text} {entries : List (Text × Value α)}
    (sub : part.subPrefix = some pfx) (holds : Holds stored part (.dict entries)) (name : Text) :
    (collected stored part).get? name = lastWrite entries name := by
  have member := Part.subPrefix_mem sub
  have get : ∀ key, part.owns key = true →
      stored.get? key = lastWrite (entries.map fun entry => (pfx ++ entry.1, entry.2)) key := by
    intro key owned
    rw [holds key owned, partEntries_dict sub]
  have only : OnlyPrefix stored part pfx := by
    intro key present other otherMember starts
    have owned : part.owns key = true := Part.owns_iff.mpr (Or.inr ⟨other, otherMember, starts⟩)
    by_contra different
    have unmapped : ¬pfx <+: key := fun also => different (Part.prefix_unique otherMember member starts also)
    obtain ⟨x, held⟩ := Dict.mem_iff_get?.mp present
    rw [get key owned, lastWrite_unmapped _ unmapped] at held
    cases held
  have base : stored.get? part.baseKey = none := by
    rw [get _ (Part.owns_iff.mpr (Or.inl rfl)), lastWrite_unmapped _ (part.base_apart pfx member)]
  rw [get?_collected member only, base, ite_self, Option.or_none,
    get _ (Part.owns_iff.mpr (Or.inr ⟨pfx, member, name, rfl⟩)), lastWrite_mapped]

theorem collect_empty {stored : Item α} {part : Part} {pfx : Text} (sub : part.subPrefix = some pfx)
    (holds : Holds stored part (.dict [])) : collectField stored part = .none :=
  collectField_none fun name => get?_collect_dict sub holds name

theorem collect_base {stored : Item α} {part : Part} {pfx : Text} {value : Value α} (sub : part.subPrefix = some pfx)
    (holds : Holds stored part (.dict [(part.baseKey, value)])) : collectField stored part = value := by
  apply collectField_single
  · rw [get?_collect_dict sub holds]
    simp [lastWrite_cons]
  · intro name apart
    rw [get?_collect_dict sub holds]
    simp [lastWrite_cons, Ne.symm apart]

/-- Of entries with different names, one has another name than the base key, or the base key's is the only one. -/
theorem entries_cases (part : Part) {entries : List (Text × Value α)} (keyed : (entries.map Prod.fst).Nodup) :
    entries = [] ∨ (∃ value, entries = [(part.baseKey, value)]) ∨ ∃ entry ∈ entries, entry.1 ≠ part.baseKey := by
  cases entries with
  | nil => exact Or.inl rfl
  | cons first rest =>
      by_cases here : first.1 = part.baseKey
      · cases rest with
        | nil =>
            refine Or.inr (Or.inl ⟨first.2, ?_⟩)
            rw [← here]
        | cons second rest =>
            refine Or.inr (Or.inr ⟨second, by simp, ?_⟩)
            intro there
            simp [here, there] at keyed
      · exact Or.inr (Or.inr ⟨first, List.mem_cons_self, here⟩)

theorem collect_dict {stored : Item α} {part : Part} {pfx : Text} {entries : List (Text × Value α)}
    (sub : part.subPrefix = some pfx) (holds : Holds stored part (.dict entries))
    (keyed : (entries.map Prod.fst).Nodup) (named : ∃ entry ∈ entries, entry.1 ≠ part.baseKey) :
    ∃ others, collectField stored part = .dict others ∧ ∀ entry, entry ∈ entries ↔ entry ∈ others := by
  obtain ⟨entry, member, apart⟩ := named
  have held : (collected stored part).get? entry.1 = some entry.2 := by
    rw [get?_collect_dict sub holds]
    exact (lastWrite_eq_some_iff keyed).mpr member
  refine ⟨_, collectField_dict apart held, ?_⟩
  rintro ⟨name, value⟩
  rw [Dict.mem_items, get?_collect_dict sub holds, lastWrite_eq_some_iff keyed]

/-- What is neither an empty dictionary nor one whose only entry has the base key's name. -/
structure Distinct (part : Part) (value : Value α) : Prop where
  nonempty : part.subPrefix ≠ none → value ≠ .dict []
  named : part.subPrefix ≠ none → ∀ x, value ≠ .dict [(part.baseKey, x)]

theorem collect_cases {stored : Item α} {part : Part} {value : Value α} (holds : Holds stored part value)
    (keyed : ∀ entries, value = .dict entries → (entries.map Prod.fst).Nodup) :
    (Distinct part value ∧ Same value (collectField stored part) ∧ (collectField stored part = .none → value = .none)) ∨
      (value = .dict [] ∧ part.subPrefix ≠ none ∧ collectField stored part = .none) ∨
      ∃ x, value = .dict [(part.baseKey, x)] ∧ part.subPrefix ≠ none ∧ collectField stored part = x := by
  by_cases absent : value = .none
  · subst absent
    rw [collect_none holds]
    exact Or.inl ⟨⟨by simp, by simp⟩, Or.inl rfl, fun _ => rfl⟩
  · by_cases plain : part.subPrefix ≠ none → ∀ entries, value ≠ .dict entries
    · rw [collect_single holds absent plain]
      exact Or.inl ⟨⟨fun sub => plain sub [], fun sub x => plain sub _⟩, Or.inl rfl, id⟩
    · push Not at plain
      obtain ⟨stores, entries, dict⟩ := plain
      subst dict
      obtain ⟨pfx, sub⟩ := Option.ne_none_iff_exists'.mp stores
      -- An empty dict stores nothing, and one that holds the base name alone is read back bare.
      rcases entries_cases part (keyed entries rfl) with empty | ⟨x, base⟩ | named
      · subst empty
        exact Or.inr (Or.inl ⟨rfl, stores, collect_empty sub holds⟩)
      · subst base
        exact Or.inr (Or.inr ⟨x, rfl, stores, collect_base sub holds⟩)
      · obtain ⟨others, made, members⟩ := collect_dict sub holds (keyed entries rfl) named
        obtain ⟨entry, member, apart⟩ := named
        rw [made]
        refine Or.inl ⟨⟨fun _ same => ?_, fun _ x same => ?_⟩, Or.inr ⟨entries, others, rfl, rfl, members⟩,
          fun missing => by cases missing⟩
        · cases same
          cases member
        · cases same
          rw [List.mem_singleton.mp member] at apart
          exact apart rfl

theorem not_same_entry {key : Text} {value : Value α} : ¬Same (.dict [(key, value)]) value := by
  rintro (same | ⟨entries, others, own, inner, members⟩)
  · have member : (key, Value.dict [(key, value)]) ∈ [(key, value)] :=
      List.mem_singleton.mpr (congrArg (Prod.mk key) same)
    exact not_own_entry member
  · cases own
    have member : (key, value) ∈ others := (members _).mp List.mem_cons_self
    rw [inner] at member
    exact not_own_entry member

theorem not_same_none {entries : List (Text × Value α)} : ¬Same (.dict entries) .none := by
  rintro (same | ⟨_, _, _, other, _⟩)
  · cases same
  · cases other

theorem same_collected_iff {stored : Item α} {part : Part} {value : Value α} (holds : Holds stored part value)
    (keyed : ∀ entries, value = .dict entries → (entries.map Prod.fst).Nodup) :
    Same value (collectField stored part) ↔ Distinct part value := by
  rcases collect_cases holds keyed with ⟨distinct, same, -⟩ | ⟨empty, stores, none⟩ | ⟨x, base, stores, single⟩
  · exact iff_of_true same distinct
  · rw [none, empty]
    exact iff_of_false not_same_none fun distinct => distinct.nonempty stores rfl
  · rw [single, base]
    exact iff_of_false not_same_entry fun distinct => distinct.named stores x rfl

/-- Images that were not there are an empty dictionary afterwards. -/
theorem same_images_iff {stored : Item α} {value : Value α} (holds : Holds stored .images value)
    (keyed : ∀ entries, value = .dict entries → (entries.map Prod.fst).Nodup) :
    Same value (observationOf stored .images) ↔
      value ≠ .none ∧ ∀ x, value ≠ .dict [(Part.images.baseKey, x)] := by
  have images : collectField stored .images = .none → observationOf stored .images = .dict [] := by
    intro none
    rw [observationOf, none]
  have others : collectField stored .images ≠ .none →
      observationOf stored .images = collectField stored .images := by
    intro there
    rw [observationOf]
    split
    next none => exact absurd none there
    next => rfl
  -- The images have an edge of their own: what is collected as None comes back as an empty dict.
  rcases collect_cases holds keyed with ⟨distinct, same, onlyNone⟩ | ⟨empty, stores, none⟩ | ⟨x, base, stores, single⟩
  · by_cases missing : collectField stored .images = .none
    · have absent := onlyNone missing
      subst absent
      rw [images missing]
      refine iff_of_false ?_ fun there => there.1 rfl
      rintro (same | ⟨_, _, own, _, _⟩)
      · cases same
      · cases own
    · rw [others missing]
      refine iff_of_true same ⟨?_, fun x => distinct.named (by decide) x⟩
      intro absent
      subst absent
      exact missing (collect_none holds)
  · rw [images none, empty]
    exact iff_of_true (Or.inl rfl) ⟨by simp, by simp⟩
  · rw [base]
    refine iff_of_false ?_ fun there => there.2 x rfl
    by_cases missing : x = .none
    · rw [images (single.trans missing)]
      rintro (same | ⟨entries, empty, own, inner, members⟩)
      · cases same
      · cases own
        cases inner
        have member := (members _).mp List.mem_cons_self
        cases member
    · rw [others (by rw [single]; exact missing), single]
      exact not_same_entry

/-- The fields that have no place in LeRobot's naming. -/
def unnamed : List FieldName :=
  [.prevChunkLeftOver, .inferenceDelay, .maxGuidanceWeight, .executionHorizon, .nextReward, .nextSuccess, .info]

/-- The observation that a converted one is converted back to is the one it came from. -/
def RoundTrips (listed : α → Bool) (o : Observation α) : Prop :=
  ∃ stored decoded, toLerobotDict listed (.observation o.value) = some stored ∧
    toObservation (.dict stored) = .ok decoded ∧ ∀ field, Same (o.value field) (decoded field)

structure Representable (o : Observation α) : Prop where
  unnamed : ∀ field ∈ unnamed, o.value field = .none
  extra : ∃ entries, o.value .extra = .dict entries ∧ ∀ entry ∈ entries, reserved entry.1 = false
  images : o.value .images ≠ .none ∧ ∀ x, o.value .images ≠ .dict [(Part.images.baseKey, x)]
  action : Distinct .action (o.value .action)
  task : Distinct .task (o.value .task)
  observed : partEntries .images (o.value .images) ≠ [] ∨ partEntries .state (o.value .state) ≠ [] ∨
    ∃ entries, o.value .extra = .dict entries ∧ ∃ entry ∈ entries, "observation".toList <+: entry.1
  acted : partEntries .action (o.value .action) ≠ [] ∨
    ∃ entries, o.value .extra = .dict entries ∧ ∃ entry ∈ entries, "action".toList <+: entry.1

theorem mem_converted {stored : Item α} {value : FieldName → Value α} {extra : List (Text × Value α)}
    (get : ∀ key, stored.get? key = (lastWrite extra key).or (lastWrite (storedEntries value) key)) (key : Text) :
    key ∈ stored ↔ key ∈ extra.map Prod.fst ∨ key ∈ (storedEntries value).map Prod.fst := by
  constructor
  · intro present
    obtain ⟨x, held⟩ := Dict.mem_iff_get?.mp present
    rw [get, Option.or_eq_some_iff] at held
    rcases held with own | ⟨-, kept⟩
    · exact Or.inl (List.mem_map.mpr ⟨_, mem_of_lastWrite own, rfl⟩)
    · exact Or.inr (List.mem_map.mpr ⟨_, mem_of_lastWrite kept, rfl⟩)
  · intro written
    by_contra absent
    have nothing := get?_eq_none absent
    rw [get, Option.or_eq_none_iff, lastWrite_eq_none, lastWrite_eq_none] at nothing
    rcases written with own | kept
    · exact nothing.1 own
    · exact nothing.2 kept

theorem exists_key_iff {stored : Item α} {value : FieldName → Value α} {extra : List (Text × Value α)}
    (get : ∀ key, stored.get? key = (lastWrite extra key).or (lastWrite (storedEntries value) key)) (kind : Text)
    (named : ∀ field ∈ metadata, ¬kind <+: field.name) :
    (∃ key ∈ stored, kind <+: key) ↔
      (∃ part : Part, ∃ entry ∈ partEntries part (value part.field), kind <+: entry.1) ∨
        ∃ entry ∈ extra, kind <+: entry.1 := by
  -- A stored entry comes from one of the four parts or from the metadata.
  have split : ∀ entry, entry ∈ storedEntries value ↔
      (∃ part : Part, entry ∈ partEntries part (value part.field)) ∨ entry ∈ metadataEntries value := by
    intro entry
    simp only [storedEntries, List.mem_append]
    constructor
    · rintro ((((images | state) | action) | task) | meta_)
      · exact Or.inl ⟨.images, images⟩
      · exact Or.inl ⟨.state, state⟩
      · exact Or.inl ⟨.action, action⟩
      · exact Or.inl ⟨.task, task⟩
      · exact Or.inr meta_
    · rintro (⟨part, member⟩ | meta_)
      · cases part with
        | images => exact Or.inl (Or.inl (Or.inl (Or.inl member)))
        | state => exact Or.inl (Or.inl (Or.inl (Or.inr member)))
        | action => exact Or.inl (Or.inl (Or.inr member))
        | task => exact Or.inl (Or.inr member)
      · exact Or.inr meta_
  constructor
  · rintro ⟨key, present, starts⟩
    rcases (mem_converted get key).mp present with own | kept
    · obtain ⟨entry, member, same⟩ := List.mem_map.mp own
      exact Or.inr ⟨entry, member, same ▸ starts⟩
    · obtain ⟨entry, member, same⟩ := List.mem_map.mp kept
      rcases (split entry).mp member with ⟨part, inPart⟩ | inMetadata
      · exact Or.inl ⟨part, entry, inPart, same ▸ starts⟩
      · obtain ⟨field, listed, made⟩ := List.mem_map.mp inMetadata
        subst made
        subst same
        exact absurd starts (named field listed)
  · rintro (⟨part, entry, member, starts⟩ | ⟨entry, member, starts⟩)
    · refine ⟨entry.1, (mem_converted get _).mpr (Or.inr (List.mem_map.mpr ⟨entry, ?_, rfl⟩)), starts⟩
      exact (split entry).mpr (Or.inl ⟨part, member⟩)
    · exact ⟨entry.1, (mem_converted get _).mpr (Or.inl (List.mem_map.mpr ⟨entry, member, rfl⟩)), starts⟩

theorem exists_entry_iff (part : Part) (value : Value α) {kind : Text} (starts : kind <+: part.stem) :
    (∃ entry ∈ partEntries part value, kind <+: entry.1) ↔ partEntries part value ≠ [] := by
  constructor
  · rintro ⟨entry, member, -⟩ empty
    rw [empty] at member
    cases member
  · intro nonempty
    obtain ⟨entry, member⟩ := List.exists_mem_of_ne_nil _ nonempty
    exact ⟨entry, member, starts.trans (Part.stem_of_owns (partEntries_owned member))⟩

theorem no_entry (part : Part) (value : Value α) {kind : Text} (apart : ¬kind <+: part.stem)
    (longer : ¬part.stem <+: kind) : ¬∃ entry ∈ partEntries part value, kind <+: entry.1 := by
  rintro ⟨entry, member, starts⟩
  rcases List.prefix_or_prefix_of_prefix starts (Part.stem_of_owns (partEntries_owned member)) with short | long
  · exact apart short
  · exact longer long

theorem observed_iff {stored : Item α} {value : FieldName → Value α} {extra : List (Text × Value α)}
    (get : ∀ key, stored.get? key = (lastWrite extra key).or (lastWrite (storedEntries value) key)) :
    (∃ key ∈ stored, "observation".toList <+: key) ↔
      partEntries .images (value .images) ≠ [] ∨ partEntries .state (value .state) ≠ [] ∨
        ∃ entry ∈ extra, "observation".toList <+: entry.1 := by
  rw [exists_key_iff get _ (by decide)]
  constructor
  · rintro (⟨part, own⟩ | other)
    · cases part with
      | images => exact Or.inl ((exists_entry_iff .images _ (by decide)).mp own)
      | state => exact Or.inr (Or.inl ((exists_entry_iff .state _ (by decide)).mp own))
      | action => exact absurd own (no_entry .action _ (by decide) (by decide))
      | task => exact absurd own (no_entry .task _ (by decide) (by decide))
    · exact Or.inr (Or.inr other)
  · rintro (images | state | other)
    · exact Or.inl ⟨.images, (exists_entry_iff .images _ (by decide)).mpr images⟩
    · exact Or.inl ⟨.state, (exists_entry_iff .state _ (by decide)).mpr state⟩
    · exact Or.inr other

theorem acted_iff {stored : Item α} {value : FieldName → Value α} {extra : List (Text × Value α)}
    (get : ∀ key, stored.get? key = (lastWrite extra key).or (lastWrite (storedEntries value) key)) :
    (∃ key ∈ stored, "action".toList <+: key) ↔
      partEntries .action (value .action) ≠ [] ∨ ∃ entry ∈ extra, "action".toList <+: entry.1 := by
  rw [exists_key_iff get _ (by decide)]
  constructor
  · rintro (⟨part, own⟩ | other)
    · cases part with
      | images => exact absurd own (no_entry .images _ (by decide) (by decide))
      | state => exact absurd own (no_entry .state _ (by decide) (by decide))
      | action => exact Or.inl ((exists_entry_iff .action _ (by decide)).mp own)
      | task => exact absurd own (no_entry .task _ (by decide) (by decide))
    · exact Or.inr other
  · rintro (action | other)
    · exact Or.inl ⟨.action, (exists_entry_iff .action _ (by decide)).mpr action⟩
    · exact Or.inr other

theorem converted_ok_iff {item : Item α} (complete : ∀ field ∈ metadata, field.name ∈ item)
    {decoded : FieldName → Value α} :
    convertLerobotDictToObservation item = .ok decoded ↔
      decoded = observationOf item ∧ (∃ key ∈ item, "observation".toList <+: key) ∧
        ∃ key ∈ item, "action".toList <+: key := by
  have found : (metadata.find? fun field => decide (field.name ∉ item)) = none := by
    rw [List.find?_eq_none]
    intro field member
    simpa using complete field member
  have kind : ∀ start : Text, (item.keys.any fun key => decide (start <+: key)) = true ↔ ∃ key ∈ item, start <+: key := by
    intro start
    simp only [List.any_eq_true, decide_eq_true_eq]
    rfl
  unfold convertLerobotDictToObservation
  rw [found]
  simp only
  by_cases observed : ∃ key ∈ item, "observation".toList <+: key
  · by_cases acted : ∃ key ∈ item, "action".toList <+: key
    · rw [(kind _).mpr observed, (kind _).mpr acted]
      simp only [Bool.not_true, Bool.false_eq_true, if_false, Except.ok.injEq]
      constructor
      · intro same
        exact ⟨same.symm, observed, acted⟩
      · intro same
        exact same.1.symm
    · have absent := Bool.eq_false_iff.mpr fun held => acted ((kind _).mp held)
      rw [(kind _).mpr observed, absent]
      refine iff_of_false ?_ fun same => acted same.2.2
      intro same
      cases same
  · have absent := Bool.eq_false_iff.mpr fun held => observed ((kind _).mp held)
    rw [absent]
    refine iff_of_false ?_ fun same => observed same.2.1
    intro same
    cases same

theorem metadata_kept {stored : Item α} {value : FieldName → Value α} {extra : List (Text × Value α)}
    (get : ∀ key, stored.get? key = (lastWrite extra key).or (lastWrite (storedEntries value) key)) :
    ∀ field ∈ metadata, field.name ∈ stored := by
  intro field member
  refine (mem_converted get _).mpr (Or.inr ?_)
  exact List.mem_map.mpr ⟨_, mem_of_lastWrite (lastWrite_stored_metadata value member), rfl⟩

/-- What is read back as extra fields are the ones that have no place elsewhere. -/
theorem mem_extra_iff {stored : Item α} {value : FieldName → Value α} {extra : List (Text × Value α)}
    (get : ∀ key, stored.get? key = (lastWrite extra key).or (lastWrite (storedEntries value) key))
    (keyed : (extra.map Prod.fst).Nodup) (entry : Text × Value α) :
    entry ∈ (stored.items.filter fun entry => !reserved entry.1) ↔ entry ∈ extra ∧ reserved entry.1 = false := by
  rw [List.mem_filter, Bool.not_eq_true']
  constructor
  · intro held
    have there : stored.get? entry.1 = some entry.2 := Dict.mem_items.mp held.1
    rw [get, lastWrite_stored_free _ held.2, Option.or_none, lastWrite_eq_some_iff keyed] at there
    exact ⟨there, held.2⟩
  · intro held
    refine ⟨Dict.mem_items.mpr ?_, held.2⟩
    rw [get, lastWrite_stored_free _ held.2, Option.or_none, lastWrite_eq_some_iff keyed]
    exact held.1

theorem unnamed_none (item : Item α) : ∀ field ∈ unnamed, observationOf item field = .none := by
  intro field member
  simp only [unnamed, List.mem_cons, List.not_mem_nil, or_false] at member
  rcases member with same | same | same | same | same | same | same <;> subst same <;> rfl

theorem extraEntries_eq_some {value : Value α} {extra : List (Text × Value α)} :
    extraEntries value = some extra ↔ (value = .none ∧ extra = []) ∨ value = .dict extra := by
  cases value <;> simp [extraEntries, eq_comm]

theorem free_of_unreserved {extra : List (Text × Value α)} (free : ∀ entry ∈ extra, reserved entry.1 = false)
    {key : Text} (taken : reserved key = true) : lastWrite extra key = none := by
  rw [lastWrite_eq_none, List.mem_map]
  rintro ⟨entry, member, same⟩
  have unreserved := free entry member
  rw [same, taken] at unreserved
  cases unreserved

theorem holds_of_free {stored : Item α} {value : FieldName → Value α} {extra : List (Text × Value α)}
    (get : ∀ key, stored.get? key = (lastWrite extra key).or (lastWrite (storedEntries value) key))
    (free : ∀ entry ∈ extra, reserved entry.1 = false) (part : Part) : Holds stored part (value part.field) := by
  intro key owned
  rw [get, free_of_unreserved free (reserved_iff.mpr (Or.inr ⟨part, owned⟩)), lastWrite_stored_part value owned]
  rfl

theorem distinct_state (value : Value α) : Distinct .state value :=
  ⟨fun stores => absurd rfl stores, fun stores => absurd rfl stores⟩

theorem round_trips_iff (listed : α → Bool) (o : Observation α) : RoundTrips listed o ↔ Representable o := by
  constructor
  · rintro ⟨stored, decoded, converted, accepted, same⟩
    have given : ∃ extra, extraEntries (o.value .extra) = some extra := by
      obtain ⟨extra, given, -⟩ := Option.map_eq_some_iff.mp converted
      exact ⟨extra, given⟩
    obtain ⟨extra, given⟩ := given
    obtain ⟨again, made, get⟩ := get?_converted given
    have unique : again = stored := Option.some.inj (made.symm.trans converted)
    subst unique
    have complete := metadata_kept get
    obtain ⟨decoding, observed, acted⟩ := (converted_ok_iff complete).mp accepted
    subst decoding
    have dict : o.value .extra = .dict extra := by
      rcases extraEntries_eq_some.mp given with ⟨none, -⟩ | dict
      · have extraSame := same .extra
        rw [none] at extraSame
        rcases extraSame with equal | ⟨_, _, own, _, _⟩
        · cases equal
        · cases own
      · exact dict
    -- An extra entry under a reserved name is read into the field of that name and missing from the extra dict.
    have free : ∀ entry ∈ extra, reserved entry.1 = false := by
      have extraSame := same .extra
      rw [dict] at extraSame
      intro entry member
      rcases extraSame with equal | ⟨entries, others, own, other, members⟩
      · rw [observationOf] at equal
        rw [Value.dict.inj equal] at member
        exact ((mem_extra_iff get (o.keyed .extra extra dict) entry).mp member).2
      · cases own
        rw [observationOf] at other
        rw [← Value.dict.inj other] at members
        exact ((mem_extra_iff get (o.keyed .extra extra dict) entry).mp ((members entry).mp member)).2
    have holds := holds_of_free get free
    refine ⟨?_, ⟨extra, dict, free⟩, (same_images_iff (holds .images) (o.keyed .images)).mp (same .images),
      (same_collected_iff (holds .action) (o.keyed .action)).mp (same .action),
      (same_collected_iff (holds .task) (o.keyed .task)).mp (same .task), ?_, ?_⟩
    · intro field member
      have fieldSame := same field
      rw [unnamed_none again field member] at fieldSame
      rcases fieldSame with equal | ⟨_, _, _, other, _⟩
      · exact equal
      · cases other
    · rcases (observed_iff get).mp observed with images | state | other
      · exact Or.inl images
      · exact Or.inr (Or.inl state)
      · exact Or.inr (Or.inr ⟨extra, dict, other⟩)
    · rcases (acted_iff get).mp acted with action | other
      · exact Or.inl action
      · exact Or.inr ⟨extra, dict, other⟩
  · intro fits
    obtain ⟨extra, dict, free⟩ := fits.extra
    obtain ⟨stored, made, get⟩ := get?_converted (extraEntries_eq_some.mpr (Or.inr dict))
    have complete := metadata_kept get
    have holds := holds_of_free get free
    refine ⟨stored, observationOf stored, made, (converted_ok_iff complete).mpr ⟨rfl, (observed_iff get).mpr ?_,
      (acted_iff get).mpr ?_⟩, ?_⟩
    · rcases fits.observed with images | state | ⟨entries, own, other⟩
      · exact Or.inl images
      · exact Or.inr (Or.inl state)
      · rw [dict] at own
        cases own
        exact Or.inr (Or.inr other)
    · rcases fits.acted with action | ⟨entries, own, other⟩
      · exact Or.inl action
      · rw [dict] at own
        cases own
        exact Or.inr other
    · intro field
      -- The metadata fields come back by name, those without a stored name only as None, the parts by their lemmas.
      by_cases named : field ∈ metadata
      · refine Or.inl ?_
        have taken : reserved field.name = true := reserved_iff.mpr (Or.inl ⟨field, named, rfl⟩)
        rw [observationOf_metadata stored named, get, free_of_unreserved free taken, lastWrite_stored_metadata _ named]
        rfl
      · by_cases without : field ∈ unnamed
        · rw [unnamed_none stored field without, fits.unnamed field without]
          exact Or.inl rfl
        · cases field with
          | images => exact (same_images_iff (holds .images) (o.keyed .images)).mpr fits.images
          | state => exact (same_collected_iff (holds .state) (o.keyed .state)).mpr (distinct_state _)
          | action => exact (same_collected_iff (holds .action) (o.keyed .action)).mpr fits.action
          | task => exact (same_collected_iff (holds .task) (o.keyed .task)).mpr fits.task
          | extra =>
              refine Or.inr ⟨extra, _, dict, rfl, ?_⟩
              intro entry
              rw [mem_extra_iff get (o.keyed .extra extra dict)]
              exact ⟨fun member => ⟨member, free entry member⟩, fun held => held.1⟩
          | _ => first | exact absurd (by decide) named | exact absurd (by decide) without

/-! ### The two ways of a batch -/

/-- The nested dictionary is flattened to what the observation is converted to. -/
def PathsAgree (listed : α → Bool) (o : Observation α) : Prop :=
  ∃ flat stored, toLerobotDict listed (.dict (nestedDict o.value)) = some flat ∧
    toLerobotDict listed (.observation o.value) = some stored ∧ ∀ key, flat.get? key = stored.get? key

structure Flattens (listed : α → Bool) (o : Observation α) : Prop where
  extra : o.value .extra = .none ∨ ∃ entries, o.value .extra = .dict entries
  task : isList listed (o.value .task) = true →
    ∃ entries, o.value .extra = .dict entries ∧ Part.task.baseKey ∈ entries.map Prod.fst

def taskEntries (listed : α → Bool) (value : Value α) : List (Text × Value α) :=
  if isList listed value then [] else partEntries .task value

def nestedField (listed : α → Bool) (value : FieldName → Value α) : FieldName → List (Text × Value α)
  | .images => partEntries .images (value .images)
  | .state => partEntries .state (value .state)
  | .action => partEntries .action (value .action)
  | .task => taskEntries listed (value .task)
  | .extra => (extraEntries (value .extra)).getD []
  | .episodeIndex => [(FieldName.episodeIndex.name, value .episodeIndex)]
  | .frameIndex => [(FieldName.frameIndex.name, value .frameIndex)]
  | .index => [(FieldName.index.name, value .index)]
  | .taskIndex => [(FieldName.taskIndex.name, value .taskIndex)]
  | .timestamp => [(FieldName.timestamp.name, value .timestamp)]
  | _ => []

theorem flattenCollatedField_name (listed : α → Bool) (value : FieldName → Value α) (field : FieldName) :
    flattenCollatedField listed field.name (value field) = nestedField listed value field := by
  unfold flattenCollatedField
  rw [FieldName.ofName_name]
  cases field with
  | extra =>
      simp only [nestedField]
      cases value .extra <;> rfl
  | _ => rfl

theorem nestedDict_items (value : FieldName → Value α) :
    (nestedDict value).items = FieldName.all.map fun field => (field.name, value field) := by
  have nodup : ((FieldName.all.map fun field => (field.name, value field)).map Prod.fst).Nodup := by
    rw [List.map_map]
    exact FieldName.all_nodup.map FieldName.name_injective
  exact Dict.items_setAll (fun _ _ present => absurd present (AList.notMem_empty _)) nodup

theorem nestedDict_flat (listed : α → Bool) (value : FieldName → Value α) :
    ((nestedDict value).items.flatMap fun entry => flattenCollatedField listed entry.1 entry.2) =
      FieldName.all.flatMap (nestedField listed value) := by
  rw [nestedDict_items, List.flatMap_map]
  congr 1
  funext field
  exact flattenCollatedField_name listed value field

theorem nested_entries (listed : α → Bool) (value : FieldName → Value α) :
    FieldName.all.flatMap (nestedField listed value) =
      partEntries .action (value .action) ++ taskEntries listed (value .task) ++ partEntries .state (value .state) ++
        partEntries .images (value .images) ++ metadataEntries value ++ (extraEntries (value .extra)).getD [] := by
  simp only [FieldName.all, metadataEntries, metadata, List.flatMap_cons, List.flatMap_nil, List.map_cons,
    List.map_nil, nestedField, List.nil_append, List.append_nil, List.append_assoc, List.cons_append]

theorem mem_of_keys {item : Item α} {key : Text} (present : key ∈ item.keys) : key ∈ item :=
  AList.mem_keys.mp present

/-- A nested dictionary is told from one in LeRobot's naming. -/
theorem toLerobotDict_nested (listed : α → Bool) (value : FieldName → Value α) :
    toLerobotDict listed (.dict (nestedDict value)) = some (flattenCollatedDictToLerobot listed (nestedDict value)) := by
  have keys : (nestedDict value).keys = FieldName.all.map FieldName.name := by
    rw [← Dict.items_keys, nestedDict_items, List.map_map]
    rfl
  have plain : ((nestedDict value).keys.any fun key => decide ("observation.".toList <+: key)) = false := by
    rw [keys]
    decide
  have images : FieldName.images.name ∈ nestedDict value := by
    have present : FieldName.images.name ∈ (nestedDict value).keys := by
      rw [keys]
      exact List.mem_map_of_mem (FieldName.mem_all _)
    exact mem_of_keys present
  have spelled : FieldName.images.name = "images".toList := rfl
  rw [spelled] at images
  rw [toLerobotDict, plain, if_neg Bool.false_ne_true, if_pos (Or.inl images)]

/-- A list-valued task is left out; all else is written as in the conversion. -/
theorem get?_flattened (listed : α → Bool) {value : FieldName → Value α} {extra : List (Text × Value α)}
    (given : extraEntries (value .extra) = some extra) (key : Text) :
    (flattenCollatedDictToLerobot listed (nestedDict value)).get? key = (lastWrite extra key).or
      (if Part.task.owns key = true then lastWrite (taskEntries listed (value .task)) key
        else lastWrite (storedEntries value) key) := by
  have tasks : ¬Part.task.owns key = true → lastWrite (taskEntries listed (value .task)) key = none := by
    intro unowned
    rw [taskEntries]
    split
    · rfl
    · exact lastWrite_other_part unowned
  rw [flattenCollatedDictToLerobot, Dict.get?_setAll, Dict.get?_empty, Option.or_none, nestedDict_flat, nested_entries,
    given, Option.getD_some, lastWrite_append]
  congr 1
  -- A reserved key is written by exactly one field; any other only by the extra dict.
  by_cases taken : reserved key = true
  · rcases reserved_iff.mp taken with ⟨field, member, same⟩ | ⟨part, owned⟩
    · -- A metadata field is written after the parts in both.
      subst same
      have unowned : ¬Part.task.owns field.name = true := by
        rw [Part.task.metadata_not_owned field member]
        exact Bool.false_ne_true
      rw [if_neg unowned, lastWrite_stored_metadata value member, lastWrite_append, lastWrite_metadata value member]
      rfl
    · have named : lastWrite (metadataEntries value) key = none := metadata_none_of_owned owned
      have other : ∀ second : Part, second ≠ part → ∀ x : Value α, lastWrite (partEntries second x) key = none :=
        fun second apart x => lastWrite_other_part fun also => apart (Part.owns_unique also owned)
      have others : part ≠ .task → ¬Part.task.owns key = true := fun apart also =>
        apart (Part.owns_unique owned also)
      rw [lastWrite_stored_part value owned]
      simp only [lastWrite_append, named, Option.none_or]
      cases part with
      | images =>
          rw [if_neg (others (by decide)), tasks (others (by decide)), other .state (by decide), other .action (by decide)]
          simp [Part.field]
      | state =>
          rw [if_neg (others (by decide)), tasks (others (by decide)), other .images (by decide),
            other .action (by decide)]
          simp [Part.field]
      | action =>
          rw [if_neg (others (by decide)), tasks (others (by decide)), other .images (by decide), other .state (by decide)]
          simp [Part.field]
      | task =>
          rw [if_pos owned, other .images (by decide), other .state (by decide), other .action (by decide)]
          simp
  · have free : reserved key = false := Bool.eq_false_iff.mpr taken
    have unowned : ∀ part : Part, ¬part.owns key = true := fun part owned =>
      taken (reserved_iff.mpr (Or.inr ⟨part, owned⟩))
    have unnamed : lastWrite (metadataEntries value) key = none :=
      lastWrite_metadata_none fun field member same => taken (reserved_iff.mpr (Or.inl ⟨field, member, same⟩))
    rw [if_neg (unowned .task), lastWrite_stored_free value free]
    simp only [lastWrite_append, unnamed, tasks (unowned .task), lastWrite_other_part (unowned _), Option.or_none]

theorem isList_entries {listed : α → Bool} {value : Value α} (held : isList listed value = true) :
    partEntries .task value = [(Part.task.baseKey, value)] := by
  cases value with
  | none => cases held
  | plain x => rfl
  | keys names => rfl
  | dict entries => cases held

/-- Both ways are defined where the extra fields are, and part over a list-valued task only. -/
theorem paths_agree_given {listed : α → Bool} {o : Observation α} {extra : List (Text × Value α)}
    (given : extraEntries (o.value .extra) = some extra) :
    PathsAgree listed o ↔ (isList listed (o.value .task) = true → Part.task.baseKey ∈ extra.map Prod.fst) := by
  obtain ⟨stored, storedMade, storedGet⟩ := get?_converted given
  have flatGet := get?_flattened listed given
  constructor
  · intro agree long
    obtain ⟨flat, other, flatMade, otherMade, same⟩ := agree
    rw [toLerobotDict_nested] at flatMade
    have otherSame : stored = other := Option.some.inj (storedMade.symm.trans otherMade)
    have flatSame := Option.some.inj flatMade
    subst otherSame
    subst flatSame
    have owned : Part.task.owns Part.task.baseKey = true := Part.owns_iff.mpr (Or.inl rfl)
    have atTask := same Part.task.baseKey
    rw [flatGet, storedGet, if_pos owned, taskEntries, if_pos long, lastWrite_stored_part _ owned, Part.field,
      isList_entries long] at atTask
    -- A list of tasks is written by one path alone, unless the extra dict has the key itself.
    by_contra absent
    rw [lastWrite_eq_none.mpr absent] at atTask
    simp [lastWrite_cons] at atTask
  · intro given
    refine ⟨_, stored, toLerobotDict_nested listed o.value, storedMade, ?_⟩
    intro key
    rw [flatGet, storedGet]
    by_cases owned : Part.task.owns key = true
    · rw [if_pos owned, lastWrite_stored_part _ owned, Part.field, taskEntries]
      by_cases long : isList listed (o.value .task) = true
      · rw [if_pos long, isList_entries long]
        by_cases base : key = Part.task.baseKey
        · subst base
          obtain ⟨x, held⟩ := Option.ne_none_iff_exists'.mp fun absent => lastWrite_eq_none.mp absent (given long)
          rw [held]
          rfl
        · have apart : Part.task.baseKey ≠ key := fun same => base same.symm
          simp [lastWrite_cons, apart]
      · rw [if_neg long]
    · rw [if_neg owned]

theorem paths_agree_iff (listed : α → Bool) (o : Observation α) : PathsAgree listed o ↔ Flattens listed o := by
  constructor
  · intro agree
    have given : ∃ extra, extraEntries (o.value .extra) = some extra := by
      obtain ⟨-, stored, -, made, -⟩ := agree
      obtain ⟨extra, given, -⟩ := Option.map_eq_some_iff.mp made
      exact ⟨extra, given⟩
    obtain ⟨extra, given⟩ := given
    have task := (paths_agree_given given).mp agree
    rcases extraEntries_eq_some.mp given with ⟨none, empty⟩ | dict
    · refine ⟨Or.inl none, ?_⟩
      intro long
      have listedTask := task long
      rw [empty] at listedTask
      cases listedTask
    · exact ⟨Or.inr ⟨extra, dict⟩, fun long => ⟨extra, dict, task long⟩⟩
  · intro fits
    rcases fits.extra with none | ⟨extra, dict⟩
    · refine (paths_agree_given (extraEntries_eq_some.mpr (Or.inl ⟨none, rfl⟩))).mpr ?_
      intro long
      obtain ⟨entries, own, -⟩ := fits.task long
      rw [none] at own
      cases own
    · refine (paths_agree_given (extraEntries_eq_some.mpr (Or.inr dict))).mpr ?_
      intro long
      obtain ⟨entries, own, member⟩ := fits.task long
      rw [dict] at own
      cases own
      exact member

/-- When samples, observations and batches keep everything on the way. -/
theorem formats_agree_iff {item : Item α} {decoded : FieldName → Value α}
    (accepted : toObservation (.dict item) = .ok decoded) (listed : α → Bool) (o : Observation α) :
    ((∃ stored, toLerobotDict listed (.observation decoded) = some stored ∧
        ∀ key, stored.get? key = item.get? key) ↔ ∀ part : Part, part.Plain item) ∧
      (RoundTrips listed o ↔ Representable o) ∧ (PathsAgree listed o ↔ Flattens listed o) := by
  obtain ⟨decoding, complete⟩ := converted_ok accepted
  rw [decoding]
  exact ⟨sample_restored_iff complete, round_trips_iff listed o, paths_agree_iff listed o⟩

def plainSample : Item Nat :=
  (∅ : Item Nat).setAll
    ([("observation.images.top".toList, .plain 0), ("action".toList, .plain 1)] ++
      metadata.map fun field => (field.name, .plain 2))

def namedStateSample : Item Nat :=
  (∅ : Item Nat).setAll
    ([("observation.state.arm".toList, .plain 0), ("action".toList, .plain 1)] ++
      metadata.map fun field => (field.name, .plain 2))

def plainObservation : Observation Nat where
  value := fun
    | .action => .plain 1
    | .images => .dict [("top".toList, .plain 0)]
    | .extra => .dict []
    | .task => .plain 3
    | _ => .none
  keyed := by
    intro field entries held
    cases field <;> cases held <;> decide

theorem plain_formats_agree :
    ((∃ stored, toLerobotDict (fun _ => false) (.observation (observationOf plainSample)) = some stored ∧
        ∀ key, stored.get? key = plainSample.get? key) ↔ ∀ part : Part, part.Plain plainSample) ∧
      (RoundTrips (fun _ => false) plainObservation ↔ Representable plainObservation) ∧
      (PathsAgree (fun _ => false) plainObservation ↔ Flattens (fun _ => false) plainObservation) := by
  have accepted : toObservation (.dict plainSample) = .ok (observationOf plainSample) := by rfl
  exact formats_agree_iff accepted (fun _ => false) plainObservation

theorem named_state_nested : ∃ decoded, toObservation (.dict namedStateSample) = .ok decoded ∧
    ¬∃ stored, toLerobotDict (fun _ => false) (.observation decoded) = some stored ∧
      ∀ key, stored.get? key = namedStateSample.get? key := by
  refine ⟨observationOf namedStateSample, rfl, ?_⟩
  rintro ⟨stored, made, same⟩
  have missing : stored.get? "observation.state.arm".toList = none := by
    cases Option.some.inj made
    rfl
  rw [same] at missing
  cases missing

end PhysicalAiStudio.Observations.LeRobot
