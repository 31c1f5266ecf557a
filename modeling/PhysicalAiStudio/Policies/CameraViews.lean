import PhysicalAiStudio.Collections.Dict
import PhysicalAiStudio.Strings.Text
import Mathlib.Data.List.Infix
import Mathlib.Data.List.Perm.Basic

/-! Which camera is which view of a composed image: `_identify_t_views` of
`policies/cosmos3/preprocessor.py`.

The lower case of a text is a parameter: nothing is relied on but that it is a function.
-/

set_option autoImplicit false

namespace PhysicalAiStudio.Policies.CameraViews
open Collections Strings

variable (lower : Text → Text)

def within (part : String) (text : Text) : Bool := decide (part.toList <:+: text)

/-! ### The searches -/

def isTop (k : Text) : Bool :=
  let kl := lower k
  within "wrist" kl || decide (kl ∈ ["top".toList, "head".toList, "primary".toList, "front".toList])

def findTopCamera (keys : List Text) : Option Text :=
  match keys.find? (isTop lower) with
  | some k => some k
  | none => keys.find? fun k => within "top" (lower k) || within "head" (lower k)

def isFirstExterior (k : Text) : Bool :=
  let kl := lower k
  within "exterior_1" kl || within "exterior_image_1" kl || within "ext1" kl

def isSecondExterior (k : Text) : Bool :=
  let kl := lower k
  within "exterior_2" kl || within "exterior_image_2" kl || within "ext2" kl

def isLeft (k : Text) : Bool :=
  let kl := lower k
  within "left" kl && !within "wrist" kl && !within "exterior_2" kl && !within "ext2" kl

def isRight (k : Text) : Bool :=
  let kl := lower k
  within "right" kl && !within "wrist" kl

def findLeftCamera (keys : List Text) : Option Text :=
  keys.find? fun k => isFirstExterior lower k || isLeft lower k

def findRightCamera (keys : List Text) : Option Text :=
  keys.find? fun k => isSecondExterior lower k || isRight lower k

/-! ### The views -/

/-- `key or (unused.pop(0) if unused else fallback)`, with the keys that are still unused. -/
def resolve (key : Option Text) (unused : List Text) (fallback : Option Text) : Option (Text × List Text) :=
  match key, unused with
  | some (c :: rest), _ => some (c :: rest, unused)
  | _, first :: others => some (first, others)
  | _, [] => fallback.map fun k => (k, [])

def identifyTKeys (keys : List Text) : Option (Text × Text × Text) := do
  let topKey := findTopCamera lower keys
  let remainingForLeft := keys.filter fun k => some k ≠ topKey
  let leftKey := findLeftCamera lower remainingForLeft
  let remainingForRight := remainingForLeft.filter fun k => some k ≠ leftKey
  let rightKey := findRightCamera lower remainingForRight
  let unused := keys.filter fun k => some k ≠ topKey ∧ some k ≠ leftKey ∧ some k ≠ rightKey
  let (resolvedTop, unused) ← resolve topKey unused keys[0]?
  let (resolvedLeft, unused) ← resolve leftKey unused (some (keys[1]?.getD resolvedTop))
  let (resolvedRight, _) ← resolve rightKey unused (some (keys[2]?.getD resolvedLeft))
  return (resolvedTop, resolvedLeft, resolvedRight)

/-- The images of the three views; there are none where an index or a key is not found. -/
def identifyTViews {Image : Type} (cameras : Dict Text Image) : Option (Image × Image × Image) := do
  let (top, left, right) ← identifyTKeys lower cameras.keys
  return (← cameras.get? top, ← cameras.get? left, ← cameras.get? right)

/-! ### Names with roles -/

/-- Of the names of the cameras, one is a top view, one a first and one a second exterior view. -/
structure Roles (names : List Text) (top first second : Text) : Prop where
  top_mem : top ∈ names
  first_mem : first ∈ names
  second_mem : second ∈ names
  top_only : ∀ k ∈ names, isTop lower k = true ↔ k = top
  first_only : ∀ k ∈ names, isFirstExterior lower k = true ↔ k = first
  second_only : ∀ k ∈ names, isSecondExterior lower k = true ↔ k = second

/-- The three views are of three cameras, whatever the images and the order of the cameras are. -/
def Identifies (names : List Text) (top first second : Text) : Prop :=
  (top ≠ first ∧ top ≠ second ∧ first ≠ second) ∧
    ∀ (Image : Type) (cameras : Dict Text Image), cameras.keys.Perm names →
      ∃ a b c, cameras.get? top = some a ∧ cameras.get? first = some b ∧ cameras.get? second = some c ∧
        identifyTViews lower cameras = some (a, b, c)

structure Unambiguous (names : List Text) (top first second : Text) : Prop where
  distinct : top ≠ first ∧ top ≠ second ∧ first ≠ second
  left : ∀ k ∈ names, k ≠ top → k ≠ first → isLeft lower k = false
  right : ∀ k ∈ names, k ≠ top → k ≠ first → k ≠ second → isRight lower k = false

/-! ### Finding the one -/

theorem find_of_only {test : Text → Bool} {keys : List Text} {chosen : Text} (member : chosen ∈ keys)
    (only : ∀ k ∈ keys, test k = true ↔ k = chosen) : keys.find? test = some chosen := by
  cases found : keys.find? test with
  | none =>
      rw [List.find?_eq_none] at found
      exact absurd ((only chosen member).mpr rfl) (found chosen member)
  | some k =>
      have passed := List.find?_some found
      rw [(only k (List.mem_of_find?_eq_some found)).mp passed]

/-- A name that passes and stands first is found. -/
theorem find_filter_head {test keep : Text → Bool} {k : Text} {rest : List Text} (kept : keep k = true)
    (passes : test k = true) : ((k :: rest).filter keep).find? test = some k := by
  rw [List.filter_cons_of_pos kept, List.find?_cons_of_pos passes]

section Search
variable {lower : Text → Text} {names keys : List Text} {top first second : Text}

theorem Roles.perm (roles : Roles lower names top first second) (order : keys.Perm names) :
    Roles lower keys top first second where
  top_mem := order.mem_iff.mpr roles.top_mem
  first_mem := order.mem_iff.mpr roles.first_mem
  second_mem := order.mem_iff.mpr roles.second_mem
  top_only := fun k member => roles.top_only k (order.mem_iff.mp member)
  first_only := fun k member => roles.first_only k (order.mem_iff.mp member)
  second_only := fun k member => roles.second_only k (order.mem_iff.mp member)

theorem Unambiguous.perm (clear : Unambiguous lower names top first second) (order : keys.Perm names) :
    Unambiguous lower keys top first second where
  distinct := clear.distinct
  left := fun k member => clear.left k (order.mem_iff.mp member)
  right := fun k member => clear.right k (order.mem_iff.mp member)

theorem Roles.findTop (roles : Roles lower keys top first second) : findTopCamera lower keys = some top := by
  unfold findTopCamera
  rw [find_of_only roles.top_mem roles.top_only]

/-- The keys of which the left view is looked for. -/
def withoutTop (keys : List Text) (top : Text) : List Text :=
  keys.filter fun k => some k ≠ some top

def withoutLeft (keys : List Text) (top left : Text) : List Text :=
  (withoutTop keys top).filter fun k => some k ≠ some left

theorem mem_withoutTop {k : Text} : k ∈ withoutTop keys top ↔ k ∈ keys ∧ k ≠ top := by
  simp [withoutTop]

theorem mem_withoutLeft {k left : Text} : k ∈ withoutLeft keys top left ↔ (k ∈ keys ∧ k ≠ top) ∧ k ≠ left := by
  simp [withoutLeft, mem_withoutTop]

theorem Roles.findLeft (roles : Roles lower keys top first second)
    (left : ∀ k ∈ keys, k ≠ top → k ≠ first → isLeft lower k = false) (apart : top ≠ first) :
    findLeftCamera lower (withoutTop keys top) = some first := by
  apply find_of_only (mem_withoutTop.mpr ⟨roles.first_mem, apart.symm⟩)
  intro k member
  obtain ⟨listed, other⟩ := mem_withoutTop.mp member
  rw [Bool.or_eq_true, roles.first_only k listed]
  constructor
  · rintro (same | leftish)
    · exact same
    · by_contra notFirst
      rw [left k listed other notFirst] at leftish
      cases leftish
  · exact Or.inl

theorem Roles.findRight (roles : Roles lower keys top first second)
    (right : ∀ k ∈ keys, k ≠ top → k ≠ first → k ≠ second → isRight lower k = false) (apartTop : top ≠ second)
    (apartFirst : first ≠ second) : findRightCamera lower (withoutLeft keys top first) = some second := by
  apply find_of_only (mem_withoutLeft.mpr ⟨⟨roles.second_mem, apartTop.symm⟩, apartFirst.symm⟩)
  intro k member
  obtain ⟨⟨listed, other⟩, notFirst⟩ := mem_withoutLeft.mp member
  rw [Bool.or_eq_true, roles.second_only k listed]
  constructor
  · rintro (same | rightish)
    · exact same
    · by_contra notSecond
      rw [right k listed other notFirst notSecond] at rightish
      cases rightish
  · exact Or.inl

theorem resolve_of_nonempty {k : Text} (nonempty : k ≠ []) (unused : List Text) (fallback : Option Text) :
    resolve (some k) unused fallback = some (k, unused) := by
  cases k with
  | nil => exact absurd rfl nonempty
  | cons c rest => rfl

theorem identifyTKeys_of_found {left right : Text} (topFound : findTopCamera lower keys = some top)
    (leftFound : findLeftCamera lower (withoutTop keys top) = some left)
    (rightFound : findRightCamera lower (withoutLeft keys top left) = some right) (topNonempty : top ≠ [])
    (leftNonempty : left ≠ []) (rightNonempty : right ≠ []) : identifyTKeys lower keys = some (top, left, right) := by
  simp only [withoutLeft, withoutTop] at leftFound rightFound
  simp only [identifyTKeys, topFound, leftFound, rightFound, resolve_of_nonempty topNonempty,
    resolve_of_nonempty leftNonempty, resolve_of_nonempty rightNonempty]
  rfl

/-- Whatever is found for the right, the left view is the one that was found. -/
theorem left_of_identified {left a b c : Text} (topFound : findTopCamera lower keys = some top)
    (leftFound : findLeftCamera lower (withoutTop keys top) = some left) (topNonempty : top ≠ [])
    (leftNonempty : left ≠ []) (identified : identifyTKeys lower keys = some (a, b, c)) : b = left := by
  simp only [withoutTop] at leftFound
  simp only [identifyTKeys, topFound, leftFound, resolve_of_nonempty topNonempty,
    resolve_of_nonempty leftNonempty, Option.bind_eq_bind, Option.bind_some, Option.bind_eq_some_iff] at identified
  obtain ⟨resolved, -, same⟩ := identified
  cases same
  rfl

/-- A lower case does not make a name of nothing. -/
def KeepsEmpty (lower : Text → Text) : Prop := lower [] = []

theorem Roles.nonempty (roles : Roles lower keys top first second) (keepsEmpty : KeepsEmpty lower) :
    top ≠ [] ∧ first ≠ [] ∧ second ≠ [] := by
  unfold KeepsEmpty at keepsEmpty
  refine ⟨?_, ?_, ?_⟩
  · intro empty
    have passes := (roles.top_only top roles.top_mem).mpr rfl
    rw [empty, isTop, keepsEmpty] at passes
    exact absurd passes (by decide)
  · intro empty
    have passes := (roles.first_only first roles.first_mem).mpr rfl
    rw [empty, isFirstExterior, keepsEmpty] at passes
    exact absurd passes (by decide)
  · intro empty
    have passes := (roles.second_only second roles.second_mem).mpr rfl
    rw [empty, isSecondExterior, keepsEmpty] at passes
    exact absurd passes (by decide)

theorem nonempty_of_isLeft {k : Text} (keepsEmpty : KeepsEmpty lower) (leftish : isLeft lower k = true) : k ≠ [] := by
  intro empty
  rw [empty, isLeft, keepsEmpty] at leftish
  exact absurd leftish (by decide)

theorem nonempty_of_isRight {k : Text} (keepsEmpty : KeepsEmpty lower) (rightish : isRight lower k = true) :
    k ≠ [] := by
  intro empty
  rw [empty, isRight, keepsEmpty] at rightish
  exact absurd rightish (by decide)

/-! ### Any order -/

theorem identifies_of_unambiguous (keepsEmpty : KeepsEmpty lower) (roles : Roles lower names top first second)
    (clear : Unambiguous lower names top first second) : Identifies lower names top first second := by
  refine ⟨clear.distinct, ?_⟩
  intro Image cameras order
  have roles' := roles.perm order
  have clear' := clear.perm order
  obtain ⟨apartFirst, apartSecond, apart⟩ := clear.distinct
  obtain ⟨topNonempty, firstNonempty, secondNonempty⟩ := roles.nonempty keepsEmpty
  have identified := identifyTKeys_of_found roles'.findTop (roles'.findLeft clear'.left apartFirst)
    (roles'.findRight clear'.right apartSecond apart) topNonempty firstNonempty secondNonempty
  obtain ⟨a, topImage⟩ := Dict.mem_iff_get?.mp (AList.mem_keys.mpr roles'.top_mem)
  obtain ⟨b, firstImage⟩ := Dict.mem_iff_get?.mp (AList.mem_keys.mpr roles'.first_mem)
  obtain ⟨c, secondImage⟩ := Dict.mem_iff_get?.mp (AList.mem_keys.mpr roles'.second_mem)
  refine ⟨a, b, c, topImage, firstImage, secondImage, ?_⟩
  simp only [identifyTViews, identified, topImage, firstImage, secondImage, Option.bind_eq_bind, Option.bind_some]
  rfl

def selfImages (keys : List Text) (nodup : keys.Nodup) : Dict Text Text :=
  ⟨keys.map fun k => ⟨k, k⟩, by
    have same : (keys.map fun k => (⟨k, k⟩ : Sigma fun _ : Text => Text)).keys = keys := by
      rw [List.keys, List.map_map]
      exact List.map_id keys
    rw [List.NodupKeys, same]
    exact nodup⟩

theorem keys_selfImages (nodup : keys.Nodup) : (selfImages keys nodup).keys = keys := by
  rw [AList.keys, List.keys, selfImages, List.map_map]
  exact List.map_id keys

theorem get?_selfImages {nodup : keys.Nodup} {k image : Text} (found : (selfImages keys nodup).get? k = some image) :
    image = k := by
  have listed := Dict.mem_items.mpr found
  simp only [selfImages, Dict.items, List.map_map, List.mem_map, Function.comp_apply, Prod.mk.injEq] at listed
  obtain ⟨name, -, same, image⟩ := listed
  rw [← image, same]

theorem keys_of_identifies (identifies : Identifies lower names top first second) (order : keys.Perm names)
    (nodup : keys.Nodup) : identifyTKeys lower keys = some (top, first, second) := by
  obtain ⟨a, b, c, topImage, firstImage, secondImage, identified⟩ :=
    identifies.2 Text (selfImages keys nodup) (by rw [keys_selfImages]; exact order)
  simp only [identifyTViews, keys_selfImages, Option.bind_eq_bind, Option.bind_eq_some_iff] at identified
  obtain ⟨⟨first', second', third'⟩, found, a', image, b', image', c', image'', same⟩ := identified
  cases same
  have sameTop : first' = top := (get?_selfImages image).symm.trans (get?_selfImages topImage)
  have sameFirst : second' = first := (get?_selfImages image').symm.trans (get?_selfImages firstImage)
  have sameSecond : third' = second := (get?_selfImages image'').symm.trans (get?_selfImages secondImage)
  rw [found, sameTop, sameFirst, sameSecond]

theorem exists_first_order {k : Text} (member : k ∈ names) (nodup : names.Nodup) :
    ∃ rest, (k :: rest).Perm names ∧ (k :: rest).Nodup := by
  have order := (List.perm_cons_erase member).symm
  exact ⟨names.erase k, order, order.nodup_iff.mpr nodup⟩

/-- A name that is taken for a left view, and stands first, is the left view. -/
theorem left_of_identifies (keepsEmpty : KeepsEmpty lower) (roles : Roles lower names top first second)
    (nodup : names.Nodup) (identifies : Identifies lower names top first second) :
    ∀ k ∈ names, k ≠ top → k ≠ first → isLeft lower k = false := by
  intro k member notTop notFirst
  by_contra leftish
  rw [Bool.not_eq_false] at leftish
  obtain ⟨rest, order, nodup'⟩ := exists_first_order member nodup
  have identified := keys_of_identifies identifies order nodup'
  have leftFound : findLeftCamera lower (withoutTop (k :: rest) top) = some k := by
    apply find_filter_head
    · exact decide_eq_true (fun same => notTop (Option.some.inj same))
    · rw [Bool.or_eq_true]
      exact Or.inr leftish
  exact notFirst (left_of_identified (roles.perm order).findTop leftFound (roles.nonempty keepsEmpty).1
    (nonempty_of_isLeft keepsEmpty leftish) identified).symm

theorem right_of_identifies (keepsEmpty : KeepsEmpty lower) (roles : Roles lower names top first second)
    (nodup : names.Nodup) (identifies : Identifies lower names top first second) :
    ∀ k ∈ names, k ≠ top → k ≠ first → k ≠ second → isRight lower k = false := by
  intro k member notTop notFirst notSecond
  by_contra rightish
  rw [Bool.not_eq_false] at rightish
  obtain ⟨rest, order, nodup'⟩ := exists_first_order member nodup
  have roles' := roles.perm order
  have left := left_of_identifies keepsEmpty roles nodup identifies
  have leftFound := roles'.findLeft (fun other listed => left other (order.mem_iff.mp listed)) identifies.1.1
  have rightFound : findRightCamera lower (withoutLeft (k :: rest) top first) = some k := by
    unfold withoutLeft withoutTop
    rw [List.filter_filter]
    apply find_filter_head
    · rw [Bool.and_eq_true]
      exact ⟨decide_eq_true (fun same => notFirst (Option.some.inj same)),
        decide_eq_true (fun same => notTop (Option.some.inj same))⟩
    · rw [Bool.or_eq_true]
      exact Or.inr rightish
  obtain ⟨topNonempty, firstNonempty, -⟩ := roles.nonempty keepsEmpty
  have identified := identifyTKeys_of_found roles'.findTop leftFound rightFound topNonempty firstNonempty
    (nonempty_of_isRight keepsEmpty rightish)
  rw [keys_of_identifies identifies order nodup'] at identified
  cases identified
  exact notSecond rfl

theorem identifyTViews_iff (keepsEmpty : KeepsEmpty lower) (roles : Roles lower names top first second)
    (nodup : names.Nodup) :
    Identifies lower names top first second ↔ Unambiguous lower names top first second := by
  constructor
  · intro identifies
    exact ⟨identifies.1, left_of_identifies keepsEmpty roles nodup identifies,
      right_of_identifies keepsEmpty roles nodup identifies⟩
  · exact identifies_of_unambiguous keepsEmpty roles

end Search

/-! ### Names of a rig -/

def asciiLower (text : Text) : Text := text.map Char.toLower

theorem asciiLower_keepsEmpty : KeepsEmpty asciiLower := rfl

def shortNames : List Text := ["wrist".toList, "ext1".toList, "ext2".toList]

def droidNames : List Text :=
  ["wrist_image_left".toList, "exterior_image_2_left".toList, "exterior_image_1_left".toList]

theorem shortNames_identified :
    Identifies asciiLower shortNames "wrist".toList "ext1".toList "ext2".toList :=
  (identifyTViews_iff asciiLower_keepsEmpty ⟨by decide, by decide, by decide, by decide, by decide, by decide⟩ (by decide)).mpr
    ⟨by decide, by decide, by decide⟩

theorem droidNames_roles : Roles asciiLower droidNames "wrist_image_left".toList "exterior_image_1_left".toList
    "exterior_image_2_left".toList :=
  ⟨by decide, by decide, by decide, by decide, by decide, by decide⟩

/-- The second exterior name of DROID stands for a left view too. -/
theorem droidNames_not_identified :
    ¬Identifies asciiLower droidNames "wrist_image_left".toList "exterior_image_1_left".toList
      "exterior_image_2_left".toList := by
  intro identifies
  have left := left_of_identifies asciiLower_keepsEmpty droidNames_roles (by decide) identifies "exterior_image_2_left".toList
    (by decide) (by decide) (by decide)
  exact absurd left (by decide)

end PhysicalAiStudio.Policies.CameraViews
