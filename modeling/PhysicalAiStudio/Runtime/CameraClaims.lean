import Mathlib.Data.Option.Basic
import Mathlib.Logic.Function.Basic

/-! The registry that pins camera settings for the sessions that use them.

A registry maps a fingerprint to its holders in the order in which they were entered.
A claim pins all its cameras or none; a release with a generation that is not the
holder's newest does nothing.
-/

set_option autoImplicit false

namespace PhysicalAiStudio.Runtime.Cameras

structure CameraClaim where
  fingerprint : String
  settings : Int × Int × Int
  holder : String
  projectName : String
  deriving DecidableEq

structure CameraSettingsConflictError where
  projectName : String
  pinned : Int × Int × Int
  requested : Int × Int × Int
  deriving DecidableEq

/-- A camera row, and what its payload says of the settings. -/
structure Camera where
  name : String
  fingerprint : Option String
  width : Option Int
  height : Option Int
  fps : Option Int
  deriving DecidableEq

def settingsFromCamera (camera : Camera) : Int × Int × Int :=
  (camera.width.getD 0, camera.height.getD 0, camera.fps.getD 0)

def cameraClaims (sessionName projectName : String) : List Camera → Except String (List CameraClaim)
  | [] => .ok []
  | camera :: cameras =>
    match camera.fingerprint with
    | none => .error camera.name
    | some fingerprint =>
      (cameraClaims sessionName projectName cameras).map
        (⟨fingerprint, settingsFromCamera camera, sessionName, projectName⟩ :: ·)

theorem cameraClaims_holder {sessionName projectName : String} {cameras : List Camera} {claims : List CameraClaim}
    (built : cameraClaims sessionName projectName cameras = .ok claims) :
    ∀ claim ∈ claims, claim.holder = sessionName := by
  induction cameras generalizing claims with
  | nil =>
    cases built
    simp
  | cons camera cameras ih =>
    rw [cameraClaims] at built
    split at built
    · cases built
    · cases rest : cameraClaims sessionName projectName cameras with
      | error name => simp [rest, Except.map] at built
      | ok claims =>
        simp only [rest, Except.map, Except.ok.injEq] at built
        subst built
        simpa using ih rest

/-- `holders[claim.holder] = claim`: a holder that has an entry keeps its place. -/
def assign (claim : CameraClaim) : List CameraClaim → List CameraClaim
  | [] => [claim]
  | pinned :: holders => if pinned.holder = claim.holder then claim :: holders else pinned :: assign claim holders

structure CameraClaimRegistry where
  claims : String → List CameraClaim := fun _ => []
  generation : String → Option Nat := fun _ => none

namespace CameraClaimRegistry

/-- The first check of `claim` that fails, if one does. -/
def conflict (registry : CameraClaimRegistry) (claims : List CameraClaim) : Option CameraSettingsConflictError :=
  claims.findSome? fun incoming =>
    match registry.claims incoming.fingerprint with
    | [] => none
    | pinned :: _ =>
      if pinned.settings ≠ incoming.settings then
        some { projectName := pinned.projectName, pinned := pinned.settings, requested := incoming.settings }
      else none

def pin (registry : CameraClaimRegistry) (incoming : CameraClaim) : CameraClaimRegistry :=
  { registry with
    claims := Function.update registry.claims incoming.fingerprint
      (assign incoming (registry.claims incoming.fingerprint)) }

def claim (registry : CameraClaimRegistry) (claims : List CameraClaim) :
    CameraClaimRegistry × Except CameraSettingsConflictError Nat :=
  match registry.conflict claims with
  | some error => (registry, .error error)
  | none =>
    let pinned := claims.foldl pin registry
    match claims with
    | [] => (pinned, .ok 0)
    | first :: _ =>
      let generation := (pinned.generation first.holder).getD 0 + 1
      ({ pinned with generation := Function.update pinned.generation first.holder (some generation) }, .ok generation)

def release (registry : CameraClaimRegistry) (holder : String) (generation : Option Nat) : CameraClaimRegistry :=
  if generation ≠ none ∧ registry.generation holder ≠ generation then registry
  else { registry with claims := fun fingerprint => (registry.claims fingerprint).filter (·.holder ≠ holder) }

def Pinned (registry : CameraClaimRegistry) (holder fingerprint : String) : Prop :=
  ∃ pinned ∈ registry.claims fingerprint, pinned.holder = holder

instance (registry : CameraClaimRegistry) (holder fingerprint : String) :
    Decidable (registry.Pinned holder fingerprint) :=
  inferInstanceAs (Decidable (∃ pinned ∈ registry.claims fingerprint, pinned.holder = holder))

def Agrees (registry : CameraClaimRegistry) : Prop :=
  ∀ fingerprint, ∀ one ∈ registry.claims fingerprint, ∀ other ∈ registry.claims fingerprint,
    one.settings = other.settings

end CameraClaimRegistry

variable {registry : CameraClaimRegistry} {claims holders : List CameraClaim} {incoming pinned : CameraClaim}
  {holder fingerprint : String}

theorem mem_assign (member : pinned ∈ assign incoming holders) : pinned = incoming ∨ pinned ∈ holders := by
  induction holders with
  | nil => simpa [assign] using member
  | cons first holders ih =>
    rw [assign] at member
    split at member
    · rcases List.mem_cons.mp member with here | later
      · exact .inl here
      · exact .inr (List.mem_cons_of_mem _ later)
    · rcases List.mem_cons.mp member with here | later
      · exact .inr (here ▸ List.mem_cons_self)
      · exact (ih later).imp_right (List.mem_cons_of_mem _)

theorem assign_self : incoming ∈ assign incoming holders := by
  induction holders with
  | nil => simp [assign]
  | cons first holders ih =>
    rw [assign]
    split
    · exact List.mem_cons_self
    · exact List.mem_cons_of_mem _ ih

theorem assign_keeps (member : ∃ pinned ∈ holders, pinned.holder = holder) :
    ∃ pinned ∈ assign incoming holders, pinned.holder = holder := by
  induction holders with
  | nil => simp at member
  | cons first holders ih =>
    obtain ⟨pinned, member, held⟩ := member
    rw [assign]
    split
    · next same =>
      rcases List.mem_cons.mp member with rfl | later
      · exact ⟨incoming, List.mem_cons_self, same ▸ held⟩
      · exact ⟨pinned, List.mem_cons_of_mem _ later, held⟩
    · rcases List.mem_cons.mp member with rfl | later
      · exact ⟨pinned, List.mem_cons_self, held⟩
      · obtain ⟨kept, member, held⟩ := ih ⟨pinned, later, held⟩
        exact ⟨kept, List.mem_cons_of_mem _ member, held⟩

namespace CameraClaimRegistry

theorem claim_rejected {error : CameraSettingsConflictError} (rejected : (registry.claim claims).2 = .error error) :
    (registry.claim claims).1 = registry := by
  rw [claim] at *
  split at *
  · rfl
  · split at rejected <;> cases rejected

theorem claim_ok {generation : Nat} (accepted : (registry.claim claims).2 = .ok generation) :
    registry.conflict claims = none ∧ (registry.claim claims).1.claims = (claims.foldl pin registry).claims := by
  rw [claim] at *
  split at accepted
  · cases accepted
  · next free =>
    rw [free]
    exact ⟨rfl, by cases claims <;> rfl⟩

theorem pin_generation : (registry.pin incoming).generation = registry.generation := rfl

theorem foldl_pin_generation : (claims.foldl pin registry).generation = registry.generation := by
  induction claims generalizing registry with
  | nil => rfl
  | cons incoming claims ih => rw [List.foldl_cons, ih, pin_generation]

theorem pin_keeps (held : registry.Pinned holder fingerprint) : (registry.pin incoming).Pinned holder fingerprint := by
  by_cases same : fingerprint = incoming.fingerprint
  · subst same
    simpa [Pinned, pin] using assign_keeps held
  · simpa [Pinned, pin, Function.update_of_ne same] using held

theorem pin_self : (registry.pin incoming).Pinned incoming.holder incoming.fingerprint :=
  ⟨incoming, by simpa [pin] using assign_self, rfl⟩

theorem foldl_pin_keeps (held : registry.Pinned holder fingerprint) :
    (claims.foldl pin registry).Pinned holder fingerprint := by
  induction claims generalizing registry with
  | nil => exact held
  | cons incoming claims ih => exact ih (pin_keeps held)

theorem foldl_pin_self (member : incoming ∈ claims) :
    (claims.foldl pin registry).Pinned incoming.holder incoming.fingerprint := by
  induction claims generalizing registry with
  | nil => cases member
  | cons first claims ih =>
    rw [List.foldl_cons]
    rcases List.mem_cons.mp member with rfl | later
    · exact foldl_pin_keeps pin_self
    · exact ih later

/-- The entries that the claims of one holder meet at a fingerprint: they agree with those claims, or there is only the
holder's own. -/
def Compatible (registry : CameraClaimRegistry) (holder : String) (claims : List CameraClaim) : Prop :=
  ∀ fingerprint, (∀ incoming ∈ claims, incoming.fingerprint = fingerprint →
      ∀ pinned ∈ registry.claims fingerprint, pinned.settings = incoming.settings) ∨
    ∃ own, registry.claims fingerprint = [own] ∧ own.holder = holder

theorem compatible_of_conflict (agrees : registry.Agrees) (free : registry.conflict claims = none) :
    registry.Compatible holder claims := by
  intro fingerprint
  refine .inl ?_
  rintro incoming member rfl pinned held
  have checked := List.findSome?_eq_none_iff.mp free incoming member
  split at checked
  · next empty =>
    rw [empty] at held
    cases held
  · next first holders entries =>
    have same : first.settings = incoming.settings := by simpa using checked
    rw [← same]
    exact agrees _ pinned held first (entries ▸ List.mem_cons_self)

theorem Compatible.pin (agrees : registry.Agrees) (own : incoming.holder = holder)
    (compatible : registry.Compatible holder (incoming :: claims)) :
    (registry.pin incoming).Agrees ∧ (registry.pin incoming).Compatible holder claims := by
  rcases compatible incoming.fingerprint with same | ⟨only, entries, held⟩
  · have settings (pinned) (member : pinned ∈ assign incoming (registry.claims incoming.fingerprint)) :
        pinned.settings = incoming.settings := by
      rcases mem_assign member with rfl | member
      · rfl
      · exact same incoming List.mem_cons_self rfl pinned member
    constructor
    · intro fingerprint one oneMember other otherMember
      by_cases here : fingerprint = incoming.fingerprint
      · subst here
        simp only [CameraClaimRegistry.pin, Function.update_self] at oneMember otherMember
        rw [settings one oneMember, settings other otherMember]
      · simp only [CameraClaimRegistry.pin, Function.update_of_ne here] at oneMember otherMember
        exact agrees fingerprint one oneMember other otherMember
    · intro fingerprint
      by_cases here : fingerprint = incoming.fingerprint
      · subst here
        simp only [CameraClaimRegistry.pin, Function.update_self]
        -- an entry that was there before says the same of both claims; if there was none, the new one is the only
        cases entries : registry.claims incoming.fingerprint with
        | nil => exact .inr ⟨incoming, by simp [assign], own⟩
        | cons first holders =>
          refine .inl ?_
          intro later member there pinned pinnedMember
          have first := same incoming List.mem_cons_self rfl first (entries ▸ List.mem_cons_self)
          have second := same later (List.mem_cons_of_mem _ member) there _ (entries ▸ List.mem_cons_self)
          rw [settings pinned (entries ▸ pinnedMember), ← first, second]
      · simp only [CameraClaimRegistry.pin, Function.update_of_ne here]
        refine (compatible fingerprint).imp_left ?_
        exact fun same later member => same later (List.mem_cons_of_mem _ member)
  · have replaced : assign incoming (registry.claims incoming.fingerprint) = [incoming] := by
      simp [entries, assign, held, own]
    constructor
    · intro fingerprint one oneMember other otherMember
      by_cases here : fingerprint = incoming.fingerprint
      · subst here
        simp only [CameraClaimRegistry.pin, Function.update_self, replaced, List.mem_singleton] at oneMember otherMember
        rw [oneMember, otherMember]
      · simp only [CameraClaimRegistry.pin, Function.update_of_ne here] at oneMember otherMember
        exact agrees fingerprint one oneMember other otherMember
    · intro fingerprint
      by_cases here : fingerprint = incoming.fingerprint
      · subst here
        exact .inr ⟨incoming, by simp [CameraClaimRegistry.pin, replaced], own⟩
      · simp only [CameraClaimRegistry.pin, Function.update_of_ne here]
        refine (compatible fingerprint).imp_left ?_
        exact fun same later member => same later (List.mem_cons_of_mem _ member)

theorem Compatible.foldl (agrees : registry.Agrees) (own : ∀ claim ∈ claims, claim.holder = holder)
    (compatible : registry.Compatible holder claims) : (claims.foldl CameraClaimRegistry.pin registry).Agrees := by
  induction claims generalizing registry with
  | nil => exact agrees
  | cons incoming claims ih =>
    obtain ⟨agrees, compatible⟩ := compatible.pin agrees (own incoming List.mem_cons_self)
    exact ih agrees (fun claim member => own claim (List.mem_cons_of_mem _ member)) compatible

/-- A claim of one holder keeps the holders of every fingerprint in agreement. -/
theorem claim_agrees (agrees : registry.Agrees) (own : ∀ claim ∈ claims, claim.holder = holder) :
    (registry.claim claims).1.Agrees := by
  cases answer : (registry.claim claims).2 with
  | error error =>
    rw [claim_rejected answer]
    exact agrees
  | ok generation =>
    obtain ⟨free, entries⟩ := claim_ok answer
    have compatible : registry.Compatible holder claims := compatible_of_conflict agrees free
    have folded := compatible.foldl agrees own
    rw [Agrees, entries]
    exact folded

theorem release_agrees (agrees : registry.Agrees) (generation : Option Nat) :
    (registry.release holder generation).Agrees := by
  rw [release]
  split
  · exact agrees
  · intro fingerprint one oneMember other otherMember
    exact agrees fingerprint one (List.mem_filter.mp oneMember).1 other (List.mem_filter.mp otherMember).1

theorem claim_keeps (held : registry.Pinned holder fingerprint) :
    (registry.claim claims).1.Pinned holder fingerprint := by
  cases answer : (registry.claim claims).2 with
  | error error =>
    rw [claim_rejected answer]
    exact held
  | ok generation =>
    rw [Pinned, (claim_ok answer).2]
    exact foldl_pin_keeps held

theorem claim_pins {generation : Nat} (accepted : (registry.claim claims).2 = .ok generation)
    (member : incoming ∈ claims) : (registry.claim claims).1.Pinned incoming.holder incoming.fingerprint := by
  rw [Pinned, (claim_ok accepted).2]
  exact foldl_pin_self member

/-- The generation of a claim is the next one of its holder; a claim of no camera has generation 0 and counts none. -/
theorem claim_generation {generation : Nat} (accepted : (registry.claim claims).2 = .ok generation)
    (own : ∀ claim ∈ claims, claim.holder = holder) :
    claims = [] ∧ generation = 0 ∧ (registry.claim claims).1.generation = registry.generation ∨
      claims ≠ [] ∧ generation = (registry.generation holder).getD 0 + 1 ∧
        (registry.claim claims).1.generation = Function.update registry.generation holder (some generation) := by
  cases claims with
  | nil => exact .inl ⟨rfl, by simpa [claim, conflict, eq_comm] using accepted, rfl⟩
  | cons first claims =>
    refine .inr ⟨by simp, ?_⟩
    have held := own first List.mem_cons_self
    have free := (claim_ok accepted).1
    simp only [claim, free, foldl_pin_generation, held, Except.ok.injEq] at accepted ⊢
    exact ⟨accepted.symm, by rw [accepted]⟩

/-- A release with a generation that is not the newest one of the holder does nothing. -/
theorem release_stale {generation : Nat} (stale : registry.generation holder ≠ some generation) :
    registry.release holder (some generation) = registry :=
  if_pos ⟨by simp, stale⟩

theorem release_other {other : String} {generation : Option Nat} (different : other ≠ holder)
    (held : registry.Pinned other fingerprint) : (registry.release holder generation).Pinned other fingerprint := by
  rw [release]
  split
  · exact held
  · obtain ⟨pinned, member, held⟩ := held
    exact ⟨pinned, List.mem_filter.mpr ⟨member, by simpa [held] using different⟩, held⟩

@[simp]
theorem release_generation {generation : Option Nat} :
    (registry.release holder generation).generation = registry.generation := by
  rw [release]
  split <;> rfl

end CameraClaimRegistry

end PhysicalAiStudio.Runtime.Cameras
