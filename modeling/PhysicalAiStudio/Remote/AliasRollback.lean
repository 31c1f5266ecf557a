import PhysicalAiStudio.Concurrency.Transition
import PhysicalAiStudio.Remote.SshConfigRoundTrip

/-! The rollback of `add_verified_host_alias` beside other writers of the config file.

Calls and other writers take turns, one access to the file at a time. Each byte of the file
is kept with its writer, so that it can be told whose bytes a truncation removes.
-/

set_option autoImplicit false

namespace PhysicalAiStudio.Remote.SshConfig
open Strings Concurrency

/-- The encoding that the text of the file is written and read with. -/
structure Encoding where
  encode : Text → List UInt8
  decode : List UInt8 → Option Text
  encode_nonempty : ∀ text, text ≠ [] → encode text ≠ []

inductive Writer where
  | call (id : Nat)
  | other
  | padding
  deriving DecidableEq

/-- Where a call stands, with the size and the text it has at hand. -/
inductive AddPhase where
  | idle
  | sized (prior : Option Nat)
  | checked (prior : Option Nat)
  | ready (prior : Option Nat) (text : Text)
  | added (prior : Option Nat)
  | kept
  | failed
  | refused
  deriving DecidableEq

namespace Rollback

structure State where
  file : Option (List (Writer × UInt8))
  phase : Nat → AddPhase
  appended : List (Writer × UInt8)

inductive Event where
  | size (id : Nat)
  | check (id : Nat) (taken : Bool)
  | read (id : Nat)
  | append (id : Nat)
  | confirm (id : Nat)
  | fail (id : Nat)
  | write (bytes : List UInt8)
  deriving DecidableEq

namespace State

def bytes (st : State) : List (Writer × UInt8) := st.file.getD []

def enter (st : State) (id : Nat) (phase : AddPhase) : State :=
  { st with phase := Function.update st.phase id phase }

def appendBy (st : State) (writer : Writer) (bytes : List UInt8) : State :=
  let marked := bytes.map fun byte => (writer, byte)
  { st with file := some (st.bytes ++ marked), appended := st.appended ++ marked }

/-- `_rollback`; the truncation raises where the file is gone, and pads where it is shorter. -/
def rollback (st : State) (prior : Option Nat) : State :=
  { st with file :=
      match prior, st.file with
      | none, _ => none
      | some _, none => none
      | some size, some bytes => some (bytes.take size ++ List.replicate (size - bytes.length) (.padding, 0)) }

end State

variable (encoding : Encoding) (config : Nat → SshHostAliasCreate)

def step (st : State) : Event → Option State
  | .size id =>
    match st.phase id with
    | .idle => some (st.enter id (.sized (st.file.map List.length)))
    | _ => none
  | .check id taken =>
    match st.phase id with
    | .sized prior => some (st.enter id (if taken then .refused else .checked prior))
    | _ => none
  | .read id =>
    match st.phase id with
    | .checked prior =>
      match encoding.decode (st.bytes.map Prod.snd) with
      | none => some (st.enter id .refused)
      | some existing => some (st.enter id (.ready prior (appended (universalNewlines existing) (config id))))
    | _ => none
  -- `open(..., "a")`: the text goes to the end of the file as it is now.
  | .append id =>
    match st.phase id with
    | .ready prior text => some ((st.appendBy (.call id) (encoding.encode text)).enter id (.added prior))
    | _ => none
  | .confirm id =>
    match st.phase id with
    | .added _ => some (st.enter id .kept)
    | _ => none
  -- The file is truncated to the size that was remembered first.
  | .fail id =>
    match st.phase id with
    | .added prior => some ((st.rollback prior).enter id .failed)
    | _ => none
  | .write bytes => some (st.appendBy .other bytes)

def system (file : Option (List UInt8)) : System State Event where
  initial := {
    file := file.map fun bytes => bytes.map fun byte => (.other, byte)
    phase := fun _ => .idle
    appended := (file.getD []).map fun byte => (.other, byte) }
  step := step encoding config

def State.Stays (st : State) (writer : Writer) : Prop :=
  match writer with
  | .call id => st.phase id ≠ .failed
  | _ => True

instance (st : State) (writer : Writer) : Decidable (st.Stays writer) :=
  match writer with
  | .call id => inferInstanceAs (Decidable (st.phase id ≠ .failed))
  | .other => .isTrue trivial
  | .padding => .isTrue trivial

/-- The file has what was appended to it, in its order, without the bytes of the calls that failed. -/
def State.Intact (st : State) : Prop := st.bytes = st.appended.filter fun byte => st.Stays byte.1

/-- A call that rolls back has its bytes at the end of the file, after as many bytes as it took for the size. -/
def Last (st : State) : Event → Prop
  | .fail id => ∀ prior, st.phase id = .added prior →
    ∃ before own, st.bytes = before ++ own ∧ before.length = prior.getD 0 ∧ (∀ byte ∈ before, byte.1 ≠ .call id) ∧
      ∀ byte ∈ own, byte.1 = .call id
  | _ => True

/-! ### One rollback -/

/-- A part of a list without some elements, where the rest has no others, is what the filter leaves. -/
theorem filter_split {α : Type} {p : α → Prop} [DecidablePred p] {before own : List α} (kept : ∀ a ∈ before, p a)
    (gone : ∀ a ∈ own, ¬p a) : ((before ++ own).filter fun a => p a) = before := by
  have all : (before.filter fun a => p a) = before := List.filter_eq_self.mpr fun a member => decide_eq_true (kept a member)
  have none : (own.filter fun a => p a) = [] := List.filter_eq_nil_iff.mpr fun a member => by simpa using gone a member
  rw [List.filter_append, all, none, List.append_nil]

theorem truncated_iff {α : Type} {p : α → Prop} [DecidablePred p] {bytes : List α} {pad : α} (size : Nat)
    (unpadded : pad ∉ bytes) :
    bytes.take size ++ List.replicate (size - bytes.length) pad = (bytes.filter fun a => p a) ↔
      ∃ before own, bytes = before ++ own ∧ before.length = size ∧ (∀ a ∈ before, p a) ∧ ∀ a ∈ own, ¬p a := by
  constructor
  · intro same
    have short : size ≤ bytes.length := by
      by_contra longer
      have padded : pad ∈ bytes.filter fun a => p a := by
        rw [← same]
        exact List.mem_append_right _ (List.mem_replicate.mpr ⟨by omega, rfl⟩)
      exact unpadded (List.mem_filter.mp padded).1
    rw [Nat.sub_eq_zero_of_le short, List.replicate_zero, List.append_nil] at same
    have kept : ∀ a ∈ bytes.take size, p a := by
      intro a member
      rw [same] at member
      exact of_decide_eq_true (List.mem_filter.mp member).2
    refine ⟨bytes.take size, bytes.drop size, (List.take_append_drop size bytes).symm, ?_, kept, ?_⟩
    · rw [List.length_take]
      omega
    · -- The filter has taken all it leaves from the part before the cut.
      have split : (bytes.filter fun a => p a) = bytes.take size ++ (bytes.drop size).filter fun a => p a := by
        conv_lhs => rw [← List.take_append_drop size bytes, List.filter_append]
        rw [List.filter_eq_self.mpr fun a member => decide_eq_true (kept a member)]
      have nothing : ((bytes.drop size).filter fun a => p a) = [] := by
        rw [← same] at split
        simpa using split
      intro a member holds
      have listed : a ∈ (bytes.drop size).filter fun a => p a := List.mem_filter.mpr ⟨member, decide_eq_true holds⟩
      rw [nothing] at listed
      cases listed
  · intro cut
    obtain ⟨before, own, rfl, length, kept, gone⟩ := cut
    rw [filter_split kept gone, List.length_append, List.take_append_of_le_length (by omega), ← length, List.take_length]
    simp

structure Sane (st : State) : Prop where
  unpadded : ∀ byte ∈ st.appended, byte.1 ≠ .padding
  owns : ∀ id prior, st.phase id = .added prior → ∃ byte ∈ st.appended, byte.1 = .call id
  texts : ∀ id prior text, st.phase id = .ready prior text → text ≠ []

theorem phase_enter (st : State) (id other : Nat) (phase : AddPhase) :
    (st.enter id phase).phase other = if other = id then phase else st.phase other := by
  simp [State.enter, Function.update_apply]

theorem stays_enter {st : State} {id : Nat} {phase : AddPhase} (running : st.phase id ≠ .failed) (runs : phase ≠ .failed)
    (writer : Writer) : (st.enter id phase).Stays writer ↔ st.Stays writer := by
  cases writer with
  | call other =>
    simp only [State.Stays, phase_enter]
    split
    next same =>
      subst same
      exact iff_of_true runs running
    next => exact Iff.rfl
  | other => exact Iff.rfl
  | padding => exact Iff.rfl

theorem intact_enter {st : State} {id : Nat} {phase : AddPhase} (intact : st.Intact) (running : st.phase id ≠ .failed)
    (runs : phase ≠ .failed) : (st.enter id phase).Intact := by
  unfold State.Intact
  simp only [stays_enter running runs]
  exact intact

theorem intact_appendBy {st : State} {writer : Writer} (intact : st.Intact) (stays : st.Stays writer)
    (bytes : List UInt8) : (st.appendBy writer bytes).Intact := by
  have whole : ((bytes.map fun byte => (writer, byte)).filter fun byte => st.Stays byte.1) =
      bytes.map fun byte => (writer, byte) := by
    rw [List.filter_eq_self]
    intro byte member
    obtain ⟨_, _, rfl⟩ := List.mem_map.mp member
    exact decide_eq_true stays
  have known : st.bytes = st.appended.filter fun byte => st.Stays byte.1 := intact
  show st.bytes ++ _ = (st.appended ++ _).filter fun byte => st.Stays byte.1
  rw [List.filter_append, whole, known]

theorem intact_rollback_iff {st : State} {id : Nat} {prior : Option Nat} (intact : st.Intact) (sane : Sane st)
    (added : st.phase id = .added prior) :
    ((st.rollback prior).enter id .failed).Intact ↔ Last st (.fail id) := by
  have stays : ∀ writer, ((st.rollback prior).enter id .failed).Stays writer ↔
      st.Stays writer ∧ writer ≠ .call id := by
    intro writer
    cases writer with
    | call other =>
      simp only [State.Stays, phase_enter, ne_eq, Writer.call.injEq]
      by_cases same : other = id
      · simp [same]
      · simp [same, State.rollback]
    | other => simp [State.Stays]
    | padding => simp [State.Stays]
  have left : (((st.rollback prior).enter id .failed).appended.filter fun byte =>
      ((st.rollback prior).enter id .failed).Stays byte.1) = st.bytes.filter fun byte => byte.1 ≠ .call id := by
    have known : st.bytes = st.appended.filter fun byte => st.Stays byte.1 := intact
    rw [known, List.filter_filter]
    show st.appended.filter _ = _
    apply List.filter_congr
    intro byte _
    simp [stays, Bool.and_comm]
  have unpadded : (Writer.padding, (0 : UInt8)) ∉ st.bytes := by
    rw [show st.bytes = st.appended.filter fun byte => st.Stays byte.1 from intact]
    intro member
    exact sane.unpadded _ (List.mem_filter.mp member).1 rfl
  have cut : ∀ size, prior.getD 0 = size →
      (st.bytes.take size ++ List.replicate (size - st.bytes.length) (.padding, 0) =
        st.bytes.filter (fun byte => byte.1 ≠ .call id) ↔ Last st (.fail id)) := by
    intro size recorded
    rw [truncated_iff size unpadded]
    simp only [Last, added, AddPhase.added.injEq, forall_eq', recorded, ne_eq, not_not]
  unfold State.Intact
  rw [left]
  cases prior with
  | none =>
    rw [← cut 0 rfl]
    simp [State.bytes, State.enter, State.rollback]
  | some size =>
    rw [← cut size rfl]
    cases file : st.file with
    | none =>
      -- The file cannot be gone: the bytes of the call itself are in it.
      obtain ⟨byte, listed, own⟩ := sane.owns id _ added
      have held : byte ∈ st.bytes := by
        rw [show st.bytes = st.appended.filter fun byte => st.Stays byte.1 from intact]
        refine List.mem_filter.mpr ⟨listed, decide_eq_true ?_⟩
        rw [own]
        simp [State.Stays, added]
      rw [State.bytes, file] at held
      cases held
    | some bytes => simp [State.bytes, State.enter, State.rollback, file]

/-! ### Steps and runs -/

variable {encoding config}

theorem appended_nonempty (existing : Text) (request : SshHostAliasCreate) : appended existing request ≠ [] := by
  unfold appended
  split
  · simp [renderEntry, entryLines]
  · simp

theorem step_cases {st next : State} {event : Event} (stepped : step encoding config st event = some next) :
    (∃ id phase, next = st.enter id phase ∧ st.phase id ≠ .failed ∧ phase ≠ .failed ∧ (∀ prior, phase ≠ .added prior) ∧
        (∀ prior text, phase = .ready prior text → text ≠ []) ∧ ∀ other, event ≠ .fail other) ∨
      (∃ id prior text, next = (st.appendBy (.call id) (encoding.encode text)).enter id (.added prior) ∧
        st.phase id = .ready prior text ∧ event = .append id) ∨
      (∃ bytes, next = st.appendBy .other bytes ∧ event = .write bytes) ∨
      ∃ id prior, next = (st.rollback prior).enter id .failed ∧ st.phase id = .added prior ∧ event = .fail id := by
  cases event with
  | size id =>
    simp only [step] at stepped
    split at stepped
    next phase =>
      cases stepped
      exact Or.inl ⟨id, _, rfl, by simp [phase], by simp, by simp, by simp, by simp⟩
    next => cases stepped
  | check id taken =>
    simp only [step] at stepped
    split at stepped
    next prior phase =>
      cases stepped
      refine Or.inl ⟨id, _, rfl, by simp [phase], ?_, ?_, ?_, by simp⟩
      all_goals cases taken <;> simp
    next => cases stepped
  | read id =>
    simp only [step] at stepped
    split at stepped
    next prior phase =>
      split at stepped
      next =>
        cases stepped
        exact Or.inl ⟨id, _, rfl, by simp [phase], by simp, by simp, by simp, by simp⟩
      next existing =>
        cases stepped
        refine Or.inl ⟨id, _, rfl, by simp [phase], by simp, by simp, ?_, by simp⟩
        intro other text same
        cases same
        -- The text to append ends in the new entry, so something is always written.
        exact appended_nonempty _ _
    next => cases stepped
  | append id =>
    simp only [step] at stepped
    split at stepped
    next prior text phase =>
      cases stepped
      exact Or.inr (Or.inl ⟨id, prior, text, rfl, phase, rfl⟩)
    next => cases stepped
  | confirm id =>
    simp only [step] at stepped
    split at stepped
    next prior phase =>
      cases stepped
      exact Or.inl ⟨id, _, rfl, by simp [phase], by simp, by simp, by simp, by simp⟩
    next => cases stepped
  | fail id =>
    simp only [step] at stepped
    split at stepped
    next prior phase =>
      cases stepped
      exact Or.inr (Or.inr (Or.inr ⟨id, prior, rfl, phase, rfl⟩))
    next => cases stepped
  | write bytes =>
    cases stepped
    exact Or.inr (Or.inr (Or.inl ⟨bytes, rfl, rfl⟩))

theorem sane_appendBy {st : State} {writer : Writer} (sane : Sane st) (marks : writer ≠ .padding) (bytes : List UInt8) :
    Sane (st.appendBy writer bytes) where
  unpadded := by
    intro byte member
    rcases List.mem_append.mp member with older | newer
    · exact sane.unpadded byte older
    · obtain ⟨_, _, rfl⟩ := List.mem_map.mp newer
      exact marks
  owns := by
    intro id prior added
    obtain ⟨byte, listed, own⟩ := sane.owns id prior added
    exact ⟨byte, List.mem_append_left _ listed, own⟩
  texts := sane.texts

theorem sane_enter {st : State} {id : Nat} {phase : AddPhase} (sane : Sane st)
    (owns : ∀ prior, phase = .added prior → ∃ byte ∈ st.appended, byte.1 = .call id)
    (texts : ∀ prior text, phase = .ready prior text → text ≠ []) : Sane (st.enter id phase) where
  unpadded := sane.unpadded
  owns := by
    intro other prior added
    rw [phase_enter] at added
    split at added
    next same => exact same ▸ owns prior added
    next => exact sane.owns other prior added
  texts := by
    intro other prior text ready
    rw [phase_enter] at ready
    split at ready
    next => exact texts prior text ready
    next => exact sane.texts other prior text ready

theorem sane_step {st next : State} {event : Event} (sane : Sane st)
    (stepped : step encoding config st event = some next) : Sane next := by
  obtain ⟨id, phase, rfl, _, _, unadded, texts, _⟩ | ⟨id, prior, text, rfl, ready, _⟩ | ⟨bytes, rfl, _⟩ |
    ⟨id, prior, rfl, _, _⟩ := step_cases stepped
  · exact sane_enter sane (fun prior same => absurd same (unadded prior)) texts
  · refine sane_enter (sane_appendBy sane (by simp) _) ?_ (fun _ _ same => by cases same)
    intro _ _
    obtain ⟨byte, rest, bytes⟩ := List.exists_cons_of_ne_nil
      (encoding.encode_nonempty text (sane.texts id prior text ready))
    exact ⟨(.call id, byte), by simp [State.appendBy, bytes], rfl⟩
  · exact sane_appendBy sane (by simp) bytes
  · have rolled : Sane (st.rollback prior) := ⟨sane.unpadded, sane.owns, sane.texts⟩
    exact sane_enter rolled (fun _ same => by cases same) (fun _ _ same => by cases same)

theorem intact_step_iff {st next : State} {event : Event} (intact : st.Intact) (sane : Sane st)
    (stepped : step encoding config st event = some next) : next.Intact ↔ Last st event := by
  obtain ⟨id, phase, rfl, running, runs, _, _, calm⟩ | ⟨id, prior, text, rfl, ready, rfl⟩ | ⟨bytes, rfl, rfl⟩ |
    ⟨id, prior, rfl, added, rfl⟩ := step_cases stepped
  · refine iff_of_true (intact_enter intact running runs) ?_
    cases event with
    | fail other => exact absurd rfl (calm other)
    | size | check | read | append | confirm | write => trivial
  · refine iff_of_true (intact_enter (intact_appendBy intact ?_ _) ?_ (by simp)) trivial
    · simp [State.Stays, ready]
    · simp [State.appendBy, ready]
  · have stays : st.Stays .other := trivial
    exact iff_of_true (intact_appendBy intact stays bytes) trivial
  · exact intact_rollback_iff intact sane added

theorem initial_intact (file : Option (List UInt8)) : (system encoding config file).initial.Intact := by
  have all : ((file.getD []).map fun byte => (Writer.other, byte)).filter
      (fun byte => (system encoding config file).initial.Stays byte.1) =
      (file.getD []).map fun byte => (Writer.other, byte) := by
    rw [List.filter_eq_self]
    intro byte member
    obtain ⟨_, _, rfl⟩ := List.mem_map.mp member
    rfl
  refine Eq.trans ?_ all.symm
  cases file <;> rfl

theorem initial_sane (file : Option (List UInt8)) : Sane (system encoding config file).initial where
  unpadded := by
    intro byte member
    obtain ⟨_, _, rfl⟩ := List.mem_map.mp member
    simp
  owns := fun _ _ added => by cases added
  texts := fun _ _ _ ready => by cases ready

theorem sane_reached {file : Option (List UInt8)} {history : List Event} {st : State}
    (reached : (system encoding config file).reached history = some st) : Sane st :=
  System.invariant_always (initial_sane file) (fun _ _ _ sane stepped => sane_step sane stepped) reached

theorem intact_reached {file : Option (List UInt8)} {history : List Event} {st : State}
    (last : (system encoding config file).Throughout Last history)
    (reached : (system encoding config file).reached history = some st) : st.Intact := by
  have both : st.Intact ∧ Sane st := by
    refine System.invariant (P := fun st => st.Intact ∧ Sane st) ⟨initial_intact file, initial_sane file⟩ ?_ last reached
    intro before event next holds here stepped
    exact ⟨(intact_step_iff holds.1 holds.2 stepped).mpr here, sane_step holds.2 stepped⟩
  exact both.1

theorem last_of_impossible {st : State} {event : Event} (impossible : step encoding config st event = none) :
    Last st event := by
  cases event with
  | fail id =>
    intro prior added
    simp [step, added] at impossible
  | size | check | read | append | confirm | write => trivial

/-- Along a run the file stays intact, with every other writer's bytes in it and no padding, exactly when each call
that rolls back has its bytes last in the file, after as many bytes as it took for the size. -/
theorem intact_throughout_iff (encoding : Encoding) (config : Nat → SshHostAliasCreate) (file : Option (List UInt8))
    (history : List Event) :
    (system encoding config file).Throughout
        (fun before event => ∀ next, step encoding config before event = some next → next.Intact) history ↔
      (system encoding config file).Throughout Last history := by
  induction history with
  | nil => exact Iff.rfl
  | cons event older ih =>
    constructor
    · intro kept
      have earlier := ih.mp kept.2
      refine ⟨?_, earlier⟩
      intro before led
      cases stepped : step encoding config before event with
      | none => exact last_of_impossible stepped
      | some next =>
        exact (intact_step_iff (intact_reached earlier led) (sane_reached led) stepped).mp (kept.1 before led next stepped)
    · intro last
      refine ⟨?_, ih.mpr last.2⟩
      intro before led next stepped
      exact (intact_step_iff (intact_reached last.2 led) (sane_reached led) stepped).mpr (last.1 before led)

def latin : Encoding where
  encode text := text.map fun c => UInt8.ofNat c.toNat
  decode bytes := some (bytes.map fun byte => Char.ofNat byte.toNat)
  encode_nonempty text nonempty := by simpa using nonempty

def otherConfig : SshHostAliasCreate :=
  { Disk.plainConfig with
    hostAlias := "g-2".toList
    aliasAccepted := ⟨by decide, ⟨'g', by decide, by decide⟩, by decide⟩ }

def twoConfigs (id : Nat) : SshHostAliasCreate := if id = 0 then Disk.plainConfig else otherConfig

def addEvents (id : Nat) : List Event := [.append id, .read id, .check id false, .size id]

/-- Two calls that wait for their connections together: the failure of the first removes the entry of the second, and the
failure of the second pads the file. -/
theorem overlapping_rollback_pads :
    (∃ st, (system latin twoConfigs (some [35, 10])).reached (.fail 0 :: (addEvents 1 ++ addEvents 0)) = some st ∧
      st.phase 1 = .added (some 103) ∧ st.file = some [(.other, 35), (.other, 10)]) ∧
    ∃ st, (system latin twoConfigs (some [35, 10])).reached (.fail 1 :: .fail 0 :: (addEvents 1 ++ addEvents 0)) =
      some st ∧ ¬st.Intact ∧ (.padding, 0) ∈ st.bytes := by
  constructor
  · have ran : ((system latin twoConfigs (some [35, 10])).reached (.fail 0 :: (addEvents 1 ++ addEvents 0))).map
        (fun st => (st.phase 1, st.file)) = some (.added (some 103), some [(.other, 35), (.other, 10)]) := by
      decide +kernel
    obtain ⟨st, reached, same⟩ := Option.map_eq_some_iff.mp ran
    rw [Prod.mk.injEq] at same
    exact ⟨st, reached, same⟩
  · have ran : ((system latin twoConfigs (some [35, 10])).reached
        (.fail 1 :: .fail 0 :: (addEvents 1 ++ addEvents 0))).map
        (fun st => (decide (st.bytes = st.appended.filter fun byte => st.Stays byte.1),
          decide ((Writer.padding, (0 : UInt8)) ∈ st.bytes))) = some (false, true) := by
      decide +kernel
    obtain ⟨st, reached, same⟩ := Option.map_eq_some_iff.mp ran
    rw [Prod.mk.injEq, decide_eq_false_iff_not, decide_eq_true_eq] at same
    exact ⟨st, reached, same⟩

end Rollback

end PhysicalAiStudio.Remote.SshConfig
