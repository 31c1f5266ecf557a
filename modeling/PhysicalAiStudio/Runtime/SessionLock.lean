import Mathlib.Logic.Function.Basic
import PhysicalAiStudio.Concurrency.Transition

/-! The host-local lock on a session name, and the probes that diagnose it.

One lock file: its content, who holds its `flock`, and how far the processes are that
acquire it or probe it. A process that dies loses its descriptors, and with them the
`flock`. The listing of session names reads the file with the same probe.
-/

set_option autoImplicit false

namespace PhysicalAiStudio.Runtime.Transport

open Concurrency

def sessionLockKind : String := "rt-name"

structure Diagnostics where
  kind : String
  identity : String
  pid : Nat
  deriving DecidableEq

/-- Whose open file has the `flock`. -/
inductive Owner where
  | session (pid : Nat)
  | probe (position : Nat)
  deriving DecidableEq

/-- How far a session process is with its `SessionNameLock`. -/
inductive Locking where
  | idle
  | locked
  | truncated
  | held
  deriving DecidableEq

inductive Probing where
  | read (diagnostics : Diagnostics)
  | signalled (diagnostics : Diagnostics)
  | locked
  | concluded
  deriving DecidableEq

structure LockFile where
  content : Option Diagnostics
  flock : Option Owner := none
  alive : Nat → Bool := fun _ => false
  locking : Nat → Locking := fun _ => .idle
  probes : List Probing := []

inductive LockEvent where
  | started (pid : Nat)
  | exited (pid : Nat)
  | acquireTried (pid : Nat)
  | truncated (pid : Nat)
  | wrote (pid : Nat)
  | released (pid : Nat)
  | probeRead
  | probeSignalled (probe : Nat)
  | probeTested (probe : Nat)
  | probeUnlocked (probe : Nat)
  | probeExited (probe : Nat)
  deriving DecidableEq

namespace LockFile

def parsed (file : LockFile) : Option Diagnostics :=
  file.content.filter fun diagnostics => diagnostics.kind = sessionLockKind ∧ 0 < diagnostics.pid

def livePid (name : String) (diagnostics : Diagnostics) : Option Nat :=
  if diagnostics.identity = name then some diagnostics.pid else none

def holder (file : LockFile) : Option Nat :=
  match file.flock with
  | some (.session pid) => some pid
  | _ => none

def setLocking (pid : Nat) (locking : Locking) (file : LockFile) : LockFile :=
  { file with locking := Function.update file.locking pid locking }

def setProbe (position : Nat) (probing : Probing) (file : LockFile) : LockFile :=
  { file with probes := file.probes.set position probing }

variable {file : LockFile} {position : Nat}

@[simp, grind =]
theorem setLocking_locking {pid other : Nat} {locking : Locking} :
    (file.setLocking pid locking).locking other = if other = pid then locking else file.locking other := by
  simp only [setLocking, Function.update_apply]

@[simp, grind =]
theorem setLocking_content {pid : Nat} {locking : Locking} :
    (file.setLocking pid locking).content = file.content := rfl

@[simp, grind =]
theorem setLocking_flock {pid : Nat} {locking : Locking} :
    (file.setLocking pid locking).flock = file.flock := rfl

@[simp, grind =]
theorem setLocking_alive {pid : Nat} {locking : Locking} :
    (file.setLocking pid locking).alive = file.alive := rfl

@[simp, grind =]
theorem setLocking_probes {pid : Nat} {locking : Locking} :
    (file.setLocking pid locking).probes = file.probes := rfl

@[simp, grind =]
theorem setProbe_probes {probing : Probing} : (file.setProbe position probing).probes = file.probes.set position probing := rfl

@[simp, grind =]
theorem setProbe_flock {probing : Probing} : (file.setProbe position probing).flock = file.flock := rfl

@[simp, grind =]
theorem setProbe_alive {probing : Probing} : (file.setProbe position probing).alive = file.alive := rfl

@[simp, grind =]
theorem setProbe_locking {probing : Probing} : (file.setProbe position probing).locking = file.locking := rfl

def freed (owner : Owner) (file : LockFile) : Option Owner :=
  if file.flock = some owner then none else file.flock

def step (name : String) (file : LockFile) : LockEvent → Option LockFile
  | .started pid =>
    if 0 < pid ∧ file.alive pid = false then some { file with alive := Function.update file.alive pid true } else none
  -- The kernel frees the lock of a process that ends; the file keeps its content.
  | .exited pid =>
    some ({ file with
      alive := Function.update file.alive pid false
      flock := file.freed (.session pid) }.setLocking pid .idle)
  | .acquireTried pid =>
    if file.alive pid then
      match file.locking pid with
      | .held => some file
      | .idle =>
        if file.flock = none then some ({ file with flock := some (.session pid) }.setLocking pid .locked)
        else some file
      | _ => none
    else none
  | .truncated pid =>
    if file.locking pid = .locked then some ({ file with content := none }.setLocking pid .truncated) else none
  | .wrote pid =>
    if file.locking pid = .truncated then
      some ({ file with content := some ⟨sessionLockKind, name, pid⟩ }.setLocking pid .held)
    else none
  | .released pid =>
    if file.locking pid = .held then
      some ({ file with flock := file.freed (.session pid) }.setLocking pid .idle)
    else none
  -- The diagnostics are read without the lock.
  | .probeRead =>
    match file.parsed with
    | some diagnostics => some { file with probes := file.probes ++ [.read diagnostics] }
    | none => some { file with probes := file.probes ++ [.concluded] }
  | .probeSignalled probe =>
    match file.probes[probe]? with
    | some (.read diagnostics) =>
      if file.alive diagnostics.pid then some (file.setProbe probe (.signalled diagnostics))
      else some (file.setProbe probe .concluded)
    | _ => none
  -- A probe takes the lock itself to see that it is free.
  | .probeTested probe =>
    match file.probes[probe]? with
    | some (.signalled _) =>
      if file.flock = none then some ({ file with flock := some (.probe probe) }.setProbe probe .locked)
      else some (file.setProbe probe .concluded)
    | _ => none
  | .probeUnlocked probe =>
    match file.probes[probe]? with
    | some .locked => some ({ file with flock := file.freed (.probe probe) }.setProbe probe .concluded)
    | _ => none
  | .probeExited probe => some ({ file with flock := file.freed (.probe probe) }.setProbe probe .concluded)

def acquired (file : LockFile) : LockEvent → Option Bool
  | .acquireTried pid =>
    match file.locking pid with
    | .held => some true
    | .idle => if file.flock = none then none else some false
    | _ => none
  | .wrote _ => some true
  | _ => none

/-- What a call of `live_session_pid` returns at a step, if it returns there. -/
def answered (name : String) (file : LockFile) : LockEvent → Option (Option Nat)
  | .probeRead => if file.parsed = none then some none else none
  | .probeSignalled probe =>
    match file.probes[probe]? with
    | some (.read diagnostics) => if file.alive diagnostics.pid then none else some none
    | _ => none
  | .probeTested probe =>
    match file.probes[probe]? with
    | some (.signalled diagnostics) => if file.flock = none then none else some (livePid name diagnostics)
    | _ => none
  | .probeUnlocked probe => if file.probes[probe]? = some .locked then some none else none
  | _ => none

/-- `acquire` returns false only if another session process holds the lock. -/
def RefusesRightly (file : LockFile) (event : LockEvent) : Prop :=
  ∀ pid, event = .acquireTried pid → file.acquired event = some false → ∃ other, other ≠ pid ∧ file.holder = some other

/-- `live_session_pid` returns the pid of the session process that holds the lock, or none if none does. -/
def AnswersRightly (name : String) (file : LockFile) (event : LockEvent) : Prop :=
  ∀ answer, file.answered name event = some answer → answer = file.holder

/-- No session process tries to take the lock while a probe is under way, no probe reads the file between the `flock`
and the write of a holder, and none tests the `flock` while another probe has it. -/
def Undisturbed (file : LockFile) : LockEvent → Prop
  | .acquireTried pid => file.locking pid = .idle → ∀ probe ∈ file.probes, probe = .concluded
  | .probeRead => ∀ pid ∈ file.holder, file.locking pid = .held
  | .probeTested _ => file.flock ≠ none → file.holder ≠ none
  | _ => True

instance (file : LockFile) : (event : LockEvent) → Decidable (file.Undisturbed event)
  | .acquireTried _ => inferInstanceAs (Decidable (_ → ∀ probe ∈ file.probes, probe = .concluded))
  | .probeRead => inferInstanceAs (Decidable (∀ pid ∈ file.holder, file.locking pid = .held))
  | .probeTested _ => inferInstanceAs (Decidable (_ → _))
  | .started _ | .exited _ | .truncated _ | .wrote _ | .released _ | .probeSignalled _ | .probeUnlocked _
  | .probeExited _ => inferInstanceAs (Decidable True)

end LockFile

def sessionLock (name : String) (content : Option Diagnostics) : System LockFile LockEvent where
  initial := { content := content }
  step := LockFile.step name

namespace LockFile

variable {name : String} {file next : LockFile} {event : LockEvent} {position : Nat}

/-- What holds of the file while the processes do not disturb each other. -/
structure Inv (name : String) (file : LockFile) : Prop where
  positive : ∀ pid, file.alive pid = true → 0 < pid
  alive : ∀ pid, file.flock = some (.session pid) → file.alive pid = true
  locking : ∀ pid, file.locking pid ≠ .idle ↔ file.flock = some (.session pid)
  written : ∀ pid, file.locking pid = .held → file.content = some ⟨sessionLockKind, name, pid⟩
  probe : ∀ position : Nat, file.probes[position]? = some .locked ↔ file.flock = some (.probe position)
  /-- A session that holds the lock while a probe is under way is the one whose diagnostics the probe has read. -/
  read : ∀ (position : Nat) diagnostics, file.probes[position]? = some (.read diagnostics) ∨
    file.probes[position]? = some (.signalled diagnostics) → ∀ pid, file.flock = some (.session pid) →
      file.locking pid = .held ∧ diagnostics = ⟨sessionLockKind, name, pid⟩

theorem holder_eq_some {pid : Nat} : file.holder = some pid ↔ file.flock = some (.session pid) := by
  unfold holder
  split
  · next same => simp [same]
  · next other => simpa using fun same => absurd same (other pid)

@[grind =]
theorem freed_eq_some {owner other : Owner} :
    file.freed owner = some other ↔ file.flock = some other ∧ other ≠ owner := by
  unfold freed
  split
  · next same => simp [same, eq_comm]
  · next different => exact ⟨fun eq => ⟨eq, fun same => different (same ▸ eq)⟩, fun both => both.1⟩

/-- A process that takes the `flock` while no probe is under way. -/
theorem Inv.acquireTried {pid : Nat} (inv : file.Inv name) (alive : file.alive pid = true)
    (free : file.flock = none) (quiet : ∀ probe ∈ file.probes, probe = .concluded) :
    ({ file with flock := some (.session pid) }.setLocking pid .locked).Inv name := by
  have probesOver (position : Nat) probing (found : file.probes[position]? = some probing) : probing = .concluded :=
    quiet probing (List.mem_of_getElem? found)
  refine ⟨inv.positive, ?_, ?_, ?_, ?_, ?_⟩
  · grind -linarith
  · have := inv.locking
    grind -linarith
  · have := inv.written
    grind -linarith
  · grind -linarith
  · grind -linarith

theorem Inv.truncated {pid : Nat} (inv : file.Inv name) (locked : file.locking pid = .locked) :
    ({ file with content := none }.setLocking pid .truncated).Inv name := by
  have holds := (inv.locking pid).1 (by simp [locked])
  refine ⟨inv.positive, inv.alive, ?_, ?_, inv.probe, ?_⟩
  · have := inv.locking
    grind -linarith
  · have := inv.locking
    grind -linarith
  · -- no probe is under way, since the holder has not written its diagnostics
    have := inv.read
    grind -linarith

theorem Inv.wrote {pid : Nat} (inv : file.Inv name) (truncated : file.locking pid = .truncated) :
    ({ file with content := some ⟨sessionLockKind, name, pid⟩ }.setLocking pid .held).Inv name := by
  have holds := (inv.locking pid).1 (by simp [truncated])
  refine ⟨inv.positive, inv.alive, ?_, ?_, inv.probe, ?_⟩
  · have := inv.locking
    grind -linarith
  · have := inv.locking
    grind -linarith
  · have := inv.read
    grind -linarith

theorem Inv.freedSession {pid : Nat} {alive : Nat → Bool} (inv : file.Inv name)
    (positive : ∀ other, alive other = true → 0 < other)
    (others : ∀ other, other ≠ pid → alive other = file.alive other) :
    ({ file with alive := alive, flock := file.freed (.session pid) }.setLocking pid .idle).Inv name := by
  refine ⟨positive, ?_, ?_, ?_, ?_, ?_⟩
  · have := inv.alive
    grind -linarith
  · have := inv.locking
    grind -linarith
  · have := inv.written
    grind -linarith
  · have := inv.probe
    grind -linarith
  · have := inv.read
    grind -linarith

/-- A probe that ends, with or without the `flock`. -/
theorem Inv.freedProbe (inv : file.Inv name) :
    ({ file with flock := file.freed (.probe position) }.setProbe position .concluded).Inv name := by
  refine ⟨inv.positive, ?_, ?_, inv.written, ?_, ?_⟩
  · have := inv.alive
    grind -linarith
  · have := inv.locking
    grind -linarith
  · have := inv.probe
    grind -linarith
  · have := inv.read
    grind -linarith

/-- A probe that answers without having taken the `flock`. -/
theorem Inv.probeOver (inv : file.Inv name) (free : file.probes[position]? ≠ some .locked) :
    (file.setProbe position .concluded).Inv name := by
  refine ⟨inv.positive, inv.alive, inv.locking, inv.written, ?_, ?_⟩
  · have := inv.probe
    grind -linarith
  · have := inv.read
    grind -linarith

theorem Inv.probeSignalled {diagnostics : Diagnostics} (inv : file.Inv name)
    (found : file.probes[position]? = some (.read diagnostics)) :
    (file.setProbe position (.signalled diagnostics)).Inv name := by
  refine ⟨inv.positive, inv.alive, inv.locking, inv.written, ?_, ?_⟩
  · have := inv.probe
    grind -linarith
  · have := inv.read
    grind -linarith

theorem Inv.probeTested {diagnostics : Diagnostics} (inv : file.Inv name)
    (found : file.probes[position]? = some (.signalled diagnostics)) (free : file.flock = none) :
    ({ file with flock := some (.probe position) }.setProbe position .locked).Inv name := by
  refine ⟨inv.positive, ?_, ?_, inv.written, ?_, ?_⟩
  · grind -linarith
  · have := inv.locking
    grind -linarith
  · have := inv.probe
    grind -linarith
  · grind -linarith

theorem Inv.probeRead {diagnostics : Diagnostics} (inv : file.Inv name) (parsed : file.parsed = some diagnostics)
    (undisturbed : ∀ pid ∈ file.holder, file.locking pid = .held) :
    Inv name { file with probes := file.probes ++ [.read diagnostics] } := by
  have content : file.content = some diagnostics := (Option.filter_eq_some_iff.1 parsed).1
  refine ⟨inv.positive, inv.alive, inv.locking, inv.written, ?_, ?_⟩
  · have := inv.probe
    grind -linarith
  · intro position' diagnostics' found pid holds
    have held := undisturbed pid (holder_eq_some.2 holds)
    have written := inv.written pid held
    have := inv.read
    grind -linarith

theorem Inv.probeMissed (inv : file.Inv name) : Inv name { file with probes := file.probes ++ [.concluded] } := by
  refine ⟨inv.positive, inv.alive, inv.locking, inv.written, ?_, ?_⟩
  · have := inv.probe
    grind -linarith
  · have := inv.read
    grind -linarith

theorem Inv.step (inv : file.Inv name) (undisturbed : file.Undisturbed event)
    (stepped : file.step name event = some next) : next.Inv name := by
  cases event with
  | started pid =>
    simp only [LockFile.step, Option.ite_none_right_eq_some, Option.some.injEq] at stepped
    obtain ⟨⟨positive, -⟩, rfl⟩ := stepped
    refine ⟨?_, ?_, inv.locking, inv.written, inv.probe, inv.read⟩
    · have := inv.positive
      grind -linarith [Function.update_apply]
    · have := inv.alive
      grind -linarith [Function.update_apply]
  | exited pid =>
    simp only [LockFile.step, Option.some.injEq] at stepped
    subst stepped
    refine inv.freedSession ?_ ?_
    · have := inv.positive
      grind -linarith [Function.update_apply]
    · grind -linarith [Function.update_apply]
  | acquireTried pid =>
    simp only [LockFile.step] at stepped
    split at stepped
    swap
    · cases stepped
    next alive =>
    split at stepped
    · cases stepped
      exact inv
    · next idle =>
      split at stepped
      · next free =>
        cases stepped
        exact inv.acquireTried alive free (undisturbed idle)
      · cases stepped
        exact inv
    · cases stepped
  | truncated pid =>
    simp only [LockFile.step, Option.ite_none_right_eq_some, Option.some.injEq] at stepped
    obtain ⟨locked, rfl⟩ := stepped
    exact inv.truncated locked
  | wrote pid =>
    simp only [LockFile.step, Option.ite_none_right_eq_some, Option.some.injEq] at stepped
    obtain ⟨truncated, rfl⟩ := stepped
    exact inv.wrote truncated
  | released pid =>
    simp only [LockFile.step, Option.ite_none_right_eq_some, Option.some.injEq] at stepped
    obtain ⟨-, rfl⟩ := stepped
    exact inv.freedSession inv.positive fun other different => rfl
  | probeRead =>
    simp only [LockFile.step] at stepped
    split at stepped
    · next parsed =>
      cases stepped
      -- What is parsed is what the holder has written, unless it is still between truncating and writing.
      exact inv.probeRead parsed undisturbed
    · cases stepped
      exact inv.probeMissed
  | probeSignalled probe =>
    simp only [LockFile.step] at stepped
    split at stepped
    · next diagnostics found =>
      split at stepped
      · cases stepped
        exact inv.probeSignalled found
      · cases stepped
        exact inv.probeOver (by simp [found])
    · cases stepped
  | probeTested probe =>
    simp only [LockFile.step] at stepped
    split at stepped
    · next diagnostics found =>
      split at stepped
      · next free =>
        cases stepped
        exact inv.probeTested found free
      · cases stepped
        exact inv.probeOver (by simp [found])
    · cases stepped
  | probeUnlocked probe =>
    simp only [LockFile.step] at stepped
    split at stepped
    · cases stepped
      exact inv.freedProbe
    · cases stepped
  | probeExited probe =>
    simp only [LockFile.step, Option.some.injEq] at stepped
    subst stepped
    exact inv.freedProbe

theorem Inv.initial (content : Option Diagnostics) : Inv name { content := content } := by
  constructor <;> simp

theorem flock_cases (inv : file.Inv name) (taken : file.flock ≠ none) :
    (∃ pid, file.holder = some pid) ∨ ∃ probe ∈ file.probes, probe = .locked := by
  obtain ⟨owner, owned⟩ := Option.ne_none_iff_exists'.1 taken
  cases owner with
  | session pid => exact .inl ⟨pid, holder_eq_some.2 owned⟩
  | probe position => exact .inr ⟨.locked, List.mem_of_getElem? ((inv.probe position).2 owned), rfl⟩

theorem Inv.refusesRightly (inv : file.Inv name) (undisturbed : file.Undisturbed event) :
    file.RefusesRightly event := by
  rintro pid rfl refused
  simp only [acquired] at refused
  split at refused
  · cases refused
  · next idle =>
    split at refused
    · cases refused
    · next taken =>
      obtain ⟨other, holds⟩ | ⟨probe, found, locked⟩ := flock_cases inv taken
      · refine ⟨other, ?_, holds⟩
        rintro rfl
        exact (inv.locking other).2 (holder_eq_some.1 holds) idle
      · -- a probe with the `flock` is one under way
        rw [undisturbed idle probe found] at locked
        cases locked
  · cases refused

theorem Inv.parsed (inv : file.Inv name) {pid : Nat} (holds : file.holder = some pid)
    (held : file.locking pid = .held) : file.parsed = some ⟨sessionLockKind, name, pid⟩ := by
  have positive := inv.positive pid (inv.alive pid (holder_eq_some.1 holds))
  simp [LockFile.parsed, inv.written pid held, positive]

theorem Inv.answersRightly (inv : file.Inv name) (undisturbed : file.Undisturbed event) :
    file.AnswersRightly name event := by
  intro answer answered
  cases event with
  | probeRead =>
    simp only [LockFile.answered, Option.ite_none_right_eq_some, Option.some.injEq] at answered
    obtain ⟨unparsed, rfl⟩ := answered
    cases holds : file.holder with
    | none => rfl
    | some pid =>
      rw [inv.parsed holds (undisturbed pid holds)] at unparsed
      cases unparsed
  | probeSignalled probe =>
    simp only [LockFile.answered] at answered
    split at answered
    · next diagnostics found =>
      simp only [Option.ite_none_left_eq_some, Option.some.injEq] at answered
      obtain ⟨dead, rfl⟩ := answered
      cases holds : file.holder with
      | none => rfl
      | some pid =>
        have holds := holder_eq_some.1 holds
        -- The diagnostics are those of the holder, who is alive.
        obtain ⟨-, rfl⟩ := inv.read probe diagnostics (.inl found) pid holds
        exact absurd (inv.alive pid holds) dead
    · cases answered
  | probeTested probe =>
    simp only [LockFile.answered] at answered
    split at answered
    · next diagnostics found =>
      simp only [Option.ite_none_left_eq_some, Option.some.injEq] at answered
      obtain ⟨taken, rfl⟩ := answered
      obtain ⟨pid, holds⟩ := Option.ne_none_iff_exists'.1 (undisturbed taken)
      obtain ⟨-, rfl⟩ := inv.read probe diagnostics (.inr found) pid (holder_eq_some.1 holds)
      simp [livePid, holds]
    · cases answered
  | probeUnlocked probe =>
    simp only [LockFile.answered, Option.ite_none_right_eq_some, Option.some.injEq] at answered
    obtain ⟨locked, rfl⟩ := answered
    simp [holder, (inv.probe probe).1 locked]
  | started | exited | acquireTried | truncated | wrote | released | probeExited => simp [LockFile.answered] at answered

end LockFile

/-- In a run in which no session takes the lock during a probe, no probe reads a file that its holder has not written
yet, and none tests the `flock` that another probe has, every answer is about the holder. -/
theorem lock_reports_holder {name : String} {content : Option Diagnostics} {history : List LockEvent}
    (undisturbed : (sessionLock name content).Throughout LockFile.Undisturbed history) :
    (sessionLock name content).Throughout
      (fun file event => file.RefusesRightly event ∧ file.AnswersRightly name event) history := by
  have invariants := System.invariant_throughout (P := LockFile.Inv name) (LockFile.Inv.initial content)
    (fun before event next inv undisturbed stepped => inv.step undisturbed stepped) undisturbed
  refine invariants.mono ?_
  rintro file event ⟨inv, undisturbed⟩
  exact ⟨inv.refusesRightly undisturbed, inv.answersRightly undisturbed⟩

def probedSession : List LockEvent :=
  [.probeUnlocked 1, .probeTested 1, .probeSignalled 1, .probeRead, .released 7, .acquireTried 8, .started 8,
    .probeTested 0, .probeSignalled 0, .probeRead, .wrote 7, .truncated 7, .acquireTried 7, .started 7]

theorem probed_session_reports_holder :
    (∃ file, (sessionLock "cell" none).reached probedSession = some file) ∧
      (sessionLock "cell" none).Throughout
        (fun file event => file.RefusesRightly event ∧ file.AnswersRightly "cell" event) probedSession :=
  ⟨⟨_, rfl⟩, lock_reports_holder (by decide +kernel)⟩

/-- A probe has the `flock` of a lock that nobody holds, and a session that starts then is refused. -/
theorem probe_refuses_session :
    ¬ ∀ (name : String) (content : Option Diagnostics) (history : List LockEvent) (file : LockFile),
      (sessionLock name content).reached history = some file → (sessionLock name content).Throughout
        (fun file event => file.RefusesRightly event ∧ file.AnswersRightly name event) history := by
  intro every
  have throughout := every "cell" (some ⟨sessionLockKind, "cell", 7⟩)
    [.acquireTried 8, .started 8, .probeTested 0, .probeSignalled 0, .probeRead, .started 7] _ rfl
  obtain ⟨other, -, holds⟩ := (throughout.1 _ rfl).1 8 rfl rfl
  cases holds

end PhysicalAiStudio.Runtime.Transport
