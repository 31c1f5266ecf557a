import PhysicalAiStudio.Concurrency.Transition

/-! The worker that calibrates the zero pose of a plugin's robot: `robot_zero_calibration_worker.py`.

A command loop handles one command at a time, a broadcast loop reads the driver beside it, and the end of the
worker cancels both and cleans up. The events are what happens between two awaits. A call in another thread runs
on when its task is cancelled.
-/

set_option autoImplicit false

namespace PhysicalAiStudio.Robots

open Concurrency

inductive ZeroCalibrationPhase where
  | waiting
  | connecting
  | positioning
  | verification
  deriving DecidableEq

inductive DriverCall where
  | connect
  | release
  | setZero
  | getObservation
  | disconnect
  deriving DecidableEq

inductive LockParty where
  | command
  | broadcast
  | cleanup
  deriving DecidableEq

/-- Where the command loop is. A driver is the number of its building. -/
inductive CalibrationTask where
  | receiving
  | building
  | acquiring
  | connecting (driver : Nat)
  | releasing (driver : Nat)
  /-- A start has failed: its cleanup asks for the lock, with the driver taken out. -/
  | cleaning (driver : Nat)
  | disconnecting
  | zeroing (driver : Nat)
  | settingZero (driver : Nat)
  | checking
  deriving DecidableEq

inductive BroadcastTask where
  | waiting (driver : Nat)
  | reading
  deriving DecidableEq

/-- The cleanup when `run` ends. -/
inductive CalibrationEnd where
  | cleaning (driver : Nat)
  | disconnecting
  | ended
  deriving DecidableEq

structure ZeroCalibrationWorker where
  phase : ZeroCalibrationPhase := .waiting
  driver : Option Nat := none
  task : CalibrationTask := .receiving
  broadcast : Option BroadcastTask := none
  ending : Option CalibrationEnd := none
  lock : List LockParty := []
  built : Nat := 0
  /-- The calls that were issued, newest first. -/
  calls : List (Nat × DriverCall) := []
  deriving DecidableEq

inductive CalibrationEvent where
  | start
  | built
  | buildFailed
  | connectIssued
  | connected (releases : Bool)
  | connectFailed
  | released
  | releaseFailed
  | disconnectIssued
  | disconnected
  | setZero
  | setZeroIssued
  | zeroSet
  | setZeroFailed
  | checked
  | checkFailed
  | tick
  | readIssued
  | readEnded
  /-- The client has closed the websocket, which ends the command loop. -/
  | closed
  /-- The task of the websocket is cancelled. -/
  | cancelled
  | endDisconnectIssued
  | endDisconnected
  deriving DecidableEq

namespace ZeroCalibrationWorker

def request (worker : ZeroCalibrationWorker) (party : LockParty) : ZeroCalibrationWorker :=
  { worker with lock := worker.lock ++ [party] }

def holds (worker : ZeroCalibrationWorker) (party : LockParty) : Bool := decide (worker.lock.head? = some party)

def unlock (worker : ZeroCalibrationWorker) (party : LockParty) : ZeroCalibrationWorker :=
  { worker with lock := worker.lock.erase party }

def issue (worker : ZeroCalibrationWorker) (driver : Nat) (call : DriverCall) : ZeroCalibrationWorker :=
  { worker with calls := (driver, call) :: worker.calls }

/-- The error handler of a start, up to its first await. -/
def failStart (worker : ZeroCalibrationWorker) : ZeroCalibrationWorker :=
  match worker.driver with
  | none => { worker with phase := .waiting, task := .receiving }
  | some driver => request { worker with driver := none, task := .cleaning driver } .command

def stepCommand (worker : ZeroCalibrationWorker) : CalibrationEvent → Option ZeroCalibrationWorker
  -- A second start fails as a first one can, and its cleanup takes the driver of the first.
  | .start =>
    if worker.task ≠ .receiving then none
    else if worker.driver.isSome then some worker.failStart
    else some { worker with phase := .connecting, task := .building }
  | .built =>
    if worker.task ≠ .building then none else some (request { worker with task := .acquiring } .command)
  | .buildFailed => if worker.task ≠ .building then none else some worker.failStart
  | .connectIssued =>
    if worker.task ≠ .acquiring ∨ ¬worker.holds .command then none
    else some (issue { worker with task := .connecting worker.built, built := worker.built + 1 } worker.built .connect)
  | .connected releases => match worker.task with
    | .connecting driver =>
      if releases then some (issue { worker with driver := some driver, task := .releasing driver } driver .release)
      else some (unlock { worker with driver := some driver, task := .receiving, phase := .positioning } .command)
    | _ => none
  | .connectFailed => match worker.task with
    | .connecting _ => some (worker.unlock .command).failStart
    | _ => none
  | .released => match worker.task with
    | .releasing _ => some (unlock { worker with task := .receiving, phase := .positioning } .command)
    | _ => none
  | .releaseFailed => match worker.task with
    | .releasing _ => some (worker.unlock .command).failStart
    | _ => none
  | .disconnectIssued => match worker.task with
    | .cleaning driver =>
      if worker.holds .command then some (issue { worker with task := .disconnecting } driver .disconnect) else none
    | _ => none
  | .disconnected =>
    if worker.task ≠ .disconnecting then none
    else some (unlock { worker with task := .receiving, phase := .waiting } .command)
  | .setZero =>
    if worker.task ≠ .receiving then none
    else match worker.driver with
      | none => some worker
      | some driver => some (request { worker with task := .zeroing driver } .command)
  | .setZeroIssued => match worker.task with
    | .zeroing driver =>
      if worker.holds .command then some (issue { worker with task := .settingZero driver } driver .setZero) else none
    | _ => none
  | .zeroSet => match worker.task with
    | .settingZero driver => some (issue { worker with task := .checking } driver .getObservation)
    | _ => none
  -- The worker stays in its phase, so that the client can try again.
  | .setZeroFailed => match worker.task with
    | .settingZero _ => some (unlock { worker with task := .receiving } .command)
    | _ => none
  | .checked =>
    if worker.task ≠ .checking then none
    else some (unlock { worker with task := .receiving, phase := .verification } .command)
  | .checkFailed =>
    if worker.task ≠ .checking then none else some (unlock { worker with task := .receiving } .command)
  | _ => none

def stepBroadcast (worker : ZeroCalibrationWorker) : CalibrationEvent → Option ZeroCalibrationWorker
  | .tick =>
    -- A tick outside the two phases that show positions reads nothing.
    if worker.broadcast ≠ none ∨ ¬(worker.phase = .positioning ∨ worker.phase = .verification) then none
    else match worker.driver with
      | none => some worker
      | some driver => some (request { worker with broadcast := some (.waiting driver) } .broadcast)
  | .readIssued => match worker.broadcast with
    | some (.waiting driver) =>
      if worker.holds .broadcast then some (issue { worker with broadcast := some .reading } driver .getObservation)
      else none
    | _ => none
  | .readEnded =>
    if worker.broadcast ≠ some .reading then none else some (unlock { worker with broadcast := none } .broadcast)
  | _ => none

/-- Both loops end, and `run` cleans up. -/
def wind (worker : ZeroCalibrationWorker) : ZeroCalibrationWorker :=
  match worker.driver with
  | none => { worker with task := .receiving, broadcast := none, ending := some .ended, lock := [] }
  | some driver =>
    { worker with
      driver := none, task := .receiving, broadcast := none, ending := some (.cleaning driver), lock := [.cleanup] }

def step (worker : ZeroCalibrationWorker) (event : CalibrationEvent) : Option ZeroCalibrationWorker :=
  match worker.ending with
  -- Until the end commands and ticks interleave; from then on only the cleanup steps.
  | none => match event with
    | .closed => if worker.task ≠ .receiving then none else some worker.wind
    | .cancelled => some worker.wind
    | event => (worker.stepCommand event).or (worker.stepBroadcast event)
  | some (.cleaning driver) => match event with
    | .endDisconnectIssued => some (issue { worker with ending := some .disconnecting } driver .disconnect)
    | _ => none
  | some .disconnecting => match event with
    | .endDisconnected => some (unlock { worker with ending := some .ended } .cleanup)
    | _ => none
  | some .ended => none

end ZeroCalibrationWorker

def zeroCalibration : System ZeroCalibrationWorker CalibrationEvent where
  initial := {}
  step := ZeroCalibrationWorker.step

namespace ZeroCalibrationWorker

/-! ### What a run promises -/

def Silent : List (Nat × DriverCall) → Prop
  | [] => True
  | call :: older => (call.1, DriverCall.disconnect) ∉ older ∧ Silent older

def calibrating (worker : ZeroCalibrationWorker) : Prop :=
  worker.phase = .positioning ∨ worker.phase = .verification

def Untouched (worker : ZeroCalibrationWorker) (event : CalibrationEvent) : Prop :=
  event = .start → worker.driver.isSome = true → ∀ next, worker.step event = some next →
    next.driver = worker.driver ∧ next.phase = worker.phase

structure Promised (history : List CalibrationEvent) (worker : ZeroCalibrationWorker) : Prop where
  rejected : zeroCalibration.Throughout Untouched history
  connected : worker.ending = none → worker.calibrating →
    ∃ driver, worker.driver = some driver ∧ (driver, .connect) ∈ worker.calls ∧ (driver, .disconnect) ∉ worker.calls
  silent : Silent worker.calls
  disconnected : worker.phase = .waiting ∨ worker.ending = some .ended →
    ∀ driver, (driver, .connect) ∈ worker.calls → worker.calls.count (driver, .disconnect) = 1

/-- A task that alone knows a connected driver: it connects, or waits to disconnect after a failed start. -/
def alone (task : CalibrationTask) : Bool :=
  match task with
  | .connecting _ | .cleaning _ => true
  | _ => false

/-- No start comes while a calibration runs, no connect fails, and the websocket's task is not cancelled while a
connect runs or a failed start waits to disconnect. -/
def Careful (worker : ZeroCalibrationWorker) (event : CalibrationEvent) : Prop :=
  match event with
  | .start => worker.driver = none
  | .connectFailed => False
  | .cancelled => alone worker.task = false
  | _ => True

instance (worker : ZeroCalibrationWorker) (event : CalibrationEvent) : Decidable (worker.Careful event) :=
  match event with
  | .start => inferInstanceAs (Decidable (worker.driver = none))
  | .connectFailed => inferInstanceAs (Decidable False)
  | .cancelled => inferInstanceAs (Decidable (alone worker.task = false))
  | .built | .buildFailed | .connectIssued | .connected _ | .released | .releaseFailed | .disconnectIssued
  | .disconnected | .setZero | .setZeroIssued | .zeroSet | .setZeroFailed | .checked | .checkFailed | .tick
  | .readIssued | .readEnded | .closed | .endDisconnectIssued | .endDisconnected => inferInstanceAs (Decidable True)

/-! ### The invariant -/

def Holder (worker : ZeroCalibrationWorker) (driver : Nat) : Prop :=
  worker.driver = some driver ∨ worker.task = .connecting driver ∨ worker.task = .cleaning driver ∨
    worker.ending = some (.cleaning driver)

/-- A calibration runs, and the broadcast loop waits for its driver only. -/
structure Live (worker : ZeroCalibrationWorker) (current : Nat) : Prop where
  driver : worker.driver = some current
  phase : worker.calibrating
  broadcast : ∀ other, worker.broadcast = some (.waiting other) → other = current

structure Idle (worker : ZeroCalibrationWorker) (phase : ZeroCalibrationPhase) : Prop where
  driver : worker.driver = none
  phase : worker.phase = phase
  broadcast : worker.broadcast = none

def Shape (worker : ZeroCalibrationWorker) : Prop :=
  match worker.task with
  | .receiving => worker.Idle .waiting ∨ ∃ driver, worker.Live driver
  | .building | .acquiring | .connecting _ | .cleaning _ | .disconnecting => worker.Idle .connecting
  | .releasing driver => worker.driver = some driver ∧ worker.phase = .connecting ∧ worker.broadcast = none
  | .zeroing driver | .settingZero driver => worker.Live driver
  | .checking => ∃ driver, worker.Live driver

/-- The loops are over. A driver that waits for its disconnect comes from a calibration. -/
structure Ended (worker : ZeroCalibrationWorker) : Prop where
  driver : worker.driver = none
  task : worker.task = .receiving
  phase : ∀ driver, worker.ending = some (.cleaning driver) → worker.phase ≠ .waiting

structure Inv (worker : ZeroCalibrationWorker) : Prop where
  silent : Silent worker.calls
  below : ∀ call ∈ worker.calls, call.1 < worker.built
  held : ∀ driver, worker.Holder driver → (driver, .connect) ∈ worker.calls ∧ (driver, .disconnect) ∉ worker.calls
  freed : ∀ driver, (driver, .connect) ∈ worker.calls →
    worker.Holder driver ∨ (driver, .disconnect) ∈ worker.calls
  shape : worker.ending = none → worker.Shape
  ended : worker.ending ≠ none → worker.Ended

variable {worker next : ZeroCalibrationWorker}

/-- A step without a call. -/
theorem Inv.move (inv : worker.Inv) (calls : next.calls = worker.calls) (built : next.built = worker.built)
    (holders : ∀ driver, next.Holder driver ↔ worker.Holder driver) (shape : next.ending = none → next.Shape)
    (ended : next.ending ≠ none → next.Ended) : next.Inv where
  silent := calls ▸ inv.silent
  below := by
    rw [calls, built]
    exact inv.below
  held driver holder := by
    rw [calls]
    exact inv.held driver ((holders driver).mp holder)
  freed driver connected := by
    rw [calls] at connected ⊢
    exact (inv.freed driver connected).imp_left (holders driver).mpr
  shape := shape
  ended := ended

theorem Inv.call (inv : worker.Inv) {driver : Nat} {call : DriverCall} (kind : call ≠ .connect ∧ call ≠ .disconnect)
    (holder : worker.Holder driver) (calls : next.calls = (driver, call) :: worker.calls)
    (built : next.built = worker.built) (holders : ∀ other, next.Holder other ↔ worker.Holder other)
    (shape : next.ending = none → next.Shape)
    (ended : next.ending ≠ none → next.Ended) : next.Inv where
  silent := by
    rw [calls]
    exact ⟨(inv.held driver holder).2, inv.silent⟩
  below := by
    rw [calls, built]
    intro other member
    rcases List.mem_cons.mp member with same | older
    · have bound : driver < worker.built := inv.below _ (inv.held driver holder).1
      rw [same]
      exact bound
    · exact inv.below other older
  held other held := by
    obtain ⟨connected, open_⟩ := inv.held other ((holders other).mp held)
    rw [calls]
    refine ⟨List.mem_cons_of_mem _ connected, ?_⟩
    intro member
    rcases List.mem_cons.mp member with same | older
    · exact kind.2 (Prod.mk.inj same).2.symm
    · exact open_ older
  freed other connected := by
    rw [calls] at connected ⊢
    have earlier : (other, DriverCall.connect) ∈ worker.calls := by
      rcases List.mem_cons.mp connected with same | older
      · exact absurd (Prod.mk.inj same).2.symm kind.1
      · exact older
    exact (inv.freed other earlier).imp (holders other).mpr (List.mem_cons_of_mem _)
  shape := shape
  ended := ended

theorem Inv.disconnect (inv : worker.Inv) {driver : Nat} (holder : worker.Holder driver)
    (only : ∀ other, worker.Holder other → other = driver) (calls : next.calls = (driver, .disconnect) :: worker.calls)
    (built : next.built = worker.built) (released : ∀ other, ¬next.Holder other)
    (shape : next.ending = none → next.Shape)
    (ended : next.ending ≠ none → next.Ended) : next.Inv where
  silent := by
    rw [calls]
    exact ⟨(inv.held driver holder).2, inv.silent⟩
  below := by
    rw [calls, built]
    intro other member
    rcases List.mem_cons.mp member with same | older
    · have bound : driver < worker.built := inv.below _ (inv.held driver holder).1
      rw [same]
      exact bound
    · exact inv.below other older
  held other held := absurd held (released other)
  freed other connected := by
    rw [calls] at connected ⊢
    have earlier : (other, DriverCall.connect) ∈ worker.calls := by
      rcases List.mem_cons.mp connected with same | older
      · cases (Prod.mk.inj same).2
      · exact older
    right
    rcases inv.freed other earlier with held | gone
    · rw [only other held]
      exact List.mem_cons_self
    · exact List.mem_cons_of_mem _ gone
  shape := shape
  ended := ended

theorem Inv.connect (inv : worker.Inv) (unheld : ∀ driver, ¬worker.Holder driver)
    (calls : next.calls = (worker.built, .connect) :: worker.calls) (built : next.built = worker.built + 1)
    (holders : ∀ driver, next.Holder driver ↔ driver = worker.built) (shape : next.ending = none → next.Shape)
    (ended : next.ending ≠ none → next.Ended) : next.Inv where
  silent := by
    rw [calls]
    exact ⟨fun member => absurd (inv.below _ member) (Nat.lt_irrefl _), inv.silent⟩
  below := by
    rw [calls, built]
    intro other member
    rcases List.mem_cons.mp member with same | older
    · rw [same]
      exact Nat.lt_succ_self _
    · exact Nat.lt_trans (inv.below other older) (Nat.lt_succ_self _)
  held driver held := by
    rw [(holders driver).mp held, calls]
    refine ⟨List.mem_cons_self, ?_⟩
    intro member
    rcases List.mem_cons.mp member with same | older
    · cases (Prod.mk.inj same).2
    · exact absurd (inv.below _ older) (Nat.lt_irrefl _)
  freed driver connected := by
    rw [calls] at connected ⊢
    rcases List.mem_cons.mp connected with same | older
    · exact Or.inl ((holders driver).mpr (Prod.mk.inj same).1)
    · rcases inv.freed driver older with held | gone
      · exact absurd held (unheld driver)
      · exact Or.inr (List.mem_cons_of_mem _ gone)
  shape := shape
  ended := ended

theorem Idle.unheld {phase : ZeroCalibrationPhase} (idle : worker.Idle phase) (running : worker.ending = none)
    (connecting : ∀ driver, worker.task ≠ .connecting driver) (cleaning : ∀ driver, worker.task ≠ .cleaning driver)
    (driver : Nat) : ¬worker.Holder driver := by
  rintro (held | held | held | held)
  · exact Option.some_ne_none driver (held.symm.trans idle.driver)
  · exact connecting driver held
  · exact cleaning driver held
  · exact Option.some_ne_none _ (held.symm.trans running)

/-- A step without a call, after which the loops run on. -/
theorem Inv.moves (inv : worker.Inv) (running : next.ending = none) (calls : next.calls = worker.calls)
    (built : next.built = worker.built) (holders : ∀ driver, next.Holder driver ↔ worker.Holder driver)
    (shape : next.Shape) : next.Inv :=
  inv.move calls built holders (fun _ => shape) fun wound => absurd running wound

theorem Inv.calls (inv : worker.Inv) (running : next.ending = none) {driver : Nat} {call : DriverCall}
    (kind : call ≠ .connect ∧ call ≠ .disconnect) (holder : worker.Holder driver)
    (calls : next.calls = (driver, call) :: worker.calls) (built : next.built = worker.built)
    (holders : ∀ other, next.Holder other ↔ worker.Holder other) (shape : next.Shape) : next.Inv :=
  inv.call kind holder calls built holders (fun _ => shape) fun wound => absurd running wound

theorem Live.fresh {current : Nat} (driver : worker.driver = some current) (phase : worker.calibrating)
    (broadcast : worker.broadcast = none) : worker.Live current :=
  ⟨driver, phase, fun _ waiting => absurd (waiting.symm.trans broadcast) (Option.some_ne_none _)⟩

/-! ### A start -/

theorem Inv.started (inv : worker.Inv) (running : worker.ending = none) (receiving : worker.task = .receiving)
    (unset : worker.driver = none) : Inv { worker with phase := .connecting, task := .building } := by
  refine inv.moves running rfl rfl ?_ ?_
  · intro other
    simp [Holder, receiving]
  · have shape := inv.shape running
    rcases (by simpa [Shape, receiving] using shape : _ ∨ _) with idle | ⟨driver, live⟩
    · exact ⟨idle.driver, rfl, idle.broadcast⟩
    · simp [live.driver] at unset

theorem Inv.built (inv : worker.Inv) (running : worker.ending = none) (building : worker.task = .building) :
    Inv (request { worker with task := .acquiring } .command) := by
  have idle : worker.Idle .connecting := by simpa [Shape, building] using inv.shape running
  refine inv.moves running rfl rfl ?_ ⟨idle.driver, idle.phase, idle.broadcast⟩
  intro other
  simp [Holder, request, building]

theorem Inv.buildFailed (inv : worker.Inv) (running : worker.ending = none) (building : worker.task = .building) :
    worker.failStart.Inv := by
  have idle : worker.Idle .connecting := by simpa [Shape, building] using inv.shape running
  rw [failStart, idle.driver]
  refine inv.moves running rfl rfl ?_ (Or.inl ⟨rfl, rfl, idle.broadcast⟩)
  intro other
  simp [Holder, building, idle.driver]

theorem Inv.connectIssued (inv : worker.Inv) (running : worker.ending = none) (acquiring : worker.task = .acquiring) :
    Inv (issue { worker with task := .connecting worker.built, built := worker.built + 1 } worker.built .connect) := by
  have idle : worker.Idle .connecting := by simpa [Shape, acquiring] using inv.shape running
  refine inv.connect (idle.unheld running ?_ ?_) rfl rfl ?_ (fun _ => ⟨idle.driver, idle.phase, idle.broadcast⟩)
    fun wound => absurd running wound
  · intro driver
    simp [acquiring]
  · intro driver
    simp [acquiring]
  · intro other
    simp [Holder, issue, idle.driver, running, eq_comm]

theorem Inv.connected {driver : Nat} (inv : worker.Inv) (running : worker.ending = none)
    (connecting : worker.task = .connecting driver) :
    Inv (issue { worker with driver := some driver, task := .releasing driver } driver .release) := by
  have idle : worker.Idle .connecting := by simpa [Shape, connecting] using inv.shape running
  refine inv.calls running ⟨by decide, by decide⟩ (Or.inr (Or.inl connecting)) rfl rfl ?_
    ⟨rfl, idle.phase, idle.broadcast⟩
  intro other
  simp [Holder, issue, connecting, idle.driver]

theorem Inv.positioned {driver : Nat} (inv : worker.Inv) (running : worker.ending = none)
    (connecting : worker.task = .connecting driver) :
    Inv (unlock { worker with driver := some driver, task := .receiving, phase := .positioning } .command) := by
  have idle : worker.Idle .connecting := by simpa [Shape, connecting] using inv.shape running
  refine inv.moves running rfl rfl ?_ (Or.inr ⟨driver, Live.fresh rfl (Or.inl rfl) idle.broadcast⟩)
  intro other
  simp [Holder, unlock, connecting, idle.driver]

theorem Inv.releasing {driver : Nat} (inv : worker.Inv) (running : worker.ending = none)
    (releasing : worker.task = .releasing driver) :
    worker.driver = some driver ∧ worker.phase = .connecting ∧ worker.broadcast = none := by
  simpa [Shape, releasing] using inv.shape running

theorem Inv.released {driver : Nat} (inv : worker.Inv) (running : worker.ending = none)
    (releasing : worker.task = .releasing driver) :
    Inv (unlock { worker with task := .receiving, phase := .positioning } .command) := by
  obtain ⟨current, _, quiet⟩ := inv.releasing running releasing
  refine inv.moves running rfl rfl ?_ (Or.inr ⟨driver, Live.fresh current (Or.inl rfl) quiet⟩)
  intro other
  simp [Holder, unlock, releasing]

theorem Inv.releaseFailed {driver : Nat} (inv : worker.Inv) (running : worker.ending = none)
    (releasing : worker.task = .releasing driver) : (worker.unlock .command).failStart.Inv := by
  obtain ⟨current, connecting, quiet⟩ := inv.releasing running releasing
  rw [failStart, show (worker.unlock .command).driver = some driver from current]
  refine inv.moves running rfl rfl ?_ ⟨rfl, connecting, quiet⟩
  intro other
  simp [Holder, request, unlock, releasing, current]

theorem Inv.disconnectIssued {driver : Nat} (inv : worker.Inv) (running : worker.ending = none)
    (cleaning : worker.task = .cleaning driver) :
    Inv (issue { worker with task := .disconnecting } driver .disconnect) := by
  have idle : worker.Idle .connecting := by simpa [Shape, cleaning] using inv.shape running
  refine inv.disconnect (Or.inr (Or.inr (Or.inl cleaning))) ?_ rfl rfl ?_
    (fun _ => ⟨idle.driver, idle.phase, idle.broadcast⟩) fun wound => absurd running wound
  · intro other held
    simpa [Holder, cleaning, idle.driver, running, eq_comm] using held
  · intro other
    simp [Holder, issue, idle.driver, running]

theorem Inv.restarts (inv : worker.Inv) (running : worker.ending = none) (disconnecting : worker.task = .disconnecting) :
    Inv (unlock { worker with task := .receiving, phase := .waiting } .command) := by
  have idle : worker.Idle .connecting := by simpa [Shape, disconnecting] using inv.shape running
  refine inv.moves running rfl rfl ?_ (Or.inl ⟨idle.driver, rfl, idle.broadcast⟩)
  intro other
  simp [Holder, unlock, disconnecting]

/-! ### A zero -/

theorem Inv.setZero {driver : Nat} (inv : worker.Inv) (running : worker.ending = none)
    (receiving : worker.task = .receiving) (current : worker.driver = some driver) :
    Inv (request { worker with task := .zeroing driver } .command) := by
  refine inv.moves running rfl rfl ?_ ?_
  · intro other
    simp [Holder, request, receiving]
  · have shape := inv.shape running
    rcases (by simpa [Shape, receiving] using shape : _ ∨ _) with idle | ⟨other, live⟩
    · exact absurd (current.symm.trans idle.driver) (Option.some_ne_none _)
    · cases current.symm.trans live.driver
      exact ⟨live.driver, live.phase, live.broadcast⟩

theorem Inv.setZeroIssued {driver : Nat} (inv : worker.Inv) (running : worker.ending = none)
    (zeroing : worker.task = .zeroing driver) :
    Inv (issue { worker with task := .settingZero driver } driver .setZero) := by
  have live : worker.Live driver := by simpa [Shape, zeroing] using inv.shape running
  refine inv.calls running ⟨by decide, by decide⟩ (Or.inl live.driver) rfl rfl ?_ ⟨live.driver, live.phase, live.broadcast⟩
  intro other
  simp [Holder, issue, zeroing]

theorem Inv.zeroSet {driver : Nat} (inv : worker.Inv) (running : worker.ending = none)
    (setting : worker.task = .settingZero driver) :
    Inv (issue { worker with task := .checking } driver .getObservation) := by
  have live : worker.Live driver := by simpa [Shape, setting] using inv.shape running
  refine inv.calls running ⟨by decide, by decide⟩ (Or.inl live.driver) rfl rfl ?_
    ⟨driver, live.driver, live.phase, live.broadcast⟩
  intro other
  simp [Holder, issue, setting]

theorem Inv.setZeroFailed {driver : Nat} (inv : worker.Inv) (running : worker.ending = none)
    (setting : worker.task = .settingZero driver) : Inv (unlock { worker with task := .receiving } .command) := by
  have live : worker.Live driver := by simpa [Shape, setting] using inv.shape running
  refine inv.moves running rfl rfl ?_ (Or.inr ⟨driver, live.driver, live.phase, live.broadcast⟩)
  intro other
  simp [Holder, unlock, setting]

theorem Inv.checked {phase : ZeroCalibrationPhase} (inv : worker.Inv) (running : worker.ending = none)
    (checking : worker.task = .checking) (phases : phase = worker.phase ∨ phase = .verification) :
    Inv (unlock { worker with task := .receiving, phase := phase } .command) := by
  obtain ⟨driver, live⟩ : ∃ driver, worker.Live driver := by simpa [Shape, checking] using inv.shape running
  refine inv.moves running rfl rfl ?_ (Or.inr ⟨driver, live.driver, ?_, live.broadcast⟩)
  · intro other
    simp [Holder, unlock, checking]
  · rcases phases with rfl | rfl
    · exact live.phase
    · exact Or.inr rfl

theorem Inv.command (inv : worker.Inv) {event : CalibrationEvent} (running : worker.ending = none)
    (careful : worker.Careful event) (stepped : worker.stepCommand event = some next) : next.Inv := by
  revert stepped
  fun_cases stepCommand worker event <;> intro stepped <;> cases stepped
  case case2.refl _ started => simp [show worker.driver = none from careful] at started
  case case3.refl task _ => exact inv.started running (not_not.mp task) careful
  case case5.refl task => exact inv.built running (not_not.mp task)
  case case7.refl task => exact inv.buildFailed running (not_not.mp task)
  case case9.refl guard => exact inv.connectIssued running (not_not.mp (not_or.mp guard).1)
  case case10.refl driver connecting => exact inv.connected running connecting
  case case11.refl driver connecting _ => exact inv.positioned running connecting
  case case13.refl => exact careful.elim
  case case15.refl driver releasing => exact inv.released running releasing
  case case17.refl driver releasing => exact inv.releaseFailed running releasing
  case case19.refl driver cleaning _ => exact inv.disconnectIssued running cleaning
  case case23.refl task => exact inv.restarts running (not_not.mp task)
  case case25.refl => exact inv
  case case26.refl task driver current => exact inv.setZero running (not_not.mp task) current
  case case27.refl driver zeroing _ => exact inv.setZeroIssued running zeroing
  case case30.refl driver setting => exact inv.zeroSet running setting
  case case32.refl driver setting => exact inv.setZeroFailed running setting
  case case35.refl task => exact inv.checked running (not_not.mp task) (Or.inr rfl)
  case case37.refl task => exact inv.checked running (not_not.mp task) (Or.inl rfl)

theorem Shape.live (shape : worker.Shape) (busy : worker.broadcast ≠ none ∨ worker.calibrating) :
    ∃ driver, worker.Live driver := by
  have idle {phase : ZeroCalibrationPhase} (rest : phase = .waiting ∨ phase = .connecting)
      (idle : worker.Idle phase) : False := by
    rcases busy with heard | running
    · exact heard idle.broadcast
    · rw [calibrating, idle.phase] at running
      rcases rest with rfl | rfl <;> simp at running
  unfold Shape at shape
  split at shape
  · rcases shape with rest | live
    · exact (idle (Or.inl rfl) rest).elim
    · exact live
  · exact (idle (Or.inr rfl) shape).elim
  · exact (idle (Or.inr rfl) shape).elim
  · exact (idle (Or.inr rfl) shape).elim
  · exact (idle (Or.inr rfl) shape).elim
  · exact (idle (Or.inr rfl) shape).elim
  · rcases busy with heard | running
    · exact absurd shape.2.2 heard
    · simp [calibrating, shape.2.1] at running
  · exact ⟨_, shape⟩
  · exact ⟨_, shape⟩
  · exact shape

/-- A calibration goes on when only the broadcast loop moves. -/
theorem Shape.listens {current : Nat} (shape : worker.Shape) (live : worker.Live current)
    (driver : next.driver = worker.driver) (phase : next.phase = worker.phase) (task : next.task = worker.task)
    (broadcast : ∀ other, next.broadcast = some (.waiting other) → other = current) : next.Shape := by
  have again : next.Live current := by
    refine ⟨driver.trans live.driver, ?_, broadcast⟩
    rw [calibrating, phase]
    exact live.phase
  have same {other : Nat} (alive : worker.Live other) : other = current :=
    Option.some.inj (alive.driver.symm.trans live.driver)
  have busy {rest : ZeroCalibrationPhase} (idle : worker.Idle rest) : False :=
    Option.some_ne_none _ (live.driver.symm.trans idle.driver)
  unfold Shape at shape ⊢
  rw [task]
  split at shape
  · exact Or.inr ⟨current, again⟩
  · exact (busy shape).elim
  · exact (busy shape).elim
  · exact (busy shape).elim
  · exact (busy shape).elim
  · exact (busy shape).elim
  · have running := live.phase
    simp [calibrating, shape.2.1] at running
  · exact same shape ▸ again
  · exact same shape ▸ again
  · exact ⟨current, again⟩

theorem Inv.broadcast (inv : worker.Inv) {event : CalibrationEvent} (running : worker.ending = none)
    (stepped : worker.stepBroadcast event = some next) : next.Inv := by
  have shape := inv.shape running
  have ended {later : ZeroCalibrationWorker} (same : later.ending = worker.ending) (wound : later.ending ≠ none) :
      later.Ended := absurd (same.trans running) wound
  revert stepped
  fun_cases stepBroadcast worker event <;> intro stepped <;> cases stepped
  case case2.refl => exact inv
  -- A tick asks for the bus lock with the driver that is there.
  case case3.refl guard driver current =>
    obtain ⟨other, live⟩ := shape.live (Or.inr (not_not.mp (not_or.mp guard).2))
    cases current.symm.trans live.driver
    refine inv.move rfl rfl (fun other => Iff.rfl) ?_ (ended rfl)
    intro _
    refine shape.listens live rfl rfl rfl ?_
    intro other waiting
    cases waiting
    rfl
  case case4.refl driver waiting _ =>
    obtain ⟨other, live⟩ := shape.live (Or.inl (by simp [waiting]))
    cases live.broadcast driver waiting
    refine inv.call ⟨by decide, by decide⟩ (Or.inl live.driver) rfl rfl (fun other => Iff.rfl) ?_ (ended rfl)
    intro _
    refine shape.listens live rfl rfl rfl ?_
    intro other reading
    cases reading
  case case8.refl guard =>
    obtain ⟨other, live⟩ := shape.live (Or.inl (by simp [not_not.mp guard]))
    refine inv.move rfl rfl (fun other => Iff.rfl) ?_ (ended rfl)
    intro _
    refine shape.listens live rfl rfl rfl ?_
    intro other waiting
    cases waiting

theorem Shape.unset (shape : worker.Shape) (waiting : worker.phase = .waiting) :
    worker.Idle .waiting ∧ worker.task = .receiving := by
  have connecting (idle : worker.Idle .connecting) : False := by simp [idle.phase] at waiting
  have live {driver : Nat} (live : worker.Live driver) : False := by
    have running := live.phase
    simp [calibrating, waiting] at running
  unfold Shape at shape
  split at shape
  next receiving =>
    rcases shape with idle | ⟨driver, alive⟩
    · exact ⟨idle, receiving⟩
    · exact (live alive).elim
  · exact (connecting shape).elim
  · exact (connecting shape).elim
  · exact (connecting shape).elim
  · exact (connecting shape).elim
  · exact (connecting shape).elim
  · simp [shape.2.1] at waiting
  · exact (live shape).elim
  · exact (live shape).elim
  · obtain ⟨driver, alive⟩ := shape
    exact (live alive).elim

/-- When both loops end, a driver in hand is left to the cleanup. -/
theorem Inv.winds (inv : worker.Inv) (running : worker.ending = none)
    (careful : alone worker.task = false) : worker.wind.Inv := by
  have ending : worker.wind.ending ≠ none := by
    unfold wind
    split <;> simp
  refine inv.move ?_ ?_ ?_ (fun running => absurd running ending) ?_
  · unfold wind
    split <;> rfl
  · unfold wind
    split <;> rfl
  · intro driver
    -- No task holds a driver of its own, so the current one is the only one left.
    have connecting : worker.task ≠ .connecting driver := by
      intro task
      simp [alone, task] at careful
    have cleaning : worker.task ≠ .cleaning driver := by
      intro task
      simp [alone, task] at careful
    unfold wind
    split
    next unset => simp [Holder, unset, connecting, cleaning, running]
    next current set => simp [Holder, set, connecting, cleaning, running]
  · intro _
    have shape := inv.shape running
    unfold wind
    split
    next unset => exact ⟨unset, rfl, fun driver cleaning => by cases cleaning⟩
    next current set =>
      refine ⟨rfl, rfl, ?_⟩
      intro driver _ waiting
      exact Option.some_ne_none _ (set.symm.trans (shape.unset waiting).1.driver)

theorem Inv.steps (inv : worker.Inv) {event : CalibrationEvent} (careful : worker.Careful event)
    (stepped : worker.step event = some next) : next.Inv := by
  revert stepped
  fun_cases step worker event <;> intro stepped <;> try cases stepped
  case case2.refl running task =>
    refine inv.winds running ?_
    simp [not_not.mp task, alone]
  case case3.refl running => exact inv.winds running careful
  case case4 running _ _ =>
    rcases Option.or_eq_some_iff.mp stepped with command | ⟨_, broadcast⟩
    · exact inv.command running careful command
    · exact inv.broadcast running broadcast
  case case5.refl driver cleaning =>
    have wound := inv.ended (by simp [cleaning])
    refine inv.disconnect (Or.inr (Or.inr (Or.inr cleaning))) ?_ rfl rfl ?_ ?_ ?_
    · intro other held
      simpa [Holder, wound.driver, wound.task, cleaning, eq_comm] using held
    · intro other
      simp [Holder, issue, wound.driver, wound.task]
    · intro running
      cases running
    · intro _
      exact ⟨wound.driver, wound.task, fun other waits => by cases waits⟩
  case case7.refl disconnecting =>
    have wound := inv.ended (by simp [disconnecting])
    refine inv.move rfl rfl ?_ ?_ ?_
    · intro other
      simp [Holder, unlock, wound.driver, wound.task, disconnecting]
    · intro running
      cases running
    · intro _
      exact ⟨wound.driver, wound.task, fun other waits => by cases waits⟩

theorem Inv.initial : Inv {} where
  silent := trivial
  below call member := by cases member
  held driver holder := by simp [Holder] at holder
  freed driver connected := by cases connected
  shape _ := Or.inl ⟨rfl, rfl, rfl⟩
  ended wound := absurd rfl wound

theorem Silent.once {calls : List (Nat × DriverCall)} (silent : Silent calls) {driver : Nat}
    (gone : (driver, .disconnect) ∈ calls) : calls.count (driver, .disconnect) = 1 := by
  induction calls with
  | nil => cases gone
  | cons call older ih =>
    obtain ⟨fresh, earlier⟩ := silent
    by_cases here : call = (driver, .disconnect)
    · subst here
      rw [List.count_cons_self, List.count_eq_zero.mpr fresh]
    · rw [List.count_cons_of_ne here]
      exact ih earlier ((List.mem_cons.mp gone).resolve_left (Ne.symm here))

theorem Inv.unheld (inv : worker.Inv) (rest : worker.phase = .waiting ∨ worker.ending = some .ended) (driver : Nat) :
    ¬worker.Holder driver := by
  by_cases running : worker.ending = none
  · obtain ⟨idle, receiving⟩ := (inv.shape running).unset (rest.resolve_right (by simp [running]))
    refine idle.unheld running ?_ ?_ driver
    · simp [receiving]
    · simp [receiving]
  · have wound := inv.ended running
    rintro (held | held | held | held)
    · exact Option.some_ne_none _ (held.symm.trans wound.driver)
    · cases held.symm.trans wound.task
    · cases held.symm.trans wound.task
    · rcases rest with waiting | ended
      · exact wound.phase driver held waiting
      · cases held.symm.trans ended

theorem Inv.disconnected (inv : worker.Inv) (rest : worker.phase = .waiting ∨ worker.ending = some .ended)
    {driver : Nat} (connected : (driver, .connect) ∈ worker.calls) :
    worker.calls.count (driver, .disconnect) = 1 :=
  inv.silent.once ((inv.freed driver connected).resolve_left (inv.unheld rest driver))

end ZeroCalibrationWorker

/-- In careful runs, a calibration has its driver connected, and each driver is disconnected once, as its last call,
by the time the worker waits again or ends. -/
theorem zero_calibration_disconnects {history : List CalibrationEvent} {worker : ZeroCalibrationWorker}
    (careful : zeroCalibration.Throughout ZeroCalibrationWorker.Careful history)
    (reached : zeroCalibration.reached history = some worker) : ZeroCalibrationWorker.Promised history worker := by
  have inv : worker.Inv :=
    System.invariant ZeroCalibrationWorker.Inv.initial (fun _ _ _ inv careful stepped => inv.steps careful stepped)
      careful reached
  refine ⟨careful.mono ?_, ?_, inv.silent, fun rest driver => inv.disconnected rest⟩
  · rintro before event here rfl started
    simp [show before.driver = none from here] at started
  · intro running calibrating
    obtain ⟨driver, live⟩ := (inv.shape running).live (Or.inr calibrating)
    exact ⟨driver, live.driver, inv.held driver (Or.inl live.driver)⟩

/-- The robot is calibrated, and the client leaves. -/
def calibrationRun : List CalibrationEvent :=
  [.endDisconnected, .endDisconnectIssued, .closed, .checked, .zeroSet, .setZeroIssued, .setZero, .readEnded,
    .readIssued, .tick, .released, .connected true, .connectIssued, .built, .start]

theorem calibration_run_disconnects : ∃ worker, zeroCalibration.reached calibrationRun = some worker ∧
    ZeroCalibrationWorker.Promised calibrationRun worker := by
  have careful : zeroCalibration.Throughout ZeroCalibrationWorker.Careful calibrationRun := by
    decide
  exact ⟨_, rfl, zero_calibration_disconnects careful rfl⟩

/-- A second start while the arm is positioned takes the driver of the running calibration. -/
theorem duplicate_start_disconnects :
    ¬∀ history worker, zeroCalibration.reached history = some worker → ZeroCalibrationWorker.Promised history worker := by
  intro every
  have promised := every [.start, .released, .connected true, .connectIssued, .built, .start] _ rfl
  have untouched := (System.throughout_cons rfl).mp promised.rejected
  cases (untouched.1 rfl rfl _ rfl).1

end PhysicalAiStudio.Robots
