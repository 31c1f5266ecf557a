import Mathlib.Algebra.Order.BigOperators.Group.List
import Mathlib.Algebra.Order.Ring.Nat
import PhysicalAiStudio.Remote.SshTunnel

/-! The slots of an alias and what its tunnels hold.

A slot is free or held by one transport, whatever is cancelled and wherever. A tunnel has
its transport in one of its fields or variables at a time: `_transport`, a local variable of
`_connect_and_forward`, or one of `close`.
-/

set_option autoImplicit false

namespace PhysicalAiStudio.Remote.Ssh

open Concurrency

namespace Attempt

def slots (attempt : Attempt) : Nat := (attempt.transports.map Transport.slots).sum

end Attempt

namespace Watchdog

def slots : Watchdog → Nat
  | reconnecting attempt => attempt.slots
  | _ => 0

def transports : Watchdog → List Transport
  | reconnecting attempt => attempt.transports
  | _ => []

def listeners : Watchdog → List Nat
  | reconnecting attempt => attempt.listeners
  | _ => []

end Watchdog

namespace Call

def slots : Call → Nat
  | opening _ attempt => attempt.slots
  | closingTransport transport => transport.slots
  | _ => 0

def transports : Call → List Transport
  | opening _ attempt => attempt.transports
  | closingTransport transport => [transport]
  | _ => []

def listeners : Call → List Nat
  | opening _ attempt => attempt.listeners
  | closingListener port => [port]
  | _ => []

end Call

namespace Tunnel

/-- Every transport that a tunnel holds, in a field or in a local variable of a method. -/
def transports (tunnel : Tunnel) : List Transport :=
  tunnel.transport.toList ++ tunnel.watchdog.transports ++ tunnel.call.transports

/-- The ports of every listener that it holds, those that are being closed among them. -/
def listeners (tunnel : Tunnel) : List Nat :=
  tunnel.listener.toList ++ tunnel.watchdog.listeners ++ tunnel.call.listeners

def slots (tunnel : Tunnel) : Nat := (tunnel.transports.map Transport.slots).sum

def connections (tunnel : Tunnel) : Nat := (tunnel.transports.map Transport.connections).sum

end Tunnel

namespace Alias

def held (host : Alias) : Nat := (host.sessions.map Transport.slots).sum + (host.tunnels.map Tunnel.slots).sum

/-- The connections to the alias that are open or being dialed. -/
def connections (host : Alias) : Nat :=
  (host.sessions.map Transport.connections).sum + (host.tunnels.map Tunnel.connections).sum

end Alias

@[simp] theorem Gate.release_free (gate : Gate) : gate.release.free = gate.free + 1 := rfl

namespace Transport

def connecting (phase : Phase) : Transport := ⟨false, false, some (.connect phase)⟩

def connected : Transport := ⟨true, true, none⟩

def closing : Transport := ⟨false, false, some (.close true)⟩

/-- The states that the methods leave a transport in. -/
inductive Sound : Transport → Prop where
  | fresh : Sound fresh
  | connecting (phase : Phase) : Sound (connecting phase)
  | connected : Sound connected
  | closing : Sound closing

@[simp] theorem slots_fresh : fresh.slots = 0 := rfl
@[simp] theorem slots_connected : connected.slots = 1 := rfl
@[simp] theorem slots_closing : closing.slots = 1 := rfl
@[simp] theorem connect_fresh : fresh.connect = connecting .slot := rfl
@[simp] theorem connect_connected : connected.connect = connected := rfl
@[simp] theorem slots_connecting : (connecting .slot).slots = 0 := rfl
@[simp] theorem close_fresh (gate : Gate) : fresh.close gate = (gate, fresh, some .returned) := rfl
@[simp] theorem close_connected (gate : Gate) : connected.close gate = (gate, closing, none) := rfl

theorem Sound.covered {transport : Transport} (sound : transport.Sound) : transport.connections ≤ transport.slots := by
  cases sound with
  | connecting phase => cases phase <;> decide
  | fresh => decide
  | connected => decide
  | closing => decide

variable {settings : Settings} {gate gate' : Gate} {transport' : Transport} {wake : Wake} {ending : Option Ending}

theorem throttle_connecting {phase : Phase} {now : Int}
    (step : throttle settings gate (connecting phase) now = (gate', transport', ending)) :
    gate'.free + transport'.slots = gate.free + 1 ∧ ending = none ∧ ∃ next, transport' = connecting next := by
  unfold throttle at step
  split at step
  · obtain ⟨rfl, rfl, rfl⟩ := step
    exact ⟨rfl, rfl, .throttle, rfl⟩
  · obtain ⟨rfl, rfl, rfl⟩ := step
    exact ⟨rfl, rfl, .dial, rfl⟩

/-- From one await of `connect` to the next: it goes on, it has its connection, or it has given back its slot. -/
theorem resume_connecting {phase : Phase}
    (step : (connecting phase).resume settings gate wake = some (gate', transport', ending)) :
    gate'.free + transport'.slots = gate.free + (connecting phase).slots ∧
      ((ending = none ∧ ∃ next, transport' = connecting next) ∨
        (ending = some .returned ∧ transport' = connected) ∨
        ((ending = some .raised ∨ ending = some .cancelled) ∧ transport' = fresh)) := by
  -- The slot is taken at the first phase and given back by every end but the success.
  cases phase with
  | slot =>
    cases wake with
    | finished now =>
      simp only [resume, connecting] at step
      split at step
      · cases step
      · next some_free =>
        obtain ⟨rfl, rfl, rfl⟩ := step
        refine ⟨?_, .inl ⟨rfl, .lock, rfl⟩⟩
        simp only [slots, connecting]
        omega
    | cancelled =>
      obtain ⟨rfl, rfl, rfl⟩ := step
      exact ⟨rfl, .inr (.inr ⟨.inr rfl, rfl⟩)⟩
    | bound choice => cases step
    | error osError => cases step
  | lock =>
    cases wake with
    | finished now =>
      simp only [resume, connecting] at step
      split at step
      · cases step
      · obtain ⟨kept, goes, next⟩ := throttle_connecting (Option.some.inj step)
        exact ⟨kept, .inl ⟨goes, next⟩⟩
    | cancelled =>
      obtain ⟨rfl, rfl, rfl⟩ := step
      exact ⟨rfl, .inr (.inr ⟨.inr rfl, rfl⟩)⟩
    | bound choice => cases step
    | error osError => cases step
  | throttle =>
    cases wake with
    | finished now =>
      obtain ⟨rfl, rfl, rfl⟩ := step
      exact ⟨rfl, .inl ⟨rfl, .dial, rfl⟩⟩
    | cancelled =>
      obtain ⟨rfl, rfl, rfl⟩ := step
      exact ⟨rfl, .inr (.inr ⟨.inr rfl, rfl⟩)⟩
    | bound choice => cases step
    | error osError => cases step
  | dial =>
    cases wake with
    | finished now =>
      obtain ⟨rfl, rfl, rfl⟩ := step
      exact ⟨rfl, .inr (.inl ⟨rfl, rfl⟩)⟩
    | cancelled =>
      obtain ⟨rfl, rfl, rfl⟩ := step
      exact ⟨rfl, .inr (.inr ⟨.inr rfl, rfl⟩)⟩
    | error osError =>
      obtain ⟨rfl, rfl, rfl⟩ := step
      exact ⟨rfl, .inr (.inr ⟨.inl rfl, rfl⟩)⟩
    | bound choice => cases step

/-- `close` gives its slot back however its await ends. -/
theorem resume_closing (step : closing.resume settings gate wake = some (gate', transport', ending)) :
    gate' = gate.release ∧ transport' = fresh ∧ (ending = some .returned ∨ ending = some .cancelled) := by
  cases wake with
  | finished now =>
    obtain ⟨rfl, rfl, rfl⟩ := step
    exact ⟨rfl, rfl, .inl rfl⟩
  | error osError =>
    obtain ⟨rfl, rfl, rfl⟩ := step
    exact ⟨rfl, rfl, .inl rfl⟩
  | cancelled =>
    obtain ⟨rfl, rfl, rfl⟩ := step
    exact ⟨rfl, rfl, .inr rfl⟩
  | bound choice => cases step

theorem step_kept {transport : Transport} {event : SessionEvent} (sound : transport.Sound)
    (step : transport.step settings gate event = some (gate', transport')) :
    gate'.free + transport'.slots = gate.free + transport.slots ∧ transport'.Sound := by
  cases event with
  | connect =>
    simp only [Transport.step] at step
    split at step
    · obtain ⟨rfl, rfl⟩ := step
      cases sound with
      | fresh => exact ⟨rfl, .connecting .slot⟩
      | connected => exact ⟨rfl, .connected⟩
      | connecting phase => contradiction
      | closing => contradiction
    · cases step
  | close =>
    simp only [Transport.step] at step
    split at step
    · cases sound with
      | fresh =>
        obtain ⟨rfl, rfl⟩ := step
        exact ⟨rfl, .fresh⟩
      | connected =>
        obtain ⟨rfl, rfl⟩ := step
        exact ⟨rfl, .closing⟩
      | connecting phase => contradiction
      | closing => contradiction
    · cases step
  | resume wake =>
    obtain ⟨⟨gate, transport, ending⟩, resumed, same⟩ := Option.map_eq_some_iff.mp step
    obtain ⟨rfl, rfl⟩ := same
    cases sound with
    | fresh => cases resumed
    | connected => cases resumed
    | connecting phase =>
      -- A `connect` goes on, succeeds with its slot, or fails and gives the slot back.
      obtain ⟨kept, ⟨_, next, rfl⟩ | ⟨_, rfl⟩ | ⟨_, rfl⟩⟩ := resume_connecting resumed
      · exact ⟨kept, .connecting next⟩
      · exact ⟨kept, .connected⟩
      · exact ⟨kept, .fresh⟩
    | closing =>
      obtain ⟨rfl, rfl, _⟩ := resume_closing resumed
      exact ⟨rfl, .fresh⟩

end Transport

namespace Tunnel

def Admits (tunnel : Tunnel) (port : Nat) : Prop := ∀ configured ∈ tunnel.configured, port = configured.val

structure Fields (tunnel : Tunnel) : Prop where
  transport : ∀ transport, tunnel.transport = some transport → transport = .connected
  listener : ∀ port, tunnel.listener = some port → tunnel.Admits port
  localPort : ∀ port, tunnel.configured = some port → tunnel.localPort = some port.val
  fixedPort : tunnel.fixedPort = tunnel.configured.isSome

/-- Nothing is held in `_transport` or `_listener`. -/
def Bare (tunnel : Tunnel) : Prop := tunnel.transport = none ∧ tunnel.listener = none

/-- What an attempt leaves alone. -/
structure Same (tunnel tunnel' : Tunnel) : Prop where
  configured : tunnel'.configured = tunnel.configured
  fixedPort : tunnel'.fixedPort = tunnel.fixedPort
  closed : tunnel'.closed = tunnel.closed
  watchdog : tunnel'.watchdog = tunnel.watchdog
  call : tunnel'.call = tunnel.call

def fieldSlots (tunnel : Tunnel) : Nat := (tunnel.transport.toList.map Transport.slots).sum

end Tunnel

namespace Attempt

def Sound (tunnel : Tunnel) : Attempt → Prop
  | closingListener port => tunnel.listener = none ∧ tunnel.Admits port
  | closingTransport transport => tunnel.Bare ∧ transport = .closing
  | connecting transport preferredPort =>
    tunnel.Bare ∧ (∃ phase, transport = .connecting phase) ∧
      ∀ port, tunnel.configured = some port → preferredPort = some port.val
  | forwarding transport preferredPort =>
    tunnel.Bare ∧ transport = .connected ∧ ∀ port, tunnel.configured = some port → preferredPort = some port.val
  | rebinding transport => tunnel.Bare ∧ transport = .connected ∧ tunnel.configured = none
  | abandoning transport _ => tunnel.Bare ∧ transport = .closing

end Attempt

namespace Progress

def slots : Progress → Nat
  | awaits attempt => attempt.slots
  | ended _ => 0

def Sound (tunnel : Tunnel) : Progress → Prop
  | awaits attempt => attempt.Sound tunnel
  | ended _ => True

end Progress

namespace Tunnel

variable {getPort : Nat → Nat → Nat} {settings : Settings} {gate gate' : Gate} {tunnel tunnel' : Tunnel}
  {attempt : Attempt} {progress : Progress} {wake : Wake}

theorem Fields.rest (fields : tunnel.Fields) (closed : Bool) (watchdog : Watchdog) (call : Call) :
    { tunnel with closed := closed, watchdog := watchdog, call := call }.Fields :=
  ⟨fields.transport, fields.listener, fields.localPort, fields.fixedPort⟩

theorem attempt_rest (sound : attempt.Sound tunnel) (closed : Bool) (watchdog : Watchdog) (call : Call) :
    attempt.Sound { tunnel with closed := closed, watchdog := watchdog, call := call } := by
  cases attempt <;> exact sound

theorem Fields.dial (fields : tunnel.Fields) (bare : tunnel.Bare) : tunnel.dial.Sound tunnel :=
  ⟨bare, ⟨.slot, rfl⟩, fields.localPort⟩

structure Goes (gate : Gate) (tunnel : Tunnel) (before : Nat) (gate' : Gate) (tunnel' : Tunnel) (progress : Progress) :
    Prop where
  same : tunnel.Same tunnel'
  fields : tunnel'.Fields
  sound : progress.Sound tunnel'
  kept : gate'.free + tunnel'.fieldSlots + progress.slots = gate.free + tunnel.fieldSlots + before

theorem closeTransport_goes (gate : Gate) (fields : tunnel.Fields) (closed : tunnel.listener = none) :
    Goes gate tunnel 0 (tunnel.closeTransport gate).1 (tunnel.closeTransport gate).2.1
      (.awaits (tunnel.closeTransport gate).2.2) := by
  cases held : tunnel.transport with
  | none =>
    simp only [closeTransport, held]
    exact ⟨⟨rfl, rfl, rfl, rfl, rfl⟩, fields, fields.dial ⟨held, closed⟩, rfl⟩
  | some transport =>
    cases fields.transport transport held
    simp only [closeTransport, held, Transport.close_connected]
    refine ⟨⟨rfl, rfl, rfl, rfl, rfl⟩, ⟨?_, fields.listener, fields.localPort, fields.fixedPort⟩,
      ⟨⟨rfl, closed⟩, rfl⟩, ?_⟩
    · intro _ none
      cases none
    · simp [fieldSlots, held, Progress.slots, Attempt.slots, Attempt.transports]

theorem connectAndForward_goes (fields : tunnel.Fields) :
    Goes gate tunnel 0 (tunnel.connectAndForward gate).1 (tunnel.connectAndForward gate).2.1
      (.awaits (tunnel.connectAndForward gate).2.2) := by
  cases listening : tunnel.listener with
  | none =>
    simp only [connectAndForward, listening]
    exact closeTransport_goes gate fields listening
  | some port =>
    simp only [connectAndForward, listening]
    refine ⟨⟨rfl, rfl, rfl, rfl, rfl⟩, ⟨fields.transport, ?_, fields.localPort, fields.fixedPort⟩,
      ⟨rfl, fields.listener port listening⟩, rfl⟩
    intro _ none
    cases none

/-- An attempt that goes on has no listener any more, and one that ends without success leaves none behind. -/
structure Resumes (gate : Gate) (tunnel : Tunnel) (attempt : Attempt) (gate' : Gate) (tunnel' : Tunnel)
    (progress : Progress) : Prop extends Goes gate tunnel attempt.slots gate' tunnel' progress where
  listeners : ∀ next, progress = .awaits next → next.listeners = []
  bare : attempt.listeners = [] → ∀ ending, progress = .ended ending → ending = .returned ∨ tunnel'.Bare

theorem closeTransport_listeners : (tunnel.closeTransport gate).2.2.listeners = [] := by
  unfold closeTransport
  split
  · rfl
  · split <;> rfl

theorem Resumes.awaits {next : Attempt} (fields : tunnel.Fields) (sound : next.Sound tunnel) (none : next.listeners = [])
    (kept : gate'.free + next.slots = gate.free + attempt.slots) :
    Resumes gate tunnel attempt gate' tunnel (.awaits next) where
  same := ⟨rfl, rfl, rfl, rfl, rfl⟩
  fields := fields
  sound := sound
  kept := by
    simp only [Progress.slots]
    omega
  listeners := by
    intro _ same
    cases same
    exact none
  bare := by
    intro _ _ ended
    cases ended

theorem Resumes.ended {ending : Ending} (fields : tunnel.Fields) (bare : attempt.listeners = [] → tunnel.Bare)
    (kept : gate'.free = gate.free + attempt.slots) : Resumes gate tunnel attempt gate' tunnel (.ended ending) where
  same := ⟨rfl, rfl, rfl, rfl, rfl⟩
  fields := fields
  sound := trivial
  kept := by
    simp only [Progress.slots]
    omega
  listeners := by
    intro _ awaits
    cases awaits
  bare := fun none _ _ => .inr (bare none)

theorem Resumes.established {port : Nat} (fields : tunnel.Fields) (bare : tunnel.Bare) (admits : tunnel.Admits port)
    (one : attempt.slots = 1) :
    Resumes gate tunnel attempt gate (tunnel.established .connected port) (.ended .returned) where
  same := ⟨rfl, rfl, rfl, rfl, rfl⟩
  fields := by
    refine ⟨?_, ?_, ?_, fields.fixedPort⟩
    · intro transport same
      exact (Option.some.inj same).symm
    · intro port same
      cases same
      exact admits
    · intro configured same
      exact congrArg some (admits configured same)
  sound := trivial
  kept := by
    have none : tunnel.fieldSlots = 0 := by rw [fieldSlots, bare.1]; rfl
    have held : (tunnel.established .connected port).fieldSlots = 1 := rfl
    simp only [Progress.slots]
    omega
  listeners := by
    intro _ awaits
    cases awaits
  bare := by
    intro _ _ same
    cases same
    exact .inl rfl

/-- The dial for the next connection is made with the port that the tunnel had. -/
theorem Resumes.abandons {pending : Ending} (fields : tunnel.Fields) (bare : tunnel.Bare) (one : attempt.slots = 1) :
    Resumes gate tunnel attempt gate tunnel (.awaits (.abandoning .closing pending)) :=
  .awaits fields ⟨bare, rfl⟩ rfl (by rw [one]; rfl)

theorem resumeAttempt_resumes (asked : ∀ port choice, port ≠ 0 → getPort port choice = port)
    (fields : tunnel.Fields) (sound : attempt.Sound tunnel)
    (step : tunnel.resumeAttempt getPort settings gate attempt wake = some (gate', tunnel', progress)) :
    Resumes gate tunnel attempt gate' tunnel' progress := by
  -- A port that is asked for is the port that is got, where it is not 0.
  have preferred_admitted : ∀ {preferredPort choice},
      (∀ port, tunnel.configured = some port → preferredPort = some port.val) →
        tunnel.Admits (getPort (preferredPort.getD 0) choice) := by
    intro preferredPort choice preferred configured same
    have positive := configured.2.1
    rw [preferred configured same, Option.getD_some, asked _ _ (by omega)]
  cases attempt with
  | closingListener port =>
    have goes := closeTransport_goes gate fields sound.1
    cases wake with
    | cancelled =>
      cases step
      exact .ended fields (fun none => by cases none) rfl
    | bound choice => cases step
    | finished now =>
      cases step
      exact ⟨goes, by intro _ same; cases same; exact closeTransport_listeners, by intro _ _ ended; cases ended⟩
    | error osError =>
      cases step
      exact ⟨goes, by intro _ same; cases same; exact closeTransport_listeners, by intro _ _ ended; cases ended⟩
  | closingTransport transport =>
    obtain ⟨bare, rfl⟩ := sound
    obtain ⟨⟨gate, transport, ending⟩, resumed, same⟩ := Option.map_eq_some_iff.mp step
    obtain ⟨rfl, rfl, rfl | rfl⟩ := Transport.resume_closing resumed
    · cases same
      exact .awaits fields (fields.dial bare) rfl rfl
    · cases same
      exact .ended fields (fun _ => bare) rfl
  | connecting transport preferredPort =>
    obtain ⟨bare, ⟨phase, rfl⟩, preferred⟩ := sound
    obtain ⟨⟨gate, transport, ending⟩, resumed, same⟩ := Option.map_eq_some_iff.mp step
    obtain ⟨kept, ⟨rfl, next, rfl⟩ | ⟨rfl, rfl⟩ | ⟨rfl | rfl, rfl⟩⟩ := Transport.resume_connecting resumed
    · cases same
      exact .awaits fields ⟨bare, ⟨next, rfl⟩, preferred⟩ rfl kept
    · cases same
      exact .awaits fields ⟨bare, rfl, preferred⟩ rfl kept
    · cases same
      exact .ended fields (fun _ => bare) kept
    · cases same
      exact .ended fields (fun _ => bare) kept
  | forwarding transport preferredPort =>
    obtain ⟨bare, rfl, preferred⟩ := sound
    cases wake with
    | finished now => cases step
    | bound choice =>
      cases step
      exact .established fields bare (preferred_admitted preferred) rfl
    | cancelled =>
      cases step
      exact .abandons fields bare rfl
    | error osError =>
      simp only [resumeAttempt] at step
      split at step
      · next rebinds =>
        cases step
        -- Only a tunnel without a configured port tries another one.
        have free : tunnel.configured = none := by simpa [fields.fixedPort] using rebinds.2.2
        exact .awaits fields ⟨bare, rfl, free⟩ rfl rfl
      · cases step
        exact .abandons fields bare rfl
  | rebinding transport =>
    obtain ⟨bare, rfl, free⟩ := sound
    cases wake with
    | finished now => cases step
    | bound choice =>
      cases step
      refine .established fields bare ?_ rfl
      intro configured same
      rw [free] at same
      cases same
    | cancelled =>
      cases step
      exact .abandons fields bare rfl
    | error osError =>
      cases step
      exact .abandons fields bare rfl
  | abandoning transport pending =>
    obtain ⟨bare, rfl⟩ := sound
    obtain ⟨⟨gate, transport, ending⟩, resumed, same⟩ := Option.map_eq_some_iff.mp step
    obtain ⟨rfl, rfl, rfl | rfl⟩ := Transport.resume_closing resumed
    · cases same
      exact .ended fields (fun _ => bare) rfl
    · cases same
      exact .ended fields (fun _ => bare) rfl

/-- What a stretch of the watchdog's task comes to. -/
structure Watches (gate : Gate) (tunnel : Tunnel) (before : Nat) (gate' : Gate) (tunnel' : Tunnel) : Prop where
  call : tunnel'.call = tunnel.call
  fields : tunnel'.Fields
  reconnecting : ∀ attempt, tunnel'.watchdog = .reconnecting attempt → attempt.Sound tunnel'
  kept : gate'.free + tunnel'.fieldSlots + tunnel'.watchdog.slots = gate.free + tunnel.fieldSlots + before

/-- The task waits for something else than an attempt, or is over. -/
theorem Watches.rests {watchdog : Watchdog} (fields : tunnel.Fields) (none : watchdog.slots = 0)
    (other : ∀ attempt, watchdog ≠ .reconnecting attempt) :
    Watches gate tunnel 0 gate { tunnel with watchdog := watchdog } where
  call := rfl
  fields := fields.rest _ watchdog _
  reconnecting := fun attempt same => absurd same (other attempt)
  kept := congrArg (gate.free + tunnel.fieldSlots + ·) none

theorem Goes.watches {next : Attempt} {before : Nat} (goes : Goes gate tunnel before gate' tunnel' (.awaits next)) :
    Watches gate tunnel before gate' { tunnel' with watchdog := .reconnecting next } where
  call := goes.same.call
  fields := goes.fields.rest _ _ _
  reconnecting := by
    intro attempt same
    cases same
    exact attempt_rest goes.sound tunnel'.closed _ tunnel'.call
  kept := goes.kept

theorem reconnectWithBackoff_watches (fields : tunnel.Fields)
    (step : tunnel.reconnectWithBackoff gate = (gate', tunnel')) : Watches gate tunnel 0 gate' tunnel' := by
  unfold reconnectWithBackoff at step
  split at step
  · cases step
    exact .rests fields rfl (by intro _ same; cases same)
  · cases step
    exact (connectAndForward_goes fields).watches

theorem watch_watches (fields : tunnel.Fields) (step : tunnel.watch gate = (gate', tunnel')) :
    Watches gate tunnel 0 gate' tunnel' := by
  unfold watch at step
  split at step
  · cases step
    exact .rests fields rfl (by intro _ same; cases same)
  · split at step
    · cases step
      exact .rests fields rfl (by intro _ same; cases same)
    · exact reconnectWithBackoff_watches fields step

/-- What comes after an attempt that ended is counted from the tunnel it left. -/
theorem Goes.then_watches {ending : Ending} {before : Nat} {gate'' : Gate} {tunnel'' : Tunnel}
    (goes : Goes gate tunnel before gate' tunnel' (.ended ending)) (watches : Watches gate' tunnel' 0 gate'' tunnel'') :
    Watches gate tunnel before gate'' tunnel'' where
  call := watches.call.trans goes.same.call
  fields := watches.fields
  reconnecting := watches.reconnecting
  kept := by
    have first := goes.kept
    have second := watches.kept
    simp only [Progress.slots] at first
    omega

def CallSound (tunnel : Tunnel) : Prop :=
  match tunnel.call with
  | .unopened | .discarded => tunnel.watchdog = .absent ∧ tunnel.Bare
  | .opening _ attempt => tunnel.watchdog = .absent ∧ attempt.Sound tunnel ∧ attempt.listeners = []
  | .opened | .awaitingWatchdog => True
  | .closingListener port => tunnel.watchdog = .done ∧ tunnel.listener = none ∧ tunnel.Admits port
  | .closingTransport transport => tunnel.watchdog = .done ∧ tunnel.Bare ∧ transport = .closing
  | .closed => tunnel.watchdog = .done ∧ tunnel.Bare
  | .interrupted => tunnel.watchdog = .done ∧ tunnel.listener = none

structure Sound (tunnel : Tunnel) : Prop where
  fields : tunnel.Fields
  reconnecting : ∀ attempt, tunnel.watchdog = .reconnecting attempt → attempt.Sound tunnel
  call : tunnel.CallSound

/-- The watchdog acts only between `open` and the end of the wait for it in `close`. -/
theorem Sound.active (sound : tunnel.Sound) (some_task : tunnel.watchdog ≠ .absent) (runs : tunnel.watchdog ≠ .done) :
    tunnel.call = .opened ∨ tunnel.call = .awaitingWatchdog := by
  have call := sound.call
  unfold CallSound at call
  split at call <;> simp_all

theorem resumeWatchdog_watches (asked : ∀ port choice, port ≠ 0 → getPort port choice = port) (sound : tunnel.Sound)
    (step : tunnel.resumeWatchdog getPort settings gate wake = some (gate', tunnel')) :
    tunnel.watchdog ≠ .absent ∧ tunnel.watchdog ≠ .done ∧
      Watches gate tunnel tunnel.watchdog.slots gate' tunnel' := by
  have fields := sound.fields
  unfold resumeWatchdog at step
  cases task : tunnel.watchdog with
  | absent => simp [task] at step
  | done => simp [task] at step
  | created =>
    refine ⟨by simp, by simp, ?_⟩
    rw [task] at step
    cases wake with
    | finished now => exact watch_watches fields (Option.some.inj step)
    | cancelled =>
      cases step
      exact .rests fields rfl (by intro _ same; cases same)
    | bound choice => cases step
    | error osError => cases step
  | watching =>
    refine ⟨by simp, by simp, ?_⟩
    rw [task] at step
    cases wake with
    | finished now => exact reconnectWithBackoff_watches fields (Option.some.inj step)
    | cancelled =>
      cases step
      exact .rests fields rfl (by intro _ same; cases same)
    | error osError =>
      cases step
      exact .rests fields rfl (by intro _ same; cases same)
    | bound choice => cases step
  | backingOff =>
    refine ⟨by simp, by simp, ?_⟩
    rw [task] at step
    cases wake with
    | finished now => exact reconnectWithBackoff_watches fields (Option.some.inj step)
    | cancelled =>
      cases step
      exact .rests fields rfl (by intro _ same; cases same)
    | bound choice => cases step
    | error osError => cases step
  | reconnecting attempt =>
    refine ⟨by simp, by simp, ?_⟩
    rw [task] at step
    obtain ⟨⟨gate, tunnel, progress⟩, resumed, same⟩ := Option.map_eq_some_iff.mp step
    have resumes := resumeAttempt_resumes asked fields (sound.reconnecting attempt task) resumed
    -- The attempt goes on in the watchdog, or its end leads back to watching or out of it.
    cases progress with
    | awaits next =>
      cases same
      exact resumes.toGoes.watches
    | ended ending =>
      refine resumes.toGoes.then_watches ?_
      cases ending with
      | returned => exact watch_watches resumes.fields same
      | raised =>
        cases same
        exact .rests resumes.fields rfl (by intro _ same; cases same)
      | cancelled =>
        cases same
        exact .rests resumes.fields rfl (by intro _ same; cases same)

theorem slots_eq : tunnel.slots = tunnel.fieldSlots + tunnel.watchdog.slots + tunnel.call.slots := by
  have task : (tunnel.watchdog.transports.map Transport.slots).sum = tunnel.watchdog.slots := by
    cases tunnel.watchdog <;> rfl
  have call : (tunnel.call.transports.map Transport.slots).sum = tunnel.call.slots := by
    cases tunnel.call <;> rfl
  rw [slots, transports, List.map_append, List.map_append, List.sum_append, List.sum_append, task, call]
  rfl

/-- One event of a tunnel: no slot is lost or made, and the tunnel stays sound. -/
structure Kept (gate : Gate) (tunnel : Tunnel) (gate' : Gate) (tunnel' : Tunnel) : Prop where
  kept : gate'.free + tunnel'.slots = gate.free + tunnel.slots
  sound : tunnel'.Sound

theorem resumeWatchdog_kept (asked : ∀ port choice, port ≠ 0 → getPort port choice = port) (sound : tunnel.Sound)
    (step : tunnel.resumeWatchdog getPort settings gate wake = some (gate', tunnel')) :
    Kept gate tunnel gate' tunnel' := by
  obtain ⟨some_task, runs, watches⟩ := resumeWatchdog_watches asked sound step
  have free := watches.kept
  obtain call | call := sound.active some_task runs
  all_goals
    refine ⟨?_, watches.fields, watches.reconnecting, by simp [CallSound, watches.call, call]⟩
    rw [slots_eq, slots_eq, watches.call, call]
    simp only [Call.slots]
    omega

/-- The end of `close`, once the watchdog is done and the listener is closed. -/
theorem finishClose_kept (fields : tunnel.Fields) (done : tunnel.watchdog = .done) (closed : tunnel.listener = none)
    (step : tunnel.finishClose gate = (gate', tunnel')) :
    gate'.free + tunnel'.slots = gate.free + tunnel.fieldSlots ∧ tunnel'.Sound := by
  have task : ∀ attempt, tunnel.watchdog ≠ .reconnecting attempt := by simp [done]
  unfold finishClose at step
  cases held : tunnel.transport with
  | none =>
    rw [held] at step
    cases step
    refine ⟨?_, ⟨?_, fields.listener, fields.localPort, fields.fixedPort⟩,
      fun attempt same => absurd same (task attempt), done, rfl, closed⟩
    · simp [slots_eq, done, fieldSlots, held, Watchdog.slots, Call.slots]
    · intro _ none
      cases none
  | some transport =>
    cases fields.transport transport held
    simp only [held, Transport.close_connected] at step
    cases step
    refine ⟨?_, ⟨?_, fields.listener, fields.localPort, fields.fixedPort⟩,
      fun attempt same => absurd same (task attempt), done, ⟨rfl, closed⟩, rfl⟩
    · simp [slots_eq, done, fieldSlots, held, Watchdog.slots, Call.slots]
    · intro _ none
      cases none

theorem slots_rest {watchdog : Watchdog} {call : Call} (zero : watchdog.slots = 0) :
    { tunnel with watchdog := watchdog, call := call }.slots = tunnel.fieldSlots + call.slots := by
  rw [slots_eq, zero]
  rfl

theorem resumeOpen_kept {retryOnFailure : Bool} (asked : ∀ port choice, port ≠ 0 → getPort port choice = port)
    (sound : tunnel.Sound) (call : tunnel.call = .opening retryOnFailure attempt)
    (step : tunnel.resumeCall getPort settings gate wake = some (gate', tunnel')) :
    Kept gate tunnel gate' tunnel' := by
  obtain ⟨fields, reconnecting, relied⟩ := sound
  simp only [CallSound, call] at relied
  obtain ⟨absent, trying, none⟩ := relied
  simp only [resumeCall, call] at step
  obtain ⟨⟨gate₁, tunnel₁, progress⟩, resumed, same⟩ := Option.map_eq_some_iff.mp step
  have resumes := resumeAttempt_resumes asked fields trying resumed
  have free := resumes.kept
  have absent₁ := resumes.same.watchdog.trans absent
  have before : tunnel.slots = tunnel.fieldSlots + attempt.slots := by
    simp [slots_eq, absent, call, Watchdog.slots, Call.slots]
  have task : ∀ attempt, tunnel₁.watchdog ≠ .reconnecting attempt := by simp [absent₁]
  have zero : tunnel₁.watchdog.slots = 0 := by rw [absent₁]; rfl
  cases progress with
  | awaits next =>
    simp only [Prod.mk.injEq] at same
    obtain ⟨rfl, rfl⟩ := same
    refine ⟨?_, resumes.fields.rest _ _ _, fun attempt same => absurd same (task attempt), absent₁, ?_,
      resumes.listeners next rfl⟩
    · simp only [slots_rest zero, Call.slots, Progress.slots] at free ⊢
      omega
    · exact attempt_rest resumes.sound tunnel₁.closed tunnel₁.watchdog _
  | ended ending =>
    simp only [Progress.slots] at free
    have opened : Kept gate tunnel gate₁ { tunnel₁ with watchdog := .created, call := .opened } := by
      refine ⟨?_, resumes.fields.rest _ _ _, (fun attempt same => by cases same), trivial⟩
      rw [slots_rest rfl]
      simp only [Call.slots]
      omega
    -- An attempt that fails has closed all it opened, so the discarded tunnel holds nothing.
    have discarded (fails : ending ≠ .returned) : Kept gate tunnel gate₁ { tunnel₁ with call := .discarded } := by
      have bare := (resumes.bare none ending rfl).resolve_left fails
      refine ⟨?_, resumes.fields.rest _ _ _, fun attempt same => absurd same (task attempt), absent₁, bare⟩
      rw [slots_rest zero]
      simp only [Call.slots]
      omega
    cases ending with
    | returned =>
      simp only [Prod.mk.injEq] at same
      obtain ⟨rfl, rfl⟩ := same
      exact opened
    | cancelled =>
      simp only [Prod.mk.injEq] at same
      obtain ⟨rfl, rfl⟩ := same
      exact discarded (by simp)
    | raised =>
      simp only at same
      split at same
      · cases same
        exact opened
      · cases same
        exact discarded (by simp)

theorem resumeCall_kept (asked : ∀ port choice, port ≠ 0 → getPort port choice = port) (sound : tunnel.Sound)
    (step : tunnel.resumeCall getPort settings gate wake = some (gate', tunnel')) :
    Kept gate tunnel gate' tunnel' := by
  have fields := sound.fields
  have relied := sound.call
  unfold CallSound at relied
  cases call : tunnel.call with
  | unopened => simp [resumeCall, call] at step
  | opened => simp [resumeCall, call] at step
  | discarded => simp [resumeCall, call] at step
  | closed => simp [resumeCall, call] at step
  | interrupted => simp [resumeCall, call] at step
  | opening retryOnFailure attempt => exact resumeOpen_kept asked sound call step
  | awaitingWatchdog =>
    simp only [resumeCall, call] at step
    split at step
    · next done =>
      have before : tunnel.slots = tunnel.fieldSlots := by
        simp [slots_eq, done, call, Watchdog.slots, Call.slots]
      split at step
      · next port listening =>
        cases step
        refine ⟨?_, ⟨fields.transport, ?_, fields.localPort, fields.fixedPort⟩, ?_, done, rfl,
          fields.listener port listening⟩
        · rw [before, slots_eq]
          simp only [done]
          rfl
        · intro _ none
          cases none
        · intro _ same
          rw [done] at same
          cases same
      · next closed =>
        obtain ⟨kept, sound⟩ := finishClose_kept fields done closed (Option.some.inj step)
        exact ⟨kept.trans (congrArg _ before.symm), sound⟩
    · cases step
  | closingListener port =>
    simp only [call] at relied
    obtain ⟨done, closed, _⟩ := relied
    have before : tunnel.slots = tunnel.fieldSlots := by
      simp [slots_eq, done, call, Watchdog.slots, Call.slots]
    have finish (step : tunnel.finishClose gate = (gate', tunnel')) : Kept gate tunnel gate' tunnel' := by
      obtain ⟨kept, sound⟩ := finishClose_kept fields done closed step
      exact ⟨kept.trans (congrArg _ before.symm), sound⟩
    simp only [resumeCall, call] at step
    cases wake with
    | finished now => exact finish (Option.some.inj step)
    | error osError => exact finish (Option.some.inj step)
    | bound choice => cases step
    | cancelled =>
      cases step
      refine ⟨?_, fields.rest _ _ _, fun attempt same => ?_, done, closed⟩
      · rw [before, slots_eq]
        simp only [done]
        rfl
      · cases done.symm.trans same
  | closingTransport transport =>
    simp only [call] at relied
    obtain ⟨done, bare, rfl⟩ := relied
    simp only [resumeCall, call] at step
    obtain ⟨⟨gate₁, transport, ending⟩, resumed, same⟩ := Option.map_eq_some_iff.mp step
    -- The transport that is being closed holds the only slot, and gives it back.
    have before : tunnel.slots = 1 := by
      simp [slots_eq, done, call, fieldSlots, bare.1, Watchdog.slots, Call.slots]
    have task : ∀ attempt, tunnel.watchdog ≠ .reconnecting attempt := by simp [done]
    obtain ⟨rfl, rfl, rfl | rfl⟩ := Transport.resume_closing resumed
    · cases same
      refine ⟨?_, fields.rest _ _ _, fun attempt same => absurd same (task attempt), done, bare⟩
      simp [before, slots_eq, done, fieldSlots, bare.1, Watchdog.slots, Call.slots]
    · cases same
      refine ⟨?_, fields.rest _ _ _, fun attempt same => absurd same (task attempt), done, bare.2⟩
      simp [before, slots_eq, done, fieldSlots, bare.1, Watchdog.slots, Call.slots]

theorem step_kept {event : TunnelEvent} (asked : ∀ port choice, port ≠ 0 → getPort port choice = port)
    (sound : tunnel.Sound) (step : tunnel.step getPort settings gate event = some (gate', tunnel')) :
    Kept gate tunnel gate' tunnel' := by
  cases event with
  | call wake => exact resumeCall_kept asked sound step
  | watchdog wake => exact resumeWatchdog_kept asked sound step
  | close =>
    simp only [Tunnel.step] at step
    split at step
    · next opened =>
      cases step
      refine ⟨?_, sound.fields.rest _ _ _, ?_, trivial⟩
      · rw [slots_eq, slots_eq, opened]
        rfl
      · intro attempt same
        exact attempt_rest (sound.reconnecting attempt same) _ tunnel.watchdog _
    · cases step
  | «open» retryOnFailure =>
    simp only [Tunnel.step] at step
    split at step
    · next unopened =>
      cases step
      have relied := sound.call
      simp only [CallSound, unopened] at relied
      obtain ⟨absent, bare⟩ := relied
      have dials : tunnel.connectAndForward gate = (gate, tunnel, tunnel.dial) := by
        simp [connectAndForward, closeTransport, bare.1, bare.2]
      rw [dials]
      refine ⟨?_, sound.fields.rest _ _ _, sound.reconnecting, absent, ⟨bare, ⟨.slot, rfl⟩, sound.fields.localPort⟩,
        rfl⟩
      rw [slots_eq, slots_eq, unopened]
      rfl
    · cases step

theorem Sound.closed_still {event : TunnelEvent} (sound : tunnel.Sound) (closed : tunnel.call = .closed) :
    tunnel.step getPort settings gate event ≠ some (gate', tunnel') := by
  have relied := sound.call
  simp only [CallSound, closed] at relied
  cases event with
  | «open» retryOnFailure => simp [Tunnel.step, closed]
  | close => simp [Tunnel.step, closed]
  | call wake => simp [Tunnel.step, resumeCall, closed]
  | watchdog wake => simp [Tunnel.step, resumeWatchdog, relied.1]

structure Holds (tunnel : Tunnel) : Prop where
  transports : tunnel.transports.length ≤ 1
  listeners : tunnel.listeners.length ≤ 1
  ports : ∀ port ∈ tunnel.listeners, tunnel.Admits port
  sound : ∀ transport ∈ tunnel.transports, transport.Sound
  closed : tunnel.call = .closed ∨ tunnel.call = .discarded → tunnel.transports = [] ∧ tunnel.listeners = []

end Tunnel

namespace Attempt

variable {tunnel : Tunnel} {attempt : Attempt}

theorem Sound.alone (sound : attempt.Sound tunnel) :
    (tunnel.transport.toList ++ attempt.transports).length ≤ 1 ∧
      (tunnel.listener.toList ++ attempt.listeners).length ≤ 1 ∧
      (∀ port ∈ attempt.listeners, tunnel.Admits port) ∧ ∀ transport ∈ attempt.transports, transport.Sound := by
  cases attempt with
  | closingListener port =>
    obtain ⟨closed, admits⟩ := sound
    refine ⟨?_, by simp [closed, listeners], by simpa [listeners] using admits, by simp [transports]⟩
    cases tunnel.transport <;> simp [transports]
  | closingTransport transport =>
    obtain ⟨bare, rfl⟩ := sound
    simp [bare.1, bare.2, transports, listeners, Transport.Sound.closing]
  | connecting transport preferredPort =>
    obtain ⟨bare, ⟨phase, rfl⟩, _⟩ := sound
    simp [bare.1, bare.2, transports, listeners, Transport.Sound.connecting]
  | forwarding transport preferredPort =>
    obtain ⟨bare, rfl, _⟩ := sound
    simp [bare.1, bare.2, transports, listeners, Transport.Sound.connected]
  | rebinding transport =>
    obtain ⟨bare, rfl, _⟩ := sound
    simp [bare.1, bare.2, transports, listeners, Transport.Sound.connected]
  | abandoning transport pending =>
    obtain ⟨bare, rfl⟩ := sound
    simp [bare.1, bare.2, transports, listeners, Transport.Sound.closing]

end Attempt

namespace Tunnel

variable {tunnel : Tunnel}

theorem Fields.holds (fields : tunnel.Fields) (others : List Transport) (ports : List Nat)
    (transports : tunnel.transports = tunnel.transport.toList ++ others)
    (listeners : tunnel.listeners = tunnel.listener.toList ++ ports)
    (alone : (tunnel.transport.toList ++ others).length ≤ 1 ∧ (tunnel.listener.toList ++ ports).length ≤ 1 ∧
      (∀ port ∈ ports, tunnel.Admits port) ∧ ∀ transport ∈ others, transport.Sound)
    (closed : tunnel.call = .closed ∨ tunnel.call = .discarded → tunnel.Bare ∧ others = [] ∧ ports = []) :
    tunnel.Holds where
  transports := transports ▸ alone.1
  listeners := listeners ▸ alone.2.1
  ports := by
    intro port held
    rw [listeners, List.mem_append] at held
    cases held with
    | inl held => exact fields.listener port (by simpa using held)
    | inr held => exact alone.2.2.1 port held
  sound := by
    intro transport held
    rw [transports, List.mem_append] at held
    cases held with
    | inl held =>
      rw [fields.transport transport (by simpa using held)]
      exact .connected
    | inr held => exact alone.2.2.2 transport held
  closed := by
    intro concluded
    obtain ⟨bare, rfl, rfl⟩ := closed concluded
    rw [transports, listeners, bare.1, bare.2]
    exact ⟨rfl, rfl⟩

theorem Fields.holds_alone (fields : tunnel.Fields) (watchdog : tunnel.watchdog.transports = [])
    (attempt : tunnel.watchdog.listeners = []) (call : tunnel.call.transports = []) (idle : tunnel.call.listeners = [])
    (closed : tunnel.call = .closed ∨ tunnel.call = .discarded → tunnel.Bare) : tunnel.Holds := by
  refine fields.holds [] [] ?_ ?_ ?_ fun concluded => ⟨closed concluded, rfl, rfl⟩
  · rw [transports, watchdog, call, List.append_nil]
  · rw [listeners, attempt, idle, List.append_nil]
  · refine ⟨?_, ?_, by simp, by simp⟩
    · cases tunnel.transport <;> simp
    · cases tunnel.listener <;> simp

theorem Sound.holds (sound : tunnel.Sound) : tunnel.Holds := by
  have fields := sound.fields
  have relied := sound.call
  unfold CallSound at relied
  have running (call : tunnel.call = .opened ∨ tunnel.call = .awaitingWatchdog) : tunnel.Holds := by
    have transports_nil : tunnel.call.transports = [] := by obtain call | call := call <;> rw [call] <;> rfl
    have listeners_nil : tunnel.call.listeners = [] := by obtain call | call := call <;> rw [call] <;> rfl
    have still_open : ¬(tunnel.call = .closed ∨ tunnel.call = .discarded) := by
      obtain call | call := call <;> simp [call]
    -- The watchdog has a connection of its own only while it reconnects.
    cases task : tunnel.watchdog with
    | reconnecting attempt =>
      refine fields.holds attempt.transports attempt.listeners ?_ ?_
        (sound.reconnecting attempt task).alone (fun concluded => absurd concluded still_open)
      · rw [transports, transports_nil, task, List.append_nil]
        rfl
      · rw [listeners, listeners_nil, task, List.append_nil]
        rfl
    | absent | created | watching | backingOff | done =>
      exact fields.holds_alone (by rw [task]; rfl) (by rw [task]; rfl) transports_nil listeners_nil
        (fun concluded => absurd concluded still_open)
  cases call : tunnel.call with
  | opened => exact running (.inl call)
  | awaitingWatchdog => exact running (.inr call)
  | unopened | discarded | closed =>
    simp only [call] at relied
    refine fields.holds_alone ?_ ?_ (by rw [call]; rfl) (by rw [call]; rfl) (fun _ => relied.2)
    · rw [relied.1]
      rfl
    · rw [relied.1]
      rfl
  | interrupted =>
    simp only [call] at relied
    refine fields.holds_alone ?_ ?_ (by rw [call]; rfl) (by rw [call]; rfl) (fun concluded => by simp [call] at concluded)
    · rw [relied.1]
      rfl
    · rw [relied.1]
      rfl
  | opening retryOnFailure attempt =>
    simp only [call] at relied
    refine fields.holds attempt.transports attempt.listeners ?_ ?_ relied.2.1.alone
      (fun concluded => by simp [call] at concluded)
    · simp [transports, relied.1, call, Watchdog.transports, Call.transports]
    · simp [listeners, relied.1, call, Watchdog.listeners, Call.listeners]
  | closingListener port =>
    simp only [call] at relied
    obtain ⟨done, closed, admits⟩ := relied
    refine fields.holds [] [port] ?_ ?_ ?_ (fun concluded => by simp [call] at concluded)
    · simp [transports, done, call, Watchdog.transports, Call.transports]
    · simp [listeners, done, call, Watchdog.listeners, Call.listeners]
    · refine ⟨?_, by simp [closed], by simpa using admits, by simp⟩
      cases tunnel.transport <;> simp
  | closingTransport transport =>
    simp only [call] at relied
    obtain ⟨done, bare, rfl⟩ := relied
    refine fields.holds [.closing] [] ?_ ?_ ?_ (fun concluded => by simp [call] at concluded)
    · simp [transports, done, call, Watchdog.transports, Call.transports]
    · simp [listeners, done, call, Watchdog.listeners, Call.listeners]
    · simp [bare.1, bare.2, Transport.Sound.closing]

theorem Holds.covered (holds : tunnel.Holds) : tunnel.connections ≤ tunnel.slots :=
  List.sum_le_sum fun transport held => (holds.sound transport held).covered

end Tunnel

/-- Replacing one element of a list replaces its share of a sum. -/
theorem sum_map_set {Item : Type} (count : Item → Nat) {items : List Item} {index : Nat} {old : Item} (new : Item)
    (here : items[index]? = some old) :
    ((items.set index new).map count).sum + count old = (items.map count).sum + count new := by
  induction items generalizing index with
  | nil => simp at here
  | cons item items ih =>
    cases index with
    | zero =>
      simp only [List.getElem?_cons_zero, Option.some.injEq] at here
      subst here
      simp only [List.set_cons_zero, List.map_cons, List.sum_cons]
      omega
    | succ index =>
      have rest := ih (by simpa using here)
      simp only [List.set_cons_succ, List.map_cons, List.sum_cons]
      omega

namespace Alias

variable {getPort : Nat → Nat → Nat} {settings : Settings} {host next : Alias} {event : Event}

structure Sound (settings : Settings) (host : Alias) : Prop where
  slots : host.gate.free + host.held = settings.capacity
  sessions : ∀ transport ∈ host.sessions, transport.Sound
  tunnels : ∀ tunnel ∈ host.tunnels, tunnel.Sound

theorem initial_sound : Sound settings ⟨Gate.fresh settings, [], []⟩ where
  slots := rfl
  sessions := by simp
  tunnels := by simp

theorem fresh_tunnel_sound (configured : Option LocalPort) : (Tunnel.fresh configured).Sound := by
  refine ⟨⟨?_, ?_, ?_, rfl⟩, ?_, rfl, rfl, rfl⟩
  · intro _ none
    cases none
  · intro _ none
    cases none
  · intro port same
    simp only [Tunnel.fresh] at same
    rw [Tunnel.fresh, same]
    rfl
  · intro _ none
    cases none

theorem step_sound (asked : ∀ port choice, port ≠ 0 → getPort port choice = port) (sound : host.Sound settings)
    (step : host.step getPort settings event = some next) : next.Sound settings := by
  obtain ⟨slots, sessions, tunnels⟩ := sound
  unfold held at slots
  cases event with
  | newSession =>
    cases step
    refine ⟨?_, ?_, tunnels⟩
    · simpa [held] using slots
    · intro transport member
      rw [List.mem_append, List.mem_singleton] at member
      obtain member | rfl := member
      · exact sessions transport member
      · exact .fresh
  | newTunnel localPort =>
    cases step
    refine ⟨?_, sessions, ?_⟩
    · have none : (Tunnel.fresh localPort).slots = 0 := rfl
      simpa [held, none] using slots
    · intro tunnel member
      rw [List.mem_append, List.mem_singleton] at member
      obtain member | rfl := member
      · exact tunnels tunnel member
      · exact fresh_tunnel_sound localPort
  | session index event =>
    obtain ⟨transport, here, step⟩ := Option.bind_eq_some_iff.mp step
    obtain ⟨⟨gate, transport'⟩, stepped, same⟩ := Option.map_eq_some_iff.mp step
    cases same
    obtain ⟨kept, sound⟩ := Transport.step_kept (sessions transport (List.mem_of_getElem? here)) stepped
    refine ⟨?_, ?_, tunnels⟩
    · -- Only one summand changes, by what the gate gains or loses.
      have moved := sum_map_set Transport.slots transport' here
      simp only [held]
      omega
    · intro other member
      obtain member | rfl := List.mem_or_eq_of_mem_set member
      · exact sessions other member
      · exact sound
  | tunnel index event =>
    obtain ⟨tunnel, here, step⟩ := Option.bind_eq_some_iff.mp step
    obtain ⟨⟨gate, tunnel'⟩, stepped, same⟩ := Option.map_eq_some_iff.mp step
    cases same
    obtain ⟨kept, sound⟩ := Tunnel.step_kept asked (tunnels tunnel (List.mem_of_getElem? here)) stepped
    refine ⟨?_, sessions, ?_⟩
    · have moved := sum_map_set Tunnel.slots tunnel' here
      simp only [held]
      omega
    · intro other member
      obtain member | rfl := List.mem_or_eq_of_mem_set member
      · exact tunnels other member
      · exact sound

theorem reached_sound (asked : ∀ port choice, port ≠ 0 → getPort port choice = port) {history : List Event}
    (reached : (aliasSystem getPort settings).reached history = some host) : host.Sound settings :=
  System.invariant_always initial_sound (fun _ _ _ sound => step_sound asked sound) reached

theorem step_closed {index : Nat} {tunnel : Tunnel} (sound : host.Sound settings)
    (here : host.tunnels[index]? = some tunnel) (closed : tunnel.call = .closed)
    (step : host.step getPort settings event = some next) : next.tunnels[index]? = some tunnel := by
  cases event with
  | newSession =>
    cases step
    exact here
  | newTunnel localPort =>
    cases step
    rw [List.getElem?_append_left (List.getElem?_eq_some_iff.mp here).1]
    exact here
  | session other event =>
    obtain ⟨transport, _, step⟩ := Option.bind_eq_some_iff.mp step
    obtain ⟨_, _, same⟩ := Option.map_eq_some_iff.mp step
    cases same
    exact here
  | tunnel other event =>
    obtain ⟨tunnel', there, step⟩ := Option.bind_eq_some_iff.mp step
    obtain ⟨_, stepped, same⟩ := Option.map_eq_some_iff.mp step
    cases same
    have differs : other ≠ index := by
      rintro rfl
      cases here.symm.trans there
      exact (sound.tunnels tunnel (List.mem_of_getElem? here)).closed_still closed stepped
    rw [List.getElem?_set_ne differs]
    exact here

theorem Sound.covered (sound : host.Sound settings) : host.connections ≤ host.held := by
  have sessions : (host.sessions.map Transport.connections).sum ≤ (host.sessions.map Transport.slots).sum :=
    List.sum_le_sum fun transport member => (sound.sessions transport member).covered
  have tunnels : (host.tunnels.map Tunnel.connections).sum ≤ (host.tunnels.map Tunnel.slots).sum :=
    List.sum_le_sum fun tunnel member => (sound.tunnels tunnel member).holds.covered
  unfold connections held
  omega

def transports (host : Alias) : List Transport := host.sessions ++ host.tunnels.flatMap Tunnel.transports

theorem Sound.transports (sound : host.Sound settings) : ∀ transport ∈ host.transports, transport.Sound := by
  intro transport member
  rw [Alias.transports, List.mem_append, List.mem_flatMap] at member
  obtain member | ⟨tunnel, known, held⟩ := member
  · exact sound.sessions transport member
  · exact (sound.tunnels tunnel known).holds.sound transport held

end Alias

structure SlotsKept (getPort : Nat → Nat → Nat) (settings : Settings) (history : List Event) (host : Alias) : Prop where
  /-- The connections that are open, or being dialed or closed, fit. -/
  bounded : host.connections ≤ settings.capacity
  /-- No slot is lost, and none is given back twice. -/
  conserved : host.gate.free + host.held = settings.capacity
  /-- A transport has given its slot back when a `connect` of it has failed or its `close` has ended. -/
  released : ∀ transport ∈ host.transports, transport.slots ≤ 1 ∧
    (transport.connection = false → transport.method = none → transport.slots = 0)
  /-- A tunnel has one transport and one listener at most. -/
  alone : ∀ tunnel ∈ host.tunnels, tunnel.transports.length ≤ 1 ∧ tunnel.listeners.length ≤ 1
  /-- Once `close` has returned, or `open` has raised, it has none. -/
  closed : ∀ tunnel ∈ host.tunnels, tunnel.call = .closed ∨ tunnel.call = .discarded →
    tunnel.transports = [] ∧ tunnel.listeners = []
  /-- And once `close` has returned, it stays as it is. -/
  stays : ∀ (later older : List Event) (before : Alias) (index : Nat) (tunnel : Tunnel), history = later ++ older →
    (aliasSystem getPort settings).reached older = some before → before.tunnels[index]? = some tunnel →
    tunnel.call = .closed → host.tunnels[index]? = some tunnel
  /-- A tunnel with a configured port listens on no other. -/
  configured : ∀ tunnel ∈ host.tunnels, ∀ port, tunnel.configured = some port →
    ∀ listening ∈ tunnel.listeners, listening = port.val

/-- In every interleaving of the tasks of an alias, whatever fails or is cancelled at any await, where a listener
that is asked for a port is bound to that port. -/
theorem slots_kept {getPort : Nat → Nat → Nat} {settings : Settings} {history : List Event} {host : Alias}
    (asked : ∀ port choice, port ≠ 0 → getPort port choice = port)
    (reached : (aliasSystem getPort settings).reached history = some host) :
    SlotsKept getPort settings history host := by
  have sound := Alias.reached_sound asked reached
  have slots := sound.slots
  have holds : ∀ tunnel ∈ host.tunnels, tunnel.Holds := fun tunnel member => (sound.tunnels tunnel member).holds
  refine ⟨?_, slots, ?_, ?_, ?_, ?_, ?_⟩
  · have covered := sound.covered
    omega
  · intro transport member
    cases sound.transports transport member with
    | fresh => decide
    | connected => decide
    | closing => decide
    | connecting phase => cases phase <;> decide
  · exact fun tunnel member => ⟨(holds tunnel member).transports, (holds tunnel member).listeners⟩
  · exact fun tunnel member => (holds tunnel member).closed
  · intro later older before index tunnel split led here closed
    subst split
    have start := Alias.reached_sound asked led
    -- the tunnel is followed through the rest of the run together with what makes every state sound
    exact (System.invariant_later_always (P := fun state => state.Sound settings ∧ state.tunnels[index]? = some tunnel)
      (fun _ _ _ holds step => ⟨Alias.step_sound asked holds.1 step, Alias.step_closed holds.1 holds.2 closed step⟩)
      led ⟨start, here⟩ reached).2
  · intro tunnel member port same listening held
    exact (holds tunnel member).ports listening held port same

/-- The system's choice among the free ports. -/
def ephemeral (port choice : Nat) : Nat := if port = 0 then 49152 + choice else port

/-- A tunnel on port 8001 drops and gives way to another task, whose dial is cancelled. Its next attempt cannot bind
the port, and `close` cancels the one after that before it can. -/
def reconnectRun : List Event :=
  let tunnel (event : TunnelEvent) := Event.tunnel 0 event
  let went (now : Int) := Wake.finished now
  [tunnel (.call (went 28)), tunnel (.watchdog (went 27)), tunnel (.watchdog .cancelled), tunnel .close,
    tunnel (.watchdog (went 25)), tunnel (.watchdog (went 24)), tunnel (.watchdog (went 23)),
    tunnel (.watchdog (went 22)), tunnel (.watchdog (went 21)), tunnel (.watchdog (.error true)),
    tunnel (.watchdog (went 20)), tunnel (.watchdog (went 19)), tunnel (.watchdog (went 18)),
    tunnel (.watchdog (went 17)), .session 0 (.resume .cancelled), .session 0 (.resume (went 16)),
    .session 0 (.resume (went 15)), tunnel (.watchdog (went 14)), tunnel (.watchdog (went 13)),
    tunnel (.watchdog (went 12)), .session 0 .connect, .newSession, tunnel (.watchdog (went 5)),
    tunnel (.call (.bound 0)), tunnel (.call (went 4)), tunnel (.call (went 3)), tunnel (.call (went 2)),
    tunnel (.open false), .newTunnel (some ⟨8001, by decide⟩)]

theorem reconnect_run_kept :
    ∃ host, (aliasSystem ephemeral ⟨1, 5⟩).reached reconnectRun = some host ∧
      host.tunnels.map Tunnel.call = [.closed] ∧ host.gate.free = 1 ∧
      SlotsKept ephemeral ⟨1, 5⟩ reconnectRun host := by
  have asked : ∀ port choice, port ≠ 0 → ephemeral port choice = port := fun _ _ given => if_neg given
  obtain ⟨host, reached⟩ : ∃ host, (aliasSystem ephemeral ⟨1, 5⟩).reached reconnectRun = some host :=
    Option.isSome_iff_exists.mp (by decide)
  have ended : ((aliasSystem ephemeral ⟨1, 5⟩).reached reconnectRun).map
      (fun host => (host.tunnels.map Tunnel.call, host.gate.free)) = some ([.closed], 1) := by decide
  rw [reached, Option.map_some, Option.some.injEq, Prod.mk.injEq] at ended
  exact ⟨host, reached, ended.1, ended.2, slots_kept asked reached⟩

end PhysicalAiStudio.Remote.Ssh
