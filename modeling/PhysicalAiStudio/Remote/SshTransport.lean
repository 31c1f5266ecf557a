import Mathlib.Data.Int.Notation
import Mathlib.Order.Lattice

/-! A bounded SSH connection.

Every transport to one alias takes a slot of the alias's gate before it dials and gives it
back when its connection is closed. A method is a coroutine: it runs from one await to the
next, and what the await comes to is the wake that resumes it. The methods of one transport
are called by the task that holds it, one after the other.
-/

set_option autoImplicit false

namespace PhysicalAiStudio.Remote.Ssh

structure Settings where
  maxConnectionsPerServer : Int
  preflightThrottle : Int

def Settings.capacity (settings : Settings) : Nat := (max 1 settings.maxConnectionsPerServer).toNat

/-- `_AliasGate`: the value of the semaphore, the lock of the throttle and the last dial. -/
structure Gate where
  free : Nat
  locked : Bool
  lastConnectAt : Option Int
  deriving DecidableEq

namespace Gate

def fresh (settings : Settings) : Gate := ⟨settings.capacity, false, none⟩

/-- `semaphore.release()`: no bound keeps it from being called too often. -/
def release (gate : Gate) : Gate := { gate with free := gate.free + 1 }

def remaining (settings : Settings) (gate : Gate) (now : Int) : Int :=
  gate.lastConnectAt.elim 0 fun last => settings.preflightThrottle - (now - last)

end Gate

/-- What an await comes to: its result with the time, the port that was bound, an exception, or a cancellation. -/
inductive Wake where
  | finished (now : Int)
  | bound (choice : Nat)
  | error (osError : Bool)
  | cancelled
  deriving DecidableEq

inductive Ending where
  | returned
  | raised
  | cancelled
  deriving DecidableEq

/-- The awaits of `connect`: the semaphore, the lock of the throttle, its sleep, and the dial. -/
inductive Phase where
  | slot
  | lock
  | throttle
  | dial
  deriving DecidableEq

inductive Method where
  | connect (phase : Phase)
  | close (gate : Bool)
  deriving DecidableEq

structure Transport where
  connection : Bool
  gate : Bool
  method : Option Method
  deriving DecidableEq

namespace Transport

def fresh : Transport := ⟨false, false, none⟩

def connect (transport : Transport) : Transport :=
  if transport.connection then transport else { transport with method := some (.connect .slot) }

def close (gate : Gate) (transport : Transport) : Gate × Transport × Option Ending :=
  if transport.connection then (gate, ⟨false, false, some (.close transport.gate)⟩, none)
  else (if transport.gate then gate.release else gate, fresh, some .returned)

/-- The throttle of `_acquire_gate`, from the lock on; its sleep keeps the lock. -/
def throttle (settings : Settings) (gate : Gate) (transport : Transport) (now : Int) :
    Gate × Transport × Option Ending :=
  if 0 < gate.remaining settings now then
    ({ gate with locked := true }, { transport with method := some (.connect .throttle) }, none)
  else ({ gate with lastConnectAt := some now }, { transport with method := some (.connect .dial) }, none)

/-- A method goes on to its next await or to its end; `none` where the await cannot come to this. -/
def resume (settings : Settings) (gate : Gate) (transport : Transport) (wake : Wake) :
    Option (Gate × Transport × Option Ending) :=
  match transport.method, wake with
  | some (.connect .slot), .finished _ =>
    if gate.free = 0 then none
    else some ({ gate with free := gate.free - 1 }, { transport with method := some (.connect .lock) }, none)
  | some (.connect .slot), .cancelled => some (gate, { transport with method := none }, some .cancelled)
  | some (.connect .lock), .finished now =>
    if gate.locked then none else some (throttle settings gate transport now)
  | some (.connect .lock), .cancelled => some (gate.release, { transport with method := none }, some .cancelled)
  | some (.connect .throttle), .finished now =>
    some ({ gate with locked := false, lastConnectAt := some now },
      { transport with method := some (.connect .dial) }, none)
  | some (.connect .throttle), .cancelled =>
    some (Gate.release { gate with locked := false }, { transport with method := none }, some .cancelled)
  | some (.connect .dial), .finished _ => some (gate, ⟨true, true, none⟩, some .returned)
  | some (.connect .dial), .error _ => some (gate.release, { transport with method := none }, some .raised)
  | some (.connect .dial), .cancelled => some (gate.release, { transport with method := none }, some .cancelled)
  -- `wait_closed` may raise what it likes, but only a cancellation leaves `close`; the slot is free either way
  | some (.close held), .finished _ | some (.close held), .error _ =>
    some (if held then gate.release else gate, { transport with method := none }, some .returned)
  | some (.close held), .cancelled =>
    some (if held then gate.release else gate, { transport with method := none }, some .cancelled)
  | _, _ => none

/-- The slots that a transport has taken and not given back. -/
def slots (transport : Transport) : Nat :=
  transport.gate.toNat +
    match transport.method with
    | some (.connect .slot) | none => 0
    | some (.connect .lock) | some (.connect .throttle) | some (.connect .dial) => 1
    | some (.close held) => held.toNat

def connections (transport : Transport) : Nat :=
  transport.connection.toNat +
    match transport.method with
    | some (.connect .dial) | some (.close _) => 1
    | some (.connect _) | none => 0

end Transport

end PhysicalAiStudio.Remote.Ssh
