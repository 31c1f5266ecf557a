import Mathlib.Algebra.BigOperators.Group.List.Basic
import PhysicalAiStudio.Concurrency.Transition
import PhysicalAiStudio.Remote.SshTransport

/-! SSH tunnels, and the alias whose connections they and other tasks share.

A tunnel is opened once and closed once by the manager, under the manager's lock; between
the two its watchdog replaces a dropped connection. Both replace it by the same coroutine,
`_connect_and_forward`. Any task can be cancelled at any await. The waiting times between
two attempts are left out: an attempt can follow the last one at any time.
-/

set_option autoImplicit false

namespace PhysicalAiStudio.Remote.Ssh

open Concurrency

/-- `ssh_local_port` where the schema accepts it. -/
abbrev LocalPort := { port : Nat // 1 ≤ port ∧ port ≤ 65535 }

/-- The awaits of `_connect_and_forward`, each with the local variables still in use. -/
inductive Attempt where
  | closingListener (port : Nat)
  | closingTransport (transport : Transport)
  | connecting (transport : Transport) (preferredPort : Option Nat)
  | forwarding (transport : Transport) (preferredPort : Option Nat)
  | rebinding (transport : Transport)
  | abandoning (transport : Transport) (pending : Ending)
  deriving DecidableEq

/-- Where the task of `_watch` stands; `absent` before it is created. -/
inductive Watchdog where
  | absent
  | created
  | watching
  | reconnecting (attempt : Attempt)
  | backingOff
  | done
  deriving DecidableEq

/-- What the manager made of the tunnel: `open` and `close` by their awaits, and how they ended. -/
inductive Call where
  | unopened
  | opening (retryOnFailure : Bool) (attempt : Attempt)
  | opened
  | discarded
  | awaitingWatchdog
  | closingListener (port : Nat)
  | closingTransport (transport : Transport)
  | closed
  | interrupted
  deriving DecidableEq

structure Tunnel where
  configured : Option LocalPort
  transport : Option Transport
  listener : Option Nat
  localPort : Option Nat
  fixedPort : Bool
  closed : Bool
  watchdog : Watchdog
  call : Call
  deriving DecidableEq

namespace Attempt

def transports : Attempt → List Transport
  | closingListener _ => []
  | closingTransport transport | connecting transport _ | forwarding transport _ | rebinding transport
  | abandoning transport _ => [transport]

def listeners : Attempt → List Nat
  | closingListener port => [port]
  | _ => []

end Attempt

/-- How far `_connect_and_forward` got. -/
inductive Progress where
  | awaits (attempt : Attempt)
  | ended (ending : Ending)

namespace Tunnel

def fresh (configured : Option LocalPort) : Tunnel where
  configured := configured
  transport := none
  listener := none
  localPort := configured.map Subtype.val
  fixedPort := configured.isSome
  closed := false
  watchdog := .absent
  call := .unopened

def dial (tunnel : Tunnel) : Attempt := .connecting Transport.fresh.connect tunnel.localPort

/-- `_close_current_connection` after its listener; the attempt dials when it is done. -/
def closeTransport (gate : Gate) (tunnel : Tunnel) : Gate × Tunnel × Attempt :=
  match tunnel.transport with
  | none => (gate, tunnel, tunnel.dial)
  | some transport =>
    match transport.close gate with
    | (gate, transport, none) => (gate, { tunnel with transport := none }, .closingTransport transport)
    | (gate, _, some _) => (gate, { tunnel with transport := none }, tunnel.dial)

def connectAndForward (gate : Gate) (tunnel : Tunnel) : Gate × Tunnel × Attempt :=
  match tunnel.listener with
  | some port => (gate, { tunnel with listener := none }, .closingListener port)
  | none => tunnel.closeTransport gate

/-- `except BaseException`: the new transport is closed, and the exception goes on. -/
def abandon (gate : Gate) (transport : Transport) (pending : Ending) : Gate × Progress :=
  match transport.close gate with
  | (gate, transport, none) => (gate, .awaits (.abandoning transport pending))
  | (gate, _, some _) => (gate, .ended pending)

def established (tunnel : Tunnel) (transport : Transport) (port : Nat) : Tunnel :=
  { tunnel with transport := some transport, listener := some port, localPort := some port }

section

variable (getPort : Nat → Nat → Nat) (settings : Settings)

/-- `_connect_and_forward` goes on. A listener asked to bind a port reports one by `get_port`. -/
def resumeAttempt (gate : Gate) (tunnel : Tunnel) (attempt : Attempt) (wake : Wake) :
    Option (Gate × Tunnel × Progress) :=
  match attempt, wake with
  | .closingListener _, .finished _ | .closingListener _, .error _ =>
    let (gate, tunnel, attempt) := tunnel.closeTransport gate
    some (gate, tunnel, .awaits attempt)
  | .closingListener _, .cancelled => some (gate, tunnel, .ended .cancelled)
  | .closingTransport transport, wake =>
    (transport.resume settings gate wake).map fun (gate, transport, ending) =>
      match ending with
      | none => (gate, tunnel, .awaits (.closingTransport transport))
      | some .returned => (gate, tunnel, .awaits tunnel.dial)
      | some ending => (gate, tunnel, .ended ending)
  | .connecting transport preferredPort, wake =>
    (transport.resume settings gate wake).map fun (gate, transport, ending) =>
      match ending with
      | none => (gate, tunnel, .awaits (.connecting transport preferredPort))
      | some .returned => (gate, tunnel, .awaits (.forwarding transport preferredPort))
      | some ending => let (gate, progress) := abandon gate transport ending; (gate, tunnel, progress)
  | .forwarding transport preferredPort, .bound choice =>
    some (gate, tunnel.established transport (getPort (preferredPort.getD 0) choice), .ended .returned)
  | .forwarding transport preferredPort, .error osError =>
    -- only a port of an earlier connection may be given up for another
    if osError ∧ preferredPort ≠ none ∧ ¬tunnel.fixedPort then some (gate, tunnel, .awaits (.rebinding transport))
    else let (gate, progress) := abandon gate transport .raised; some (gate, tunnel, progress)
  | .rebinding transport, .bound choice =>
    some (gate, tunnel.established transport (getPort 0 choice), .ended .returned)
  | .rebinding transport, .error _ =>
    let (gate, progress) := abandon gate transport .raised; some (gate, tunnel, progress)
  | .forwarding transport _, .cancelled | .rebinding transport, .cancelled =>
    let (gate, progress) := abandon gate transport .cancelled; some (gate, tunnel, progress)
  | .abandoning transport pending, wake =>
    (transport.resume settings gate wake).map fun (gate, transport, ending) =>
      match ending with
      | none => (gate, tunnel, .awaits (.abandoning transport pending))
      | some .returned => (gate, tunnel, .ended pending)
      | some ending => (gate, tunnel, .ended ending)
  | _, _ => none

/-- The head of the loop of `_reconnect_with_backoff`; when it ends for a closed tunnel, so does `_watch`. -/
def reconnectWithBackoff (gate : Gate) (tunnel : Tunnel) : Gate × Tunnel :=
  if tunnel.closed then (gate, { tunnel with watchdog := .done })
  else
    let (gate, tunnel, attempt) := tunnel.connectAndForward gate
    (gate, { tunnel with watchdog := .reconnecting attempt })

def watch (gate : Gate) (tunnel : Tunnel) : Gate × Tunnel :=
  if tunnel.closed then (gate, { tunnel with watchdog := .done })
  else if tunnel.listener.isSome then (gate, { tunnel with watchdog := .watching })
  else tunnel.reconnectWithBackoff gate

def resumeWatchdog (gate : Gate) (tunnel : Tunnel) (wake : Wake) : Option (Gate × Tunnel) :=
  match tunnel.watchdog, wake with
  | .created, .finished _ => some (tunnel.watch gate)
  -- the listener is closed when the connection drops
  | .watching, .finished _ | .backingOff, .finished _ => some (tunnel.reconnectWithBackoff gate)
  | .created, .cancelled | .watching, .cancelled | .backingOff, .cancelled | .watching, .error _ =>
    some (gate, { tunnel with watchdog := .done })
  | .reconnecting attempt, wake =>
    (tunnel.resumeAttempt getPort settings gate attempt wake).map fun (gate, tunnel, progress) =>
      match progress with
      | .awaits attempt => (gate, { tunnel with watchdog := .reconnecting attempt })
      | .ended .returned => tunnel.watch gate
      | .ended .raised => (gate, { tunnel with watchdog := .backingOff })
      | .ended .cancelled => (gate, { tunnel with watchdog := .done })
  | _, _ => none

def finishClose (gate : Gate) (tunnel : Tunnel) : Gate × Tunnel :=
  match tunnel.transport with
  | none => (gate, { tunnel with call := .closed })
  | some transport =>
    match transport.close gate with
    | (gate, transport, none) => (gate, { tunnel with transport := none, call := .closingTransport transport })
    | (gate, _, some _) => (gate, { tunnel with transport := none, call := .closed })

def resumeCall (gate : Gate) (tunnel : Tunnel) (wake : Wake) : Option (Gate × Tunnel) :=
  match tunnel.call, wake with
  | .opening retryOnFailure attempt, wake =>
    (tunnel.resumeAttempt getPort settings gate attempt wake).map fun (gate, tunnel, progress) =>
      match progress with
      | .awaits attempt => (gate, { tunnel with call := .opening retryOnFailure attempt })
      | .ended .returned => (gate, { tunnel with watchdog := .created, call := .opened })
      | .ended .raised =>
        if retryOnFailure then (gate, { tunnel with watchdog := .created, call := .opened })
        else (gate, { tunnel with call := .discarded })
      | .ended .cancelled => (gate, { tunnel with call := .discarded })
  -- A cancellation of `close` is passed on to the watchdog, so that the await goes on until it is done;
  -- what it comes to is then ignored.
  | .awaitingWatchdog, _ =>
    if tunnel.watchdog = .done then
      match tunnel.listener with
      | some port => some (gate, { tunnel with listener := none, call := .closingListener port })
      | none => some (tunnel.finishClose gate)
    else none
  | .closingListener _, .finished _ | .closingListener _, .error _ => some (tunnel.finishClose gate)
  -- the exception leaves `close` before it comes to the transport
  | .closingListener _, .cancelled => some (gate, { tunnel with call := .interrupted })
  | .closingTransport transport, wake =>
    (transport.resume settings gate wake).map fun (gate, transport, ending) =>
      match ending with
      | none => (gate, { tunnel with call := .closingTransport transport })
      | some .returned => (gate, { tunnel with call := .closed })
      | some _ => (gate, { tunnel with call := .interrupted })
  | _, _ => none

end

end Tunnel

inductive TunnelEvent where
  | open (retryOnFailure : Bool)
  | close
  | call (wake : Wake)
  | watchdog (wake : Wake)
  deriving DecidableEq

/-- One event of a tunnel. The manager opens a tunnel once, and closes it once if `open` returned. -/
def Tunnel.step (getPort : Nat → Nat → Nat) (settings : Settings) (gate : Gate) (tunnel : Tunnel) :
    TunnelEvent → Option (Gate × Tunnel)
  | .open retryOnFailure =>
    if tunnel.call = .unopened then
      let (gate, tunnel, attempt) := tunnel.connectAndForward gate
      some (gate, { tunnel with call := .opening retryOnFailure attempt })
    else none
  | .close =>
    if tunnel.call = .opened then some (gate, { tunnel with closed := true, call := .awaitingWatchdog }) else none
  | .call wake => tunnel.resumeCall getPort settings gate wake
  | .watchdog wake => tunnel.resumeWatchdog getPort settings gate wake

inductive SessionEvent where
  | connect
  | close
  | resume (wake : Wake)
  deriving DecidableEq

def Transport.step (settings : Settings) (gate : Gate) (transport : Transport) :
    SessionEvent → Option (Gate × Transport)
  | .connect => if transport.method = none then some (gate, transport.connect) else none
  | .close =>
    if transport.method = none then
      let (gate, transport, _) := transport.close gate
      some (gate, transport)
    else none
  | .resume wake => (transport.resume settings gate wake).map fun (gate, transport, _) => (gate, transport)

structure Alias where
  gate : Gate
  sessions : List Transport
  tunnels : List Tunnel
  deriving DecidableEq

inductive Event where
  | newSession
  | session (index : Nat) (event : SessionEvent)
  | newTunnel (localPort : Option LocalPort)
  | tunnel (index : Nat) (event : TunnelEvent)
  deriving DecidableEq

namespace Alias

def step (getPort : Nat → Nat → Nat) (settings : Settings) (host : Alias) : Event → Option Alias
  | .newSession => some { host with sessions := host.sessions ++ [Transport.fresh] }
  | .newTunnel localPort => some { host with tunnels := host.tunnels ++ [Tunnel.fresh localPort] }
  | .session index event =>
    host.sessions[index]?.bind fun transport =>
      (transport.step settings host.gate event).map fun (gate, transport) =>
        { host with gate := gate, sessions := host.sessions.set index transport }
  | .tunnel index event =>
    host.tunnels[index]?.bind fun tunnel =>
      (tunnel.step getPort settings host.gate event).map fun (gate, tunnel) =>
        { host with gate := gate, tunnels := host.tunnels.set index tunnel }

end Alias

def aliasSystem (getPort : Nat → Nat → Nat) (settings : Settings) : System Alias Event where
  initial := ⟨Gate.fresh settings, [], []⟩
  step := Alias.step getPort settings

end PhysicalAiStudio.Remote.Ssh
