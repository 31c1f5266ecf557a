import PhysicalAiStudio.Concurrency.Transition
import PhysicalAiStudio.Runtime.CameraClaims

/-! The websockets of the runtime sessions, and the pins they hold for them.

A websocket claims its cameras, starts or joins the session of its robot in a thread, and
gives its pins up when it ends without a session, or when its session is dead. The thread
goes on when the websocket has ended. The lock on the session name admits one live
session for a holder.
-/

set_option autoImplicit false

namespace PhysicalAiStudio.Runtime.Cameras

open Concurrency

/-- A live session process, and the fingerprints of the cameras it uses. -/
structure Session where
  pid : Nat
  cameras : List String
  deriving DecidableEq

/-- How far the thread of `start_runtime_session` is. -/
inductive Startup where
  | unstarted
  | connecting
  /-- The child has the name lock, and `start` waits for its answer. -/
  | launched (pid : Nat)
  | spawned (pid : Nat)
  | attached (pid : Nat)
  | failed
  deriving DecidableEq

/-- How far the handler `runtime_websocket` is. -/
inductive Handler where
  | absent
  | claimed
  | running
  /-- It has ended, and its waiter polls the session. -/
  | waiting
  | concluded
  deriving DecidableEq

structure Websocket where
  holder : String := ""
  claims : List CameraClaim := []
  generation : Nat := 0
  handler : Handler := .absent
  startup : Startup := .unstarted

structure Host where
  registry : CameraClaimRegistry := {}
  sessions : String → Option Session := fun _ => none
  websockets : Nat → Websocket := fun _ => {}
  launches : Nat := 0

inductive HostEvent where
  | claimed (websocket : Nat) (sessionName projectName : String) (cameras : List Camera)
  /-- `client.open` or the owner's construction raised. -/
  | openFailed (websocket : Nat)
  | startupBegun (websocket : Nat)
  | launched (websocket : Nat)
  /-- `start` raised, and has stopped the child. -/
  | launchFailed (websocket : Nat)
  | spawned (websocket : Nat)
  /-- The spawned child did not answer or is another's, and was stopped. -/
  | spawnStopped (websocket : Nat)
  | attached (websocket : Nat)
  | startupFailed (websocket : Nat)
  /-- `asyncio.wait` raised. -/
  | waitFailed (websocket : Nat)
  | ended (websocket : Nat)
  | waiterReleased (websocket : Nat)
  | sessionEnded (holder : String)

namespace Startup

/-- The process that the owner knows of. -/
def pid? : Startup → Option Nat
  | .launched pid | .spawned pid | .attached pid => some pid
  | .unstarted | .connecting | .failed => none

/-- The owner has a session, dead or alive. -/
def Settled : Startup → Prop
  | .spawned _ | .attached _ => True
  | .unstarted | .connecting | .launched _ | .failed => False

instance : (startup : Startup) → Decidable startup.Settled
  | .spawned _ | .attached _ => inferInstanceAs (Decidable True)
  | .unstarted | .connecting | .launched _ | .failed => inferInstanceAs (Decidable False)

end Startup

namespace Host

def setWebsocket (position : Nat) (websocket : Websocket) (host : Host) : Host :=
  { host with websockets := Function.update host.websockets position websocket }

def isAlive (host : Host) (websocket : Websocket) : Bool :=
  match websocket.startup with
  | .spawned pid | .attached pid => (host.sessions websocket.holder).any (·.pid = pid)
  | .unstarted | .connecting | .launched _ | .failed => false

def released (host : Host) (position : Nat) (websocket : Websocket) : Host :=
  { host with registry := host.registry.release websocket.holder (some websocket.generation) }.setWebsocket position
    { websocket with handler := .concluded }

def killed (host : Host) (holder : String) (pid : Nat) : Host :=
  { host with
    sessions := Function.update host.sessions holder ((host.sessions holder).filter (·.pid ≠ pid)) }

def step (host : Host) : HostEvent → Option Host
  | .claimed position sessionName projectName cameras =>
    if (host.websockets position).handler = .absent then
      let websocket := { host.websockets position with holder := sessionName }
      match cameraClaims sessionName projectName cameras with
      | .error _ => some (host.setWebsocket position { websocket with handler := .concluded })
      | .ok claims =>
        match host.registry.claim claims with
        | (registry, .error _) =>
          some ({ host with registry := registry }.setWebsocket position { websocket with handler := .concluded })
        | (registry, .ok generation) =>
          some ({ host with registry := registry }.setWebsocket position
            { websocket with claims := claims, generation := generation, handler := .claimed })
    else none
  | .openFailed position =>
    let websocket := host.websockets position
    if websocket.handler = .claimed then some (host.released position websocket) else none
  | .startupBegun position =>
    let websocket := host.websockets position
    if websocket.handler = .claimed then
      some (host.setWebsocket position { websocket with handler := .running, startup := .connecting })
    else none
  | .launched position =>
    let websocket := host.websockets position
    if websocket.startup = .connecting ∧ host.sessions websocket.holder = none then
      let session := { pid := host.launches, cameras := websocket.claims.map CameraClaim.fingerprint }
      some ({ host with
        sessions := Function.update host.sessions websocket.holder (some session)
        launches := host.launches + 1 }.setWebsocket position { websocket with startup := .launched host.launches })
    else none
  | .launchFailed position =>
    let websocket := host.websockets position
    match websocket.startup with
    | .launched pid =>
      some ((host.killed websocket.holder pid).setWebsocket position { websocket with startup := .connecting })
    | _ => none
  | .spawned position =>
    let websocket := host.websockets position
    match websocket.startup with
    | .launched pid => some (host.setWebsocket position { websocket with startup := .spawned pid })
    | _ => none
  | .spawnStopped position =>
    let websocket := host.websockets position
    match websocket.startup with
    | .spawned pid =>
      some ((host.killed websocket.holder pid).setWebsocket position { websocket with startup := .failed })
    | _ => none
  | .attached position =>
    let websocket := host.websockets position
    match websocket.startup, host.sessions websocket.holder with
    | .connecting, some session =>
      some (host.setWebsocket position { websocket with startup := .attached session.pid })
    | _, _ => none
  | .startupFailed position =>
    let websocket := host.websockets position
    if websocket.startup = .connecting then
      some (host.setWebsocket position { websocket with startup := .failed })
    else none
  | .waitFailed position =>
    let websocket := host.websockets position
    if websocket.handler = .running then some (host.released position websocket) else none
  -- As long as the process lives a waiter keeps the claims.
  | .ended position =>
    let websocket := host.websockets position
    if websocket.handler = .running then
      if host.isAlive websocket then some (host.setWebsocket position { websocket with handler := .waiting })
      else some (host.released position websocket)
    else none
  | .waiterReleased position =>
    let websocket := host.websockets position
    if websocket.handler = .waiting ∧ host.isAlive websocket = false then some (host.released position websocket)
    else none
  | .sessionEnded holder => some { host with sessions := Function.update host.sessions holder none }

def Newest (host : Host) (websocket : Websocket) : Prop :=
  host.registry.generation websocket.holder = some websocket.generation

def Unused (host : Host) (holder : String) : Prop :=
  ∀ session ∈ host.sessions holder, session.cameras = []

/-- The websocket with the newest claim of a holder ends without looking at a session of its own only while no live
session of the holder uses cameras, and a session with cameras is launched only by the running websocket with the newest
claim. -/
def Orderly (host : Host) : HostEvent → Prop
  | .openFailed position | .waitFailed position =>
    host.Newest (host.websockets position) → host.Unused (host.websockets position).holder
  | .ended position =>
    ¬(host.websockets position).startup.Settled → host.Newest (host.websockets position) →
      host.Unused (host.websockets position).holder
  | .launched position =>
    (host.websockets position).claims ≠ [] →
      host.Newest (host.websockets position) ∧ (host.websockets position).handler = .running
  | _ => True

instance (host : Host) (websocket : Websocket) : Decidable (host.Newest websocket) :=
  inferInstanceAs (Decidable (_ = _))

instance (host : Host) (holder : String) : Decidable (host.Unused holder) :=
  inferInstanceAs (Decidable (∀ session ∈ host.sessions holder, session.cameras = []))

instance (host : Host) : (event : HostEvent) → Decidable (host.Orderly event)
  | .openFailed _ | .waitFailed _ => inferInstanceAs (Decidable (_ → _))
  | .ended _ => inferInstanceAs (Decidable (¬_ → _ → _))
  | .launched _ => inferInstanceAs (Decidable (_ → _ ∧ _))
  | .claimed .. | .startupBegun _ | .launchFailed _ | .spawned _ | .spawnStopped _ | .attached _ | .startupFailed _
  | .waiterReleased _ | .sessionEnded _ => inferInstanceAs (Decidable True)

def Covered (host : Host) : Prop :=
  ∀ holder, ∀ session ∈ host.sessions holder, ∀ fingerprint ∈ session.cameras, host.registry.Pinned holder fingerprint

end Host

def apiProcess : System Host HostEvent where
  initial := {}
  step := Host.step

namespace Host

structure Inv (host : Host) : Prop where
  agrees : host.registry.Agrees
  covered : host.Covered
  fresh : ∀ i, (host.websockets i).handler = .absent →
    (host.websockets i).startup = .unstarted ∧ (host.websockets i).claims = [] ∧ (host.websockets i).generation = 0
  own : ∀ i, ∀ claim ∈ (host.websockets i).claims, claim.holder = (host.websockets i).holder
  positive : ∀ holder, host.registry.generation holder ≠ some 0
  bounded : ∀ i, (host.websockets i).generation ≤ (host.registry.generation (host.websockets i).holder).getD 0
  unique : ∀ i j, (host.websockets i).holder = (host.websockets j).holder →
    (host.websockets i).generation = (host.websockets j).generation → (host.websockets i).generation ≠ 0 → i = j
  held : ∀ i, host.Newest (host.websockets i) → (host.websockets i).handler ≠ .concluded →
    ∀ claim ∈ (host.websockets i).claims, host.registry.Pinned (host.websockets i).holder claim.fingerprint
  /-- The process that the websocket with the newest claim knows of is the live session that uses cameras. -/
  joined : ∀ i, host.Newest (host.websockets i) → ∀ session ∈ host.sessions (host.websockets i).holder,
    session.cameras ≠ [] → (∀ pid ∈ (host.websockets i).startup.pid?, pid = session.pid) ∧
      ((host.websockets i).handler = .waiting → (host.websockets i).startup.Settled)

variable {host next : Host} {event : HostEvent} {position : Nat} {websocket : Websocket} {holder : String}

@[simp]
theorem setWebsocket_registry : (host.setWebsocket position websocket).registry = host.registry := rfl

theorem setWebsocket_websockets {i : Nat} :
    (host.setWebsocket position websocket).websockets i = if i = position then websocket else host.websockets i := by
  simp only [setWebsocket, Function.update_apply]

theorem Inv.newest_unique (inv : host.Inv) {i j : Nat} (same : (host.websockets i).holder = (host.websockets j).holder)
    (one : host.Newest (host.websockets i)) (other : host.Newest (host.websockets j)) : i = j := by
  have generations : (host.websockets i).generation = (host.websockets j).generation := by
    rw [Newest] at one other
    rw [same, other] at one
    exact (Option.some.inj one).symm
  refine inv.unique i j same generations ?_
  rintro zero
  rw [Newest, zero] at one
  exact inv.positive _ one

theorem Inv.present (inv : host.Inv) (started : (host.websockets position).startup ≠ .unstarted) :
    (host.websockets position).handler ≠ .absent :=
  fun absent => started (inv.fresh position absent).1

theorem Inv.advance (inv : host.Inv) (sameHolder : websocket.holder = (host.websockets position).holder)
    (sameClaims : websocket.claims = (host.websockets position).claims)
    (sameGeneration : websocket.generation = (host.websockets position).generation)
    (present : websocket.handler ≠ .absent)
    (kept : websocket.handler ≠ .concluded → (host.websockets position).handler ≠ .concluded)
    (joined : host.Newest (host.websockets position) → ∀ session ∈ host.sessions (host.websockets position).holder,
      session.cameras ≠ [] → (∀ pid ∈ websocket.startup.pid?, pid = session.pid) ∧
        (websocket.handler = .waiting → websocket.startup.Settled)) :
    (host.setWebsocket position websocket).Inv where
  agrees := inv.agrees
  covered := inv.covered
  fresh i absent := by
    rw [setWebsocket_websockets] at absent ⊢
    split at absent
    · exact absurd absent present
    · next other =>
      rw [if_neg other]
      exact inv.fresh i absent
  own i := by
    have := inv.own i
    grind -linarith [setWebsocket_websockets]
  positive := inv.positive
  bounded i := by
    have := inv.bounded i
    grind -linarith [setWebsocket_websockets, setWebsocket_registry]
  unique i j := by
    have := inv.unique i j
    grind -linarith [setWebsocket_websockets]
  held i newest := by
    rw [setWebsocket_websockets] at newest ⊢
    split
    · next same =>
      rw [if_pos same, Newest, sameHolder, sameGeneration] at newest
      rw [sameHolder, sameClaims]
      exact fun handler => inv.held position newest (kept handler)
    · next other =>
      rw [if_neg other] at newest
      exact inv.held i newest
  joined i newest := by
    rw [setWebsocket_websockets] at newest ⊢
    split
    · next same =>
      rw [if_pos same, Newest, sameHolder, sameGeneration] at newest
      rw [sameHolder]
      exact joined newest
    · next other =>
      rw [if_neg other] at newest
      exact inv.joined i newest

theorem Inv.concluded (inv : host.Inv) :
    (host.setWebsocket position { host.websockets position with handler := .concluded }).Inv :=
  inv.advance rfl rfl rfl (by simp) (by simp) fun newest session live used =>
    ⟨(inv.joined position newest session live used).1, by simp⟩

/-- A release for a holder without a live session that uses cameras, whose newest claim is given up. -/
theorem Inv.unpin (inv : host.Inv) (generation : Option Nat) (unused : host.Unused holder)
    (handlersOver : ∀ i, (host.websockets i).holder = holder → host.Newest (host.websockets i) →
      (host.websockets i).handler = .concluded) :
    Inv { host with registry := host.registry.release holder generation } where
  agrees := CameraClaimRegistry.release_agrees inv.agrees generation
  covered other session live fingerprint used := by
    have before := inv.covered other session live fingerprint used
    refine CameraClaimRegistry.release_other ?_ before
    rintro rfl
    rw [unused session live] at used
    cases used
  fresh := inv.fresh
  own := inv.own
  positive := by simpa using inv.positive
  bounded := by simpa using inv.bounded
  unique := inv.unique
  held i newest handler claim member := by
    simp only [Newest, CameraClaimRegistry.release_generation] at newest
    refine CameraClaimRegistry.release_other ?_ (inv.held i newest handler claim member)
    rintro same
    exact handler (handlersOver i same newest)
  joined i newest := by
    simp only [Newest, CameraClaimRegistry.release_generation] at newest
    exact inv.joined i newest

/-- A websocket gives its claim up while no live session of its holder uses cameras, or when another websocket of the
holder has claimed since. -/
theorem Inv.released (inv : host.Inv)
    (unused : host.Newest (host.websockets position) → host.Unused (host.websockets position).holder) :
    (host.released position (host.websockets position)).Inv := by
  by_cases newest : host.Newest (host.websockets position)
  · refine inv.concluded.unpin (some (host.websockets position).generation) (unused newest) ?_
    intro i same newestNow
    have here : i = position := by
      by_contra other
      simp only [setWebsocket_websockets, other, if_false] at same newestNow
      exact other (inv.newest_unique same newestNow newest)
    simp [setWebsocket_websockets, here]
  · have same : host.released position (host.websockets position) =
        host.setWebsocket position { host.websockets position with handler := .concluded } := by
      rw [Host.released, CameraClaimRegistry.release_stale newest]
    rw [same]
    exact inv.concluded

theorem Inv.fewer {sessions : String → Option Session} (inv : host.Inv)
    (fewer : ∀ holder, ∀ session ∈ sessions holder, session ∈ host.sessions holder) :
    Inv { host with sessions := sessions } where
  agrees := inv.agrees
  covered holder session live := inv.covered holder session (fewer holder session live)
  fresh := inv.fresh
  own := inv.own
  positive := inv.positive
  bounded := inv.bounded
  unique := inv.unique
  held := inv.held
  joined i newest session live := inv.joined i newest session (fewer _ session live)

theorem mem_killed {pid : Nat} {other : String} {session : Session} :
    session ∈ (host.killed holder pid).sessions other ↔
      session ∈ host.sessions other ∧ (other = holder → session.pid ≠ pid) := by
  by_cases same : other = holder
  · subst same
    simp [Host.killed, Option.filter_eq_some_iff]
  · simp [Host.killed, same]

theorem settled_of_alive (alive : host.isAlive websocket = true) : websocket.startup.Settled := by
  cases startup : websocket.startup with
  | spawned pid | attached pid => trivial
  | unstarted | connecting | launched pid | failed => simp [isAlive, startup] at alive

theorem Inv.killed {pid : Nat} (inv : host.Inv) : (host.killed holder pid).Inv :=
  inv.fewer fun _ _ live => (mem_killed.mp live).1

theorem Inv.unused_of_killed {pid : Nat} (inv : host.Inv) (newest : host.Newest (host.websockets position))
    (known : (host.websockets position).startup.pid? = some pid) :
    (host.killed (host.websockets position).holder pid).Unused (host.websockets position).holder := by
  intro session live
  obtain ⟨live, other⟩ := mem_killed.mp live
  by_contra used
  exact other rfl ((inv.joined position newest session live used).1 pid known).symm

theorem Inv.unused_of_dead (inv : host.Inv) (newest : host.Newest (host.websockets position))
    (settled : (host.websockets position).startup.Settled)
    (dead : host.isAlive (host.websockets position) = false) : host.Unused (host.websockets position).holder := by
  intro session live
  by_contra used
  have same := (inv.joined position newest session live used).1
  cases startup : (host.websockets position).startup with
  | spawned pid | attached pid =>
    rw [startup] at same
    rw [isAlive, startup, Option.mem_def.mp live] at dead
    simp [same pid rfl] at dead
  | unstarted | connecting | launched pid | failed =>
    rw [startup] at settled
    exact settled

theorem Inv.launched (inv : host.Inv) (orderly : host.Orderly (.launched position))
    (stepped : host.step (.launched position) = some next) : next.Inv := by
  simp only [Host.step, Option.ite_none_right_eq_some, Option.some.injEq] at stepped
  obtain ⟨⟨connecting, free⟩, rfl⟩ := stepped
  -- a live session of a holder is the launched one if it was not live before
  have cases_live {holder : String} {session : Session}
      (live : session ∈ Function.update host.sessions (host.websockets position).holder
        (some ⟨host.launches, (host.websockets position).claims.map CameraClaim.fingerprint⟩) holder) :
      session ∈ host.sessions holder ∨ holder = (host.websockets position).holder ∧
        session = ⟨host.launches, (host.websockets position).claims.map CameraClaim.fingerprint⟩ := by
    by_cases same : holder = (host.websockets position).holder
    · subst same
      exact .inr ⟨rfl, by simpa [eq_comm] using live⟩
    · rw [Function.update_of_ne same] at live
      exact .inl live
  have newest_of_used {session : Session} (used : session.cameras ≠ [])
      (made : session = ⟨host.launches, (host.websockets position).claims.map CameraClaim.fingerprint⟩) :
      host.Newest (host.websockets position) ∧ (host.websockets position).handler = .running := by
    subst made
    exact orderly (by simpa using used)
  have launched : Inv { host with
      sessions := Function.update host.sessions (host.websockets position).holder
        (some ⟨host.launches, (host.websockets position).claims.map CameraClaim.fingerprint⟩)
      launches := host.launches + 1 } := by
    refine ⟨inv.agrees, ?_, inv.fresh, inv.own, inv.positive, inv.bounded, inv.unique, inv.held, ?_⟩
    · intro holder session live fingerprint used
      rcases cases_live live with before | ⟨rfl, rfl⟩
      · exact inv.covered holder session before fingerprint used
      · obtain ⟨newest, running⟩ := newest_of_used (List.ne_nil_of_mem used) rfl
        obtain ⟨claim, member, rfl⟩ := List.mem_map.mp used
        exact inv.held position newest (by simp [running]) claim member
    · intro i newest session live used
      rcases cases_live live with before | ⟨same, made⟩
      · exact inv.joined i newest session before used
      · obtain ⟨newestHere, running⟩ := newest_of_used used made
        obtain rfl := inv.newest_unique same newest newestHere
        simp [connecting, running, Startup.pid?]
  refine launched.advance rfl rfl rfl (inv.present (by simp [connecting])) id ?_
  intro newest session live used
  rcases cases_live live with before | ⟨-, made⟩
  · rw [free] at before
    cases before
  · obtain ⟨-, running⟩ := newest_of_used used made
    simp [running, made, Startup.pid?]

theorem Inv.refused {sessionName : String} (inv : host.Inv) (absent : (host.websockets position).handler = .absent) :
    (host.setWebsocket position { host.websockets position with holder := sessionName, handler := .concluded }).Inv := by
  obtain ⟨unstarted, noClaims, zero⟩ := inv.fresh position absent
  refine ⟨inv.agrees, inv.covered, ?_, ?_, inv.positive, ?_, ?_, ?_, ?_⟩
  · intro i
    have := inv.fresh i
    grind -linarith [setWebsocket_websockets]
  · intro i
    have := inv.own i
    grind -linarith [setWebsocket_websockets]
  · intro i
    have := inv.bounded i
    grind -linarith [setWebsocket_websockets, setWebsocket_registry]
  · intro i j
    have := inv.unique i j
    grind -linarith [setWebsocket_websockets]
  · intro i newest handler
    rw [setWebsocket_websockets] at newest handler ⊢
    split at handler
    · exact absurd rfl handler
    · next other =>
      rw [if_neg other] at newest ⊢
      exact inv.held i newest handler
  · intro i newest
    rw [setWebsocket_websockets] at newest ⊢
    split
    · simp [unstarted, Startup.pid?]
    · next other =>
      rw [if_neg other] at newest
      exact inv.joined i newest

theorem Inv.accepted {claims : List CameraClaim} {generation : Nat} {sessionName : String} (inv : host.Inv)
    (absent : (host.websockets position).handler = .absent) (own : ∀ claim ∈ claims, claim.holder = sessionName)
    (accepted : (host.registry.claim claims).2 = .ok generation) :
    ({ host with registry := (host.registry.claim claims).1 }.setWebsocket position
      { host.websockets position with
        holder := sessionName, claims := claims, generation := generation, handler := .claimed }).Inv := by
  obtain ⟨unstarted, noClaims, zero⟩ := inv.fresh position absent
  have counted := CameraClaimRegistry.claim_generation accepted own
  -- the other websockets of the holder have older claims
  have older (i : Nat) (newest : (host.registry.claim claims).1.generation (host.websockets i).holder =
      some (host.websockets i).generation) : host.Newest (host.websockets i) := by
    rcases counted with ⟨-, -, same⟩ | ⟨-, next, updated⟩
    · rwa [same] at newest
    · rw [updated, Function.update_apply] at newest
      split at newest
      · next same =>
        have bounded := inv.bounded i
        rw [same] at bounded
        have := Option.some.inj newest
        omega
      · exact newest
  refine ⟨CameraClaimRegistry.claim_agrees inv.agrees own, ?_, ?_, ?_, ?_, ?_, ?_, ?_, ?_⟩
  · intro holder session live fingerprint used
    exact CameraClaimRegistry.claim_keeps (inv.covered holder session live fingerprint used)
  · intro i
    have := inv.fresh i
    grind -linarith [setWebsocket_websockets]
  · intro i
    have := inv.own i
    grind -linarith [setWebsocket_websockets]
  · intro holder
    have := inv.positive holder
    rw [setWebsocket_registry]
    rcases counted with ⟨-, -, same⟩ | ⟨-, next, updated⟩
    · rwa [same]
    · rw [updated, Function.update_apply, next]
      split
      · simp
      · exact this
  · intro i
    have := inv.bounded i
    rw [setWebsocket_registry, setWebsocket_websockets]
    rcases counted with ⟨-, next, same⟩ | ⟨-, next, updated⟩
    · rw [same]
      grind -linarith
    · rw [updated, Function.update_apply]
      grind -linarith
  · intro i j
    have := inv.unique i j
    have := inv.bounded i
    have := inv.bounded j
    grind -linarith [setWebsocket_websockets]
  · intro i newest handler
    rw [setWebsocket_websockets] at newest handler ⊢
    split
    · intro claim member
      have pinned := CameraClaimRegistry.claim_pins accepted member
      rwa [own claim member] at pinned
    · next other =>
      rw [if_neg other] at newest handler
      intro claim member
      exact CameraClaimRegistry.claim_keeps (inv.held i (older i newest) handler claim member)
  · intro i newest
    rw [setWebsocket_websockets] at newest ⊢
    split
    · simp [unstarted, Startup.pid?]
    · next other =>
      rw [if_neg other] at newest
      exact inv.joined i (older i newest)

theorem Inv.claimed {sessionName projectName : String} {cameras : List Camera} (inv : host.Inv)
    (stepped : host.step (.claimed position sessionName projectName cameras) = some next) : next.Inv := by
  simp only [Host.step, Option.ite_none_right_eq_some] at stepped
  obtain ⟨absent, stepped⟩ := stepped
  split at stepped
  · cases stepped
    exact inv.refused absent
  · next claims built =>
    split at stepped
    · next registry error answer =>
      have unchanged := CameraClaimRegistry.claim_rejected (congrArg Prod.snd answer)
      rw [answer] at unchanged
      cases stepped
      subst unchanged
      exact inv.refused absent
    · next registry generation answer =>
      have accepted := inv.accepted absent (cameraClaims_holder built) (congrArg Prod.snd answer)
      rw [answer] at accepted
      cases stepped
      exact accepted

theorem Inv.killedAt {pid : Nat} (inv : host.Inv) (known : (host.websockets position).startup.pid? = some pid)
    (startup : Startup) : ((host.killed (host.websockets position).holder pid).setWebsocket position
      { host.websockets position with startup := startup }).Inv := by
  have started : (host.websockets position).startup ≠ .unstarted := by
    intro unstarted
    rw [unstarted] at known
    cases known
  refine inv.killed.advance rfl rfl rfl (inv.present started) id ?_
  intro newest session live used
  exact absurd (inv.unused_of_killed newest known session live) used

theorem Inv.step (inv : host.Inv) (orderly : host.Orderly event) (stepped : host.step event = some next) :
    next.Inv := by
  cases event with
  | claimed position sessionName projectName cameras => exact inv.claimed stepped
  | openFailed position =>
    simp only [Host.step, Option.ite_none_right_eq_some, Option.some.injEq] at stepped
    obtain ⟨-, rfl⟩ := stepped
    exact inv.released orderly
  | startupBegun position =>
    simp only [Host.step, Option.ite_none_right_eq_some, Option.some.injEq] at stepped
    obtain ⟨claimed, rfl⟩ := stepped
    refine inv.advance rfl rfl rfl (by simp) (by simp [claimed]) ?_
    intro newest session live used
    exact ⟨by simp [Startup.pid?], by simp⟩
  | launched position => exact inv.launched orderly stepped
  | launchFailed position =>
    simp only [Host.step] at stepped
    split at stepped
    · next pid known =>
      cases stepped
      exact inv.killedAt (by rw [known]; rfl) _
    · cases stepped
  | spawned position =>
    simp only [Host.step] at stepped
    split at stepped
    · next pid known =>
      cases stepped
      refine inv.advance rfl rfl rfl (inv.present (by simp [known])) id ?_
      intro newest session live used
      have before := (inv.joined position newest session live used).1
      rw [known] at before
      exact ⟨before, fun _ => trivial⟩
    · cases stepped
  | spawnStopped position =>
    simp only [Host.step] at stepped
    split at stepped
    · next pid known =>
      cases stepped
      exact inv.killedAt (by rw [known]; rfl) _
    · cases stepped
  | attached position =>
    simp only [Host.step] at stepped
    split at stepped
    · next session connecting live =>
      cases stepped
      refine inv.advance rfl rfl rfl (inv.present (by simp [connecting])) id ?_
      intro newest other otherLive used
      obtain rfl : session = other := by
        rw [live] at otherLive
        exact Option.some.inj otherLive
      exact ⟨by simp [Startup.pid?], fun _ => trivial⟩
    · cases stepped
  | startupFailed position =>
    simp only [Host.step, Option.ite_none_right_eq_some, Option.some.injEq] at stepped
    obtain ⟨connecting, rfl⟩ := stepped
    refine inv.advance rfl rfl rfl (inv.present (by simp [connecting])) id ?_
    intro newest session live used
    have before := (inv.joined position newest session live used).2
    rw [connecting] at before
    exact ⟨by simp [Startup.pid?], before⟩
  | waitFailed position =>
    simp only [Host.step, Option.ite_none_right_eq_some, Option.some.injEq] at stepped
    obtain ⟨-, rfl⟩ := stepped
    exact inv.released orderly
  | ended position =>
    simp only [Host.step, Option.ite_none_right_eq_some] at stepped
    obtain ⟨running, stepped⟩ := stepped
    split at stepped
    · next alive =>
      cases stepped
      refine inv.advance rfl rfl rfl (by simp) (by simp [running]) ?_
      intro newest session live used
      exact ⟨(inv.joined position newest session live used).1, fun _ => settled_of_alive alive⟩
    · next dead =>
      cases stepped
      refine inv.released fun newest => ?_
      -- Only a startup that has not settled can leave a session of its own running, which `orderly` excludes.
      by_cases settled : (host.websockets position).startup.Settled
      · exact inv.unused_of_dead newest settled (by simpa using dead)
      · exact orderly settled newest
  | waiterReleased position =>
    simp only [Host.step, Option.ite_none_right_eq_some, Option.some.injEq] at stepped
    obtain ⟨⟨waiting, dead⟩, rfl⟩ := stepped
    refine inv.released ?_
    intro newest session live
    by_contra used
    have settled := (inv.joined position newest session live used).2 waiting
    exact used (inv.unused_of_dead newest settled dead session live)
  | sessionEnded holder =>
    simp only [Host.step, Option.some.injEq] at stepped
    subst stepped
    refine inv.fewer ?_
    intro other session live
    by_cases same : other = holder
    · subst same
      simp at live
    · rwa [Function.update_of_ne same] at live

theorem Inv.initial : Inv {} := by
  refine ⟨?_, ?_, ?_, ?_, ?_, ?_, ?_, ?_, ?_⟩
  · simp [CameraClaimRegistry.Agrees]
  · simp [Covered]
  all_goals simp [Newest]

/-- In every run, also one that is not orderly, the holders of a fingerprint agree. -/
theorem step_agrees (agrees : host.registry.Agrees) (stepped : host.step event = some next) :
    next.registry.Agrees := by
  cases event with
  | claimed position sessionName projectName cameras =>
    simp only [Host.step, Option.ite_none_right_eq_some] at stepped
    obtain ⟨-, stepped⟩ := stepped
    split at stepped
    · cases stepped
      exact agrees
    · next claims built =>
      have kept := CameraClaimRegistry.claim_agrees agrees (cameraClaims_holder built)
      split at stepped
      all_goals
        next answer =>
        rw [answer] at kept
        cases stepped
        exact kept
  | openFailed position | waitFailed position =>
    simp only [Host.step, Option.ite_none_right_eq_some, Option.some.injEq] at stepped
    obtain ⟨-, rfl⟩ := stepped
    exact CameraClaimRegistry.release_agrees agrees _
  | waiterReleased position =>
    simp only [Host.step, Option.ite_none_right_eq_some, Option.some.injEq] at stepped
    obtain ⟨-, rfl⟩ := stepped
    exact CameraClaimRegistry.release_agrees agrees _
  | ended position =>
    simp only [Host.step, Option.ite_none_right_eq_some] at stepped
    obtain ⟨-, stepped⟩ := stepped
    split at stepped
    · cases stepped
      exact agrees
    · cases stepped
      exact CameraClaimRegistry.release_agrees agrees _
  | startupBegun position | startupFailed position | launched position | sessionEnded holder =>
    simp only [Host.step] at stepped
    grind -linarith [setWebsocket_registry]
  | launchFailed position | spawned position | spawnStopped position | attached position =>
    simp only [Host.step] at stepped
    grind -linarith [setWebsocket_registry, Host.killed]

end Host

/-- In every run the holders of a fingerprint agree and a rejected claim changes no pin, and in an orderly one every
camera that a live session uses is pinned for its holder. -/
theorem pins_cover_sessions {history : List HostEvent} {host : Host} (run : apiProcess.reached history = some host) :
    (apiProcess.Throughout Host.Orderly history → host.Covered) ∧ host.registry.Agrees ∧
      ∀ claims error, (host.registry.claim claims).2 = .error error → (host.registry.claim claims).1 = host.registry := by
  refine ⟨fun orderly => ?_, ?_, fun claims error => CameraClaimRegistry.claim_rejected⟩
  · have inv := System.invariant (P := Host.Inv) Host.Inv.initial
      (fun before event next inv orderly stepped => inv.step orderly stepped) orderly run
    exact inv.covered
  · exact System.invariant_always (P := fun host => host.registry.Agrees) Host.Inv.initial.agrees
      (fun before event next agrees stepped => Host.step_agrees agrees stepped) run

def wristCamera : Camera := ⟨"wrist", some "usb-1", some 640, some 480, some 30⟩

/-- A session is started, joined by a second websocket, left by both and dies, and the second gives the pins up. -/
def joinedSession : List HostEvent :=
  [.waiterReleased 0, .waiterReleased 1, .sessionEnded "arm", .ended 1, .ended 0, .attached 1, .startupBegun 1,
    .claimed 1 "arm" "lab" [wristCamera], .spawned 0, .launched 0, .startupBegun 0,
    .claimed 0 "arm" "lab" [wristCamera]]

theorem joined_session_covered :
    ∃ host, apiProcess.reached joinedSession = some host ∧ host.Covered ∧ host.registry.Agrees := by
  have pins := @pins_cover_sessions joinedSession _ rfl
  exact ⟨_, rfl, pins.1 (by decide +kernel), pins.2.1⟩

/-- A second websocket of the same robot is refused as busy, and drops the pins of the running session. -/
theorem busy_startup_unpins :
    ¬ ∀ (history : List HostEvent) (host : Host), apiProcess.reached history = some host → host.Covered := by
  intro every
  have covered := every
    [.ended 1, .startupFailed 1, .startupBegun 1, .claimed 1 "arm" "lab" [wristCamera], .spawned 0, .launched 0,
      .startupBegun 0, .claimed 0 "arm" "lab" [wristCamera]] _ rfl "arm" ⟨0, ["usb-1"]⟩ rfl "usb-1" (by simp)
  exact absurd covered (by decide +kernel)

end PhysicalAiStudio.Runtime.Cameras
