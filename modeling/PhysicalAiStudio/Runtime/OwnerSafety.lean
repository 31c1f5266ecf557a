import PhysicalAiStudio.Interaction.Transcript
import PhysicalAiStudio.Runtime.SessionOwner

/-! What an owner of a runtime session does to its surroundings, whatever they answer.

It adopts the session of its own rig only, it never has two children, it leaves none behind
where it fails, and it stops the session of another client for one reason only. The replies
of a run so far are listed newest first.
-/

set_option autoImplicit false

namespace PhysicalAiStudio.Runtime.SessionOwner

open Strings Strings.Json Interaction Interaction.Dialogue

abbrev Replies := List (Reply Answer)

/-! ### What the replies tell -/

/-- The children that run, as far as the owner has seen or done. -/
def unstopped : Replies → List Child
  | [] => []
  | ⟨.popen, .ok child⟩ :: earlier => child :: unstopped earlier
  | ⟨.terminate child, _⟩ :: earlier => (unstopped earlier).filter (· ≠ child)
  | ⟨.poll child, some _⟩ :: earlier => (unstopped earlier).filter (· ≠ child)
  | _ :: earlier => unstopped earlier

/-- A session was seen that is of the owner's rig and lacks a camera it needs. -/
def Displaced (config : Config) (told : Replies) : Prop :=
  ∃ timeout metadata, (⟨.probe timeout, .ok (some metadata)⟩ : Reply Answer) ∈ told ∧
    metadata.identityDigest = some (expectedDigest config) ∧ needsMoreCameras config metadata = true

def Named (pid : Int) (told : Replies) : Prop :=
  (⟨.liveSessionPid, .ok (some pid)⟩ : Reply Answer) ∈ told ∨
    ∃ timeout metadata, (⟨.probeSession timeout, .ok (some metadata)⟩ : Reply Answer) ∈ told ∧ metadata.pid = some pid

/-- A signal has a reason: it goes to a named process, because the owner replaces whatever is there
or because it displaces that session; and a kill comes after a request to terminate. -/
structure Reason (config : Config) (replace : Bool) (pid : Int) (signal : Signal) (earlier : Replies) : Prop where
  named : Named pid earlier
  displaced : replace = true ∨ Displaced config earlier
  escalates : signal = .kill → (⟨.signal pid .term, .ok ()⟩ : Reply Answer) ∈ earlier

def Reasoned (config : Config) (replace : Bool) : Replies → Prop :=
  Always fun reply earlier => ∀ pid signal, reply.question = .signal pid signal → Reason config replace pid signal earlier

def Garbled (config : Config) (told : Replies) : Prop :=
  ∃ child, (⟨.readLine child, .error ()⟩ : Reply Answer) ∈ told ∨
    ∃ line, (⟨.readLine child, .ok (some line)⟩ : Reply Answer) ∈ told ∧ "ERROR:".toList.isPrefixOf line = true ∧
      config.parseError (line.drop 6) = none

structure Adopted (config : Config) (metadata : Metadata) (told : Replies) : Prop where
  told_it : ∃ timeout, (⟨.probe timeout, .ok (some metadata)⟩ : Reply Answer) ∈ told
  own_rig : metadata.identityDigest = some (expectedDigest config)
  instance_named : metadata.instanceId ≠ .other ∧ metadata.instanceId ≠ .text []

/-- A connected owner: a session that it found serves its cameras and is no child of its own. -/
structure Connected (config : Config) (owner : Owner) (told : Replies) : Prop where
  adopted : ∃ metadata, owner.metadata = some metadata ∧ Adopted config metadata told ∧
    (owner.spawned = false → owner.host = none ∧ needsMoreCameras config metadata = false)
  running : unstopped told ⊆ (owner.host.bind Host.proc).toList
  spawned : owner.spawned = true → ∃ host child, owner.host = some host ∧ host.proc = some child

structure Failed (config : Config) (owner : Owner) (told : Replies) : Prop where
  metadata : owner.metadata = none
  spawned : owner.spawned = false
  running : unstopped told = [] ∨ Garbled config told

structure Paused (config : Config) (replace : Bool) (told : Replies) : Prop where
  single : (unstopped told).length ≤ 1
  reasoned : Reasoned config replace told

/-! ### Between the questions -/

structure Standing (config : Config) (replace : Bool) (owner : Owner) (allowed : Option Child) (state : Owner)
    (told : Replies) : Prop extends Paused config replace told where
  owner_eq : state = owner
  running : unstopped told ⊆ allowed.toList

/-- A question whose answers neither start nor end a child, and that signals nothing. -/
def Question.quiet : Question → Bool
  | .popen | .terminate _ | .poll _ | .signal _ _ => false
  | _ => true

variable {config : Config} {replace : Bool} {owner state : Owner} {allowed : Option Child} {told : Replies}
  {rounds : Nat}

theorem unstopped_quiet {question : Question} (quiet : question.quiet = true) (answer : Answer question) :
    unstopped (⟨question, answer⟩ :: told) = unstopped told := by
  cases question <;> first | rfl | cases quiet

theorem Reasoned.cons {reply : Reply Answer} (reasoned : Reasoned config replace told)
    (silent : ∀ pid signal, reply.question ≠ .signal pid signal) : Reasoned config replace (reply :: told) :=
  ⟨fun pid signal same => absurd same (silent pid signal), reasoned⟩

theorem Standing.quiet (standing : Standing config replace owner allowed state told) {question : Question}
    (quiet : question.quiet = true) (answer : Answer question) :
    Standing config replace owner allowed state (⟨question, answer⟩ :: told) where
  owner_eq := standing.owner_eq
  single := by rw [unstopped_quiet quiet]; exact standing.single
  running := by rw [unstopped_quiet quiet]; exact standing.running
  reasoned := standing.reasoned.cons fun pid signal same => by
    rw [show question = .signal pid signal from same] at quiet
    cases quiet

theorem Standing.polled (standing : Standing config replace owner allowed state told) (child : Child)
    (answer : Option Int) : Standing config replace owner allowed state (⟨.poll child, answer⟩ :: told) where
  owner_eq := standing.owner_eq
  reasoned := standing.reasoned.cons fun _ _ same => by cases same
  single := by
    cases answer with
    | none => exact standing.single
    | some code => exact (List.length_filter_le _ _).trans standing.single
  running := by
    cases answer with
    | none => exact standing.running
    | some code => exact fun other member => standing.running (List.mem_filter.mp member).1

variable {child : Child}

/-- A child that was asked to terminate, or that was seen to have ended, runs no longer. -/
theorem Standing.stopped (standing : Standing config replace owner (some child) state told) {reply : Reply Answer}
    (silent : ∀ pid signal, reply.question ≠ .signal pid signal)
    (ends : unstopped (reply :: told) = (unstopped told).filter (· ≠ child)) :
    Standing config replace owner none state (reply :: told) where
  owner_eq := standing.owner_eq
  reasoned := standing.reasoned.cons silent
  single := by rw [ends]; exact (List.length_filter_le _ _).trans standing.single
  running := by
    rw [ends]
    intro other member
    obtain ⟨known, apart⟩ := List.mem_filter.mp member
    have same : other = child := List.mem_singleton.mp (standing.running known)
    exact absurd same (of_decide_eq_true apart)

theorem Standing.none_running (standing : Standing config replace owner none state told) : unstopped told = [] :=
  List.subset_nil.mp standing.running

/-- A question that leaves the children alone, and what comes after it. -/
theorem Standing.ask {Value : Type} {question : Question} {next : Answer question → Run Value}
    {returns : Value → Owner → Replies → Prop} {raises : Fault → Owner → Replies → Prop}
    (standing : Standing config replace owner allowed state told) (quiet : question.quiet = true)
    (goes : ∀ answer, Standing config replace owner allowed state (⟨question, answer⟩ :: told) →
      (next answer).Meets returns raises (fun _ => Paused config replace) state (⟨question, answer⟩ :: told)) :
    (inquire question >>= next).Meets returns raises (fun _ => Paused config replace) state told :=
  meets_asked standing.toPaused fun answer => goes answer (standing.quiet quiet answer)

/-! ### Stopping the live session -/

theorem Standing.signalled (standing : Standing config replace owner allowed state told) {pid : Int} {signal : Signal}
    (reason : Reason config replace pid signal told) (answer : Except Fault Unit) :
    Standing config replace owner allowed state (⟨.signal pid signal, answer⟩ :: told) where
  owner_eq := standing.owner_eq
  single := standing.single
  running := standing.running
  reasoned := ⟨fun other kind same => by cases same; exact reason, standing.reasoned⟩

abbrev Owner.withHost (owner : Owner) (host : Option Host) : Owner := { owner with host }

/-- How a start fails: with the child stopped, or with a handshake that nothing came of. -/
structure StartFailed (config : Config) (replace : Bool) (owner : Owner) (fault : Fault) (state : Owner) (told : Replies) :
    Prop extends Paused config replace told where
  rest : state = { owner with host := state.host }
  running : unstopped told = [] ∨ (Garbled config told ∧ ∀ error, fault = .app error → error.phase = none)

theorem Standing.startFailed {host : Option Host} {fault : Fault}
    (standing : Standing config replace (owner.withHost host) none state told) :
    StartFailed config replace owner fault state told where
  toPaused := standing.toPaused
  rest := by rw [standing.owner_eq]
  running := .inl standing.none_running

def Seen (metadata : Metadata) (told : Replies) : Prop :=
  ∃ timeout, (⟨.probe timeout, .ok (some metadata)⟩ : Reply Answer) ∈ told

abbrev Owner.withMetadata (owner : Owner) (metadata : Metadata) : Owner := { owner with metadata := some metadata }

def Attached (config : Config) (replace : Bool) (owner : Owner) (state : Owner) (told : Replies) : Prop :=
  ∃ metadata, Standing config replace (owner.withMetadata metadata) none state told ∧ Adopted config metadata told ∧
    needsMoreCameras config metadata = false

def RoundFails (config : Config) (replace : Bool) (_ : Fault) (state : Owner) (told : Replies) : Prop :=
  Failed config state told ∧ Paused config replace told

theorem Attached.connected (attached : Attached config replace {} state told) :
    Connected config state told ∧ Paused config replace told := by
  obtain ⟨metadata, standing, adopted, enough⟩ := attached
  refine ⟨⟨⟨metadata, ?_, adopted, fun _ => ⟨?_, enough⟩⟩, ?_, fun spawned => ?_⟩, standing.toPaused⟩
  · rw [standing.owner_eq]
  · rw [standing.owner_eq]
  · rw [standing.none_running]
    exact List.nil_subset _
  · rw [standing.owner_eq] at spawned
    cases spawned

theorem Standing.failed {fault : Fault} (standing : Standing config replace {} none state told) :
    RoundFails config replace fault state told :=
  ⟨⟨by rw [standing.owner_eq], by rw [standing.owner_eq], .inl standing.none_running⟩, standing.toPaused⟩

end PhysicalAiStudio.Runtime.SessionOwner
