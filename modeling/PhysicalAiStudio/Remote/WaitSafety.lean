import PhysicalAiStudio.Interaction.Transcript
import PhysicalAiStudio.Remote.CompletionWait

/-! What waiting for a remote job reports, how it pauses, and how it ends.

An outage ends nothing: it is reported once and waited out. A download follows a completed
state, and the trainer's copy is deleted after the model is here. The replies are listed
newest first.
-/

set_option autoImplicit false

namespace PhysicalAiStudio.Remote.Completion

open Strings Interaction Interaction.Dialogue

abbrev Replies := List (Reply Answer)

/-! ### What the replies tell -/

def stateOf (settings : Settings) : Reply Answer → Option JobState
  | ⟨.nextItem, .event payload⟩ => (parseState settings payload).toOption
  | ⟨.getState, .ok (.object state)⟩ => some state
  | _ => none

def isContact : Reply Answer → Bool
  | ⟨.nextItem, .event _⟩ => true
  | ⟨.getState, .ok _⟩ => true
  | _ => false

def spoken (settings : Settings) : Reply Answer → Option Int
  | ⟨.jobProgress, progress⟩ => progress
  | reply => (stateOf settings reply).bind fun state => (coerceProgress state.progress).toOption.map toLocalProgress

def highest (settings : Settings) (start : Int) : Replies → Int
  | [] => start
  | reply :: earlier => max (highest settings start earlier) ((spoken settings reply).getD (highest settings start earlier))

theorem highest_le_cons (settings : Settings) (start : Int) (reply : Reply Answer) (earlier : Replies) :
    highest settings start earlier ≤ highest settings start (reply :: earlier) := le_max_left _ _

/-- Whether a wait begins with this question, or a pause ends with it. -/
def Question.isBreak : Question → Bool
  | .sleep _ => true
  | .jobProgress => true
  | _ => false

/-- Whether the trainer was reached since the last pause of the wait. -/
def contacted : Replies → Bool
  | [] => false
  | reply :: earlier => !reply.question.isBreak && (isContact reply || contacted earlier)

def outage : Replies → Bool
  | [] => false
  | ⟨.jobProgress, _⟩ :: _ => false
  | ⟨.progress report, _⟩ :: earlier =>
    if report.message = .own unreachableMessage then true
    else if report.message = .own restoredMessage then false
    else outage earlier
  | _ :: earlier => outage earlier

def nextBackoff (settings : Settings) : Replies → Nat
  | [] => reconnectBackoff
  | ⟨.jobProgress, _⟩ :: _ => reconnectBackoff
  | ⟨.sleep time, _⟩ :: _ => min (time * 2) settings.maxBackoff
  | _ :: earlier => nextBackoff settings earlier

def ready (settings : Settings) : Replies → Bool
  | [] => false
  | ⟨.download, _⟩ :: _ => false
  | reply :: earlier =>
    (stateOf settings reply).any (fun state => state.status = .text "completed".toList) || ready settings earlier

def downloadLost : Replies → Bool
  | ⟨.download, .error (.http .transport)⟩ :: _ => true
  | _ => false

def CancelAsked (earlier : Replies) : Prop :=
  (∃ before, earlier = (⟨.shouldCancelJob, true⟩ : Reply Answer) :: ⟨.shouldStop, true⟩ :: before) ∨
    ∃ before, earlier = (⟨.shouldSuspend, false⟩ : Reply Answer) :: ⟨.shouldCancelJob, false⟩ :: ⟨.shouldStop, true⟩ :: before

structure ReportRule (settings : Settings) (start : Int) (report : Report) (earlier : Replies) : Prop where
  /-- A report of the wait shows the highest progress so far. -/
  shows : report.message ≠ .own downloadingMessage → report.message ≠ .own downloadedMessage →
    report.progress = highest settings start earlier
  /-- An outage is reported once, where the trainer was not reached. -/
  begins : report.message = .own unreachableMessage → contacted earlier = false ∧ outage earlier = false
  /-- Its end is reported once, where the trainer was reached. -/
  ends : report.message = .own restoredMessage → contacted earlier = true ∧ outage earlier = true

structure PauseRule (settings : Settings) (time : Nat) (earlier : Replies) : Prop where
  /-- A pause is short after contact or a lost download, and else twice the one before it, up to the maximum. -/
  paces : time = if downloadLost earlier || contacted earlier then reconnectBackoff else nextBackoff settings earlier
  /-- In the wait, the last word on the connection is true when it pauses. -/
  honest : downloadLost earlier = false → outage earlier = !contacted earlier

def Rule (settings : Settings) (start : Int) (reply : Reply Answer) (earlier : Replies) : Prop :=
  match reply.question with
  | .progress report => ReportRule settings start report earlier
  | .sleep time => PauseRule settings time earlier
  | .download => ready settings earlier = true
  | .deleteJob => ∃ before, earlier = (⟨.download, .ok ()⟩ : Reply Answer) :: before
  | .cancel => CancelAsked earlier
  | _ => True

/-- Why it raises: never for want of contact. -/
def Cause (settings : Settings) (told : Replies) : Fault → Prop
  | .canceled _ =>
    (∃ reply ∈ told, ∃ state, stateOf settings reply = some state ∧ state.status = .text "canceled".toList) ∨
      ∃ before, told = (⟨.cancel, ()⟩ : Reply Answer) :: before
  | .suspended => (⟨.shouldSuspend, true⟩ : Reply Answer) ∈ told
  | .remote _ =>
    (∃ reply ∈ told, ∃ state, stateOf settings reply = some state ∧ state.status = .text "failed".toList) ∨
      (∃ payload message, (⟨.nextItem, .event payload⟩ : Reply Answer) ∈ told ∧
        parseState settings payload = .error (.remote message)) ∨
      ∃ code, (⟨.getState, .error (.status code)⟩ : Reply Answer) ∈ told ∧ (code = 404 ∨ code = 410)
  | .value =>
    (∃ reply ∈ told, ∃ state, stateOf settings reply = some state ∧ state.progress = .nan) ∨
      (⟨.getState, .ok .malformed⟩ : Reply Answer) ∈ told
  | .overflow =>
    (∃ reply ∈ told, ∃ state, stateOf settings reply = some state ∧ state.progress = .infinite) ∨
      ∃ reply ∈ told, ∃ state, stateOf settings reply = some state ∧
        ∃ info, sanitizeExtraInfo state.extraInfo = some info ∧ renderProgressLog info = .error .overflow
  | .type => ∃ reply ∈ told, ∃ state, stateOf settings reply = some state ∧ state.status = .container
  | .http _ | .archive => False

def Caused (settings : Settings) (fault : Fault) (told : Replies) : Prop :=
  Cause settings told fault ∨ ((⟨.download, .error fault⟩ : Reply Answer) ∈ told ∧ fault ≠ .http .transport)

/-! ### Between the questions -/

/-- The flags of a wait, as the replies tell them. -/
structure Flags where
  contacted : Bool
  outage : Bool
  backoff : Nat

structure At (settings : Settings) (start : Int) (flags : Flags) (backend : Backend) (told : Replies) : Prop where
  obeyed : Always (Rule settings start) told
  progress : backend.lastProgress = highest settings start told
  kept : ∀ reply ∈ told, reply.question ≠ .deleteJob
  contact : Completion.contacted told = flags.contacted
  outage : Completion.outage told = flags.outage
  backoff : nextBackoff settings told = flags.backoff
  waiting : downloadLost told = false

structure Fails (settings : Settings) (start : Int) (fault : Fault) (told : Replies) : Prop where
  obeyed : Always (Rule settings start) told
  kept : ∀ reply ∈ told, reply.question ≠ .deleteJob
  cause : Cause settings told fault

variable {settings : Settings} {start : Int} {flags : Flags} {backend : Backend} {told : Replies} {rounds : Nat}

def Question.plain : Question → Bool
  | .shouldStop | .shouldCancelJob | .shouldSuspend | .openStream | .nextItem | .getState => true
  | _ => false

theorem rule_plain {question : Question} (plain : question.plain = true) (answer : Answer question) (earlier : Replies) :
    Rule settings start ⟨question, answer⟩ earlier := by
  cases question <;> trivial

theorem not_delete {question : Question} (plain : question.plain = true) : question ≠ .deleteJob := by
  rintro rfl
  cases plain

theorem kept_cons {question : Question} (kept : ∀ reply ∈ told, reply.question ≠ .deleteJob)
    (other : question ≠ .deleteJob) (answer : Answer question) :
    ∀ reply ∈ (⟨question, answer⟩ : Reply Answer) :: told, reply.question ≠ .deleteJob := by
  intro reply member
  obtain rfl | member := List.mem_cons.mp member
  · exact other
  · exact kept reply member

theorem At.heard (here : At settings start flags backend told) {question : Question} (plain : question.plain = true)
    (answer : Answer question) (silent : spoken settings ⟨question, answer⟩ = none)
    (away : isContact ⟨question, answer⟩ = false) :
    At settings start flags backend (⟨question, answer⟩ :: told) where
  obeyed := ⟨rule_plain plain answer told, here.obeyed⟩
  progress := by rw [highest, silent, Option.getD_none, max_self]; exact here.progress
  kept := kept_cons here.kept (not_delete plain) answer
  contact := by
    rw [contacted, away, Bool.false_or, here.contact]
    cases question <;> first | rfl | cases plain
  outage := by
    rw [← here.outage]
    cases question <;> first | rfl | cases plain
  backoff := by
    rw [← here.backoff]
    cases question <;> first | rfl | cases plain
  waiting := by cases question <;> first | rfl | cases plain

structure Brought (settings : Settings) (start : Int) (flags : Flags) (state : JobState) (backend : Backend) (told : Replies) :
    Prop where
  obeyed : Always (Rule settings start) told
  progress : ∀ remote, coerceProgress state.progress = .ok remote →
    max backend.lastProgress (toLocalProgress remote) = highest settings start told
  kept : ∀ reply ∈ told, reply.question ≠ .deleteJob
  contact : Completion.contacted told = true
  outage : Completion.outage told = flags.outage
  backoff : nextBackoff settings told = flags.backoff
  waiting : downloadLost told = false
  state : ∃ reply earlier, told = reply :: earlier ∧ stateOf settings reply = some state

theorem At.brought (here : At settings start flags backend told) {question : Question} {answer : Answer question}
    {state : JobState} (brings : stateOf settings ⟨question, answer⟩ = some state) :
    Brought settings start flags state backend (⟨question, answer⟩ :: told) := by
  have speaks : spoken settings ⟨question, answer⟩ =
      (coerceProgress state.progress).toOption.map toLocalProgress := by
    have read : (stateOf settings ⟨question, answer⟩).bind
        (fun state => (coerceProgress state.progress).toOption.map toLocalProgress) =
        (coerceProgress state.progress).toOption.map toLocalProgress := by rw [brings]; rfl
    cases question <;> first | exact read | cases brings
  have plain : question.plain = true := by cases question <;> first | rfl | cases brings
  constructor
  · exact ⟨rule_plain plain answer told, here.obeyed⟩
  · intro remote coerced
    rw [highest, speaks, coerced, here.progress]
    rfl
  · exact kept_cons here.kept (not_delete plain) answer
  · have reached : isContact ⟨question, answer⟩ = true := by
      cases question with
      | nextItem => cases answer <;> first | rfl | cases brings
      | getState => cases answer <;> first | rfl | cases brings
      | _ => cases brings
    rw [contacted, reached]
    cases question <;> first | rfl | cases brings
  · rw [← here.outage]
    cases question <;> first | rfl | cases brings
  · rw [← here.backoff]
    cases question <;> first | rfl | cases brings
  · cases question <;> first | rfl | cases brings
  · exact ⟨_, told, rfl, brings⟩

theorem ready_of_completed {reply : Reply Answer} {state : JobState} (brings : stateOf settings reply = some state)
    (completed : state.status = .text "completed".toList) (earlier : Replies) :
    ready settings (reply :: earlier) = true := by
  have found : (stateOf settings reply).any (fun state => state.status = .text "completed".toList) = true := by
    rw [brings, Option.any_some, completed]
    rfl
  have read : ((stateOf settings reply).any (fun state => state.status = .text "completed".toList) ||
      ready settings earlier) = true := by rw [found]; rfl
  obtain ⟨question, answer⟩ := reply
  cases question <;> first | exact read | cases brings

theorem ready_report (report : Report) : ready settings (⟨.progress report, ()⟩ :: told) = ready settings told := rfl

theorem At.reported (here : At settings start flags backend told) {report : Report}
    (rule : ReportRule settings start report told) :
    At settings start
      { flags with outage :=
          if report.message = .own unreachableMessage then true
          else if report.message = .own restoredMessage then false else flags.outage }
      backend (⟨.progress report, ()⟩ :: told) where
  obeyed := ⟨rule, here.obeyed⟩
  progress := by
    have silent : spoken settings ⟨.progress report, ()⟩ = none := rfl
    rw [highest, silent, Option.getD_none, max_self]
    exact here.progress
  kept := by
    have other : Question.progress report ≠ .deleteJob := fun same => by cases same
    exact kept_cons here.kept other ()
  contact := here.contact
  outage := by rw [Completion.outage, here.outage]
  backoff := here.backoff
  waiting := rfl

/-! ### A round of the wait -/

theorem Fails.of_brought {state : JobState} {fault : Fault} (here : Brought settings start flags state backend told)
    (cause : Cause settings told fault) : Fails settings start fault told :=
  ⟨here.obeyed, here.kept, cause⟩

theorem Fails.of_at {fault : Fault} (here : At settings start flags backend told) (cause : Cause settings told fault) :
    Fails settings start fault told :=
  ⟨here.obeyed, here.kept, cause⟩

theorem coerceProgress_error {progress : RawNumber} {fault : Fault} (failed : coerceProgress progress = .error fault) :
    fault = .value ∧ progress = .nan ∨ fault = .overflow ∧ progress = .infinite := by
  cases progress with
  | nan =>
    cases failed
    exact .inl ⟨rfl, rfl⟩
  | infinite =>
    cases failed
    exact .inr ⟨rfl, rfl⟩
  | _ => cases failed

abbrev Flags.reached (flags : Flags) : Flags := { flags with contacted := true }

/-! ### Rendering the progress log -/

def OnlyOverflows {Value : Type} (result : Except Fault Value) : Prop :=
  ∀ fault, result = .error fault → fault = .overflow

section Rendering
variable {Value Next : Type}

theorem onlyOverflows_ok (value : Value) : OnlyOverflows (.ok value) := fun _ failed => by cases failed

theorem onlyOverflows_overflow : OnlyOverflows (.error .overflow : Except Fault Value) :=
  fun _ failed => by cases failed; rfl

theorem OnlyOverflows.bind {result : Except Fault Value} {next : Value → Except Fault Next}
    (first : OnlyOverflows result) (goes : ∀ value, OnlyOverflows (next value)) : OnlyOverflows (result >>= next) := by
  cases result with
  | ok value => exact goes value
  | error fault =>
    cases first fault rfl
    exact onlyOverflows_overflow

theorem onlyOverflows_toFloat (value : ℚ) : OnlyOverflows (toFloat value) := by
  unfold toFloat
  split
  · exact onlyOverflows_overflow
  · exact onlyOverflows_ok _

theorem onlyOverflows_toInt (number : RawNumber) : OnlyOverflows (toInt number) := by
  cases number with
  | infinite => exact onlyOverflows_overflow
  | _ => exact onlyOverflows_ok _

theorem onlyOverflows_lossValue (number : RawNumber) : OnlyOverflows (lossValue number) := by
  cases number with
  | int value => exact (onlyOverflows_toFloat value).bind fun _ => onlyOverflows_ok _
  | _ => exact onlyOverflows_ok _

theorem onlyOverflows_withInt {field : RawNumber} {render : Int → Except Fault Unit}
    (goes : ∀ value, OnlyOverflows (render value)) : OnlyOverflows (withInt field render) := by
  unfold withInt
  refine (onlyOverflows_toInt field).bind fun found => ?_
  cases found with
  | none => exact onlyOverflows_ok _
  | some value => exact goes value

theorem onlyOverflows_formatTrainingProgress (globalStep maxSteps : Int) :
    OnlyOverflows (formatTrainingProgress globalStep maxSteps) :=
  (onlyOverflows_toFloat _).bind fun _ => (onlyOverflows_toFloat _).bind fun _ => onlyOverflows_ok _

theorem onlyOverflows_renderTrainingLog (info : ExtraInfo) : OnlyOverflows (renderTrainingLog info) := by
  refine onlyOverflows_withInt fun globalStep => onlyOverflows_withInt fun maxSteps => ?_
  exact (onlyOverflows_lossValue _).bind fun _ => onlyOverflows_formatTrainingProgress globalStep maxSteps

theorem onlyOverflows_renderValidationEnd (info : ExtraInfo) : OnlyOverflows (renderValidationEnd info) := by
  refine onlyOverflows_withInt fun _ => ?_
  exact (onlyOverflows_lossValue _).bind fun _ => onlyOverflows_lossValue _

theorem onlyOverflows_renderValidationLog (event : Text) (info : ExtraInfo) :
    OnlyOverflows (renderValidationLog event info) := by
  unfold renderValidationLog
  split
  · exact onlyOverflows_withInt fun _ => onlyOverflows_withInt fun _ => onlyOverflows_ok _
  · split
    · exact onlyOverflows_withInt fun _ => onlyOverflows_lossValue _
    · split
      · exact onlyOverflows_renderValidationEnd info
      · exact onlyOverflows_ok _

theorem onlyOverflows_renderProgressLog (info : ExtraInfo) : OnlyOverflows (renderProgressLog info) := by
  unfold renderProgressLog
  cases info.valEvent with
  | some event => exact onlyOverflows_renderValidationLog event info
  | none => exact onlyOverflows_renderTrainingLog info

theorem rendered_error {extraInfo : Option ExtraInfo} {fault : Fault}
    (failed : (extraInfo.map renderProgressLog).getD (.ok ()) = .error fault) :
    fault = .overflow ∧ ∃ info, extraInfo = some info ∧ renderProgressLog info = .error .overflow := by
  cases extraInfo with
  | none => cases failed
  | some info =>
    have overflow : fault = .overflow := onlyOverflows_renderProgressLog info fault failed
    subst overflow
    exact ⟨rfl, info, rfl, failed⟩

end Rendering

theorem meets_conclude {state : JobState} (here : At settings start flags backend told)
    (brings : ∃ reply ∈ told, stateOf settings reply = some state)
    (completes : state.status = .text "completed".toList → ready settings told = true) :
    (conclude state).Meets
      (fun completed backend told => At settings start flags backend told ∧ (completed = true → ready settings told = true))
      (fun fault _ => Fails settings start fault) (fun _ => Always (Rule settings start)) backend told := by
  obtain ⟨reply, member, brings⟩ := brings
  unfold conclude
  split
  · next container => exact .of_at here ⟨reply, member, state, brings, container⟩
  · exact ⟨here, fun never => by cases never⟩
  · next status named =>
    rw [meets_ite, meets_ite, meets_ite]
    refine ⟨fun completed => ⟨here, fun _ => completes (by rw [named, completed])⟩, fun _ => ⟨fun canceled => ?_, fun _ => ?_⟩⟩
    · exact .of_at here (.inl ⟨reply, member, state, brings, by rw [named, canceled]⟩)
    · refine ⟨fun failed => ?_, fun _ => ⟨here, fun never => by cases never⟩⟩
      exact .of_at here (.inl ⟨reply, member, state, brings, by rw [named, failed]⟩)

theorem meets_applyState {state : JobState} (here : Brought settings start flags state backend told) :
    (applyState state).Meets
      (fun completed backend told =>
        At settings start flags.reached backend told ∧ (completed = true → ready settings told = true))
      (fun fault _ => Fails settings start fault) (fun _ => Always (Rule settings start)) backend told := by
  obtain ⟨reply, earlier, split, brings⟩ := here.state
  have member : reply ∈ told := by rw [split]; exact List.mem_cons_self
  unfold applyState
  rw [meets_bind, meets_unwrap]
  constructor
  · intro remote coerced
    rw [meets_bind, meets_modify, meets_bind, meets_view, meets_bind]
    have there : At settings start flags.reached { backend with lastProgress := max backend.lastProgress (toLocalProgress remote) }
        told := ⟨here.obeyed, here.progress remote coerced, here.kept, here.contact, here.outage, here.backoff, here.waiting⟩
    refine ⟨there.obeyed, fun _ => ?_⟩
    -- The reported progress is the largest so far, and its details are those of the answer.
    have rule : ReportRule settings start ⟨max backend.lastProgress (toLocalProgress remote), .given state.message,
        sanitizeExtraInfo state.extraInfo⟩ told :=
      ⟨fun _ _ => there.progress, fun own => (by cases own), fun own => (by cases own)⟩
    have told_it := there.reported rule
    have known (latest : Reply Answer) : reply ∈ latest :: told := List.mem_cons_of_mem latest member
    change Meets _ _ _ (unwrap _ >>= _) _ _
    rw [meets_bind, meets_unwrap]
    constructor
    · intro _ _
      refine meets_conclude told_it ⟨reply, known _, brings⟩ fun completed => ?_
      rw [ready_report, split]
      exact ready_of_completed brings completed earlier
    · intro fault failed
      obtain ⟨rfl, overflowed⟩ := rendered_error failed
      exact .of_at told_it (.inr ⟨reply, known _, state, brings, overflowed⟩)
  · intro fault failed
    rcases coerceProgress_error failed with ⟨rfl, nan⟩ | ⟨rfl, infinite⟩
    · exact .of_brought here (.inl ⟨reply, member, state, brings, nan⟩)
    · exact .of_brought here (.inl ⟨reply, member, state, brings, infinite⟩)

theorem meets_checkStop (here : At settings start flags backend told) :
    checkStop.Meets (fun _ => At settings start flags) (fun fault _ => Fails settings start fault)
      (fun _ => Always (Rule settings start)) backend told := by
  -- Both ways into the cancellation end in the request and the raise.
  have canceling : ∀ {told : Replies}, At settings start flags backend told → CancelAsked told →
      cancelAndRaise.Meets (fun _ => At settings start flags) (fun fault _ => Fails settings start fault)
        (fun _ => Always (Rule settings start)) backend told := by
    intro told here asked
    unfold cancelAndRaise
    refine meets_asked here.obeyed fun answer => ⟨⟨asked, here.obeyed⟩, ?_, .inr ⟨told, rfl⟩⟩
    have other : Question.cancel ≠ .deleteJob := by decide
    exact kept_cons here.kept other answer
  unfold checkStop
  refine meets_asked here.obeyed fun stop => ?_
  have here := here.heard rfl stop rfl rfl
  rw [meets_ite]
  refine ⟨fun stopped => ?_, fun _ => here⟩
  subst stopped
  unfold handleStopRequest
  refine meets_asked here.obeyed fun cancelJob => ?_
  have here := here.heard rfl cancelJob rfl rfl
  rw [meets_ite]
  refine ⟨fun wanted => ?_, fun unwanted => ?_⟩
  · subst wanted
    exact canceling here (.inl ⟨told, rfl⟩)
  · rw [Bool.not_eq_true] at unwanted
    subst unwanted
    refine meets_asked here.obeyed fun suspend => ?_
    have here := here.heard rfl suspend rfl rfl
    rw [meets_ite]
    refine ⟨fun suspended => ?_, fun lasting => ?_⟩
    · subst suspended
      exact .of_at here List.mem_cons_self
    · rw [Bool.not_eq_true] at lasting
      subst lasting
      exact canceling here (.inr ⟨told, rfl⟩)

variable {received disconnected : Bool} {backoff : Nat}

/-- What a part of a round ends with: whether the job is completed, and whether the trainer was reached. -/
def Followed (settings : Settings) (start : Int) (disconnected : Bool) (backoff : Nat) (outcome : Bool × Bool)
    (backend : Backend) (told : Replies) : Prop :=
  At settings start ⟨outcome.2, disconnected, backoff⟩ backend told ∧ (outcome.1 = true → ready settings told = true)

theorem parseState_error {payload : Text} {fault : Fault} (failed : parseState settings payload = .error fault) :
    ∃ message, fault = .remote message := by
  unfold parseState at failed
  split at failed
  · cases failed
    exact ⟨_, rfl⟩
  · split at failed
    · cases failed
      exact ⟨_, rfl⟩
    · cases failed
      exact ⟨_, rfl⟩
    · cases failed

theorem meets_streamRound (here : At settings start ⟨received, disconnected, backoff⟩ backend told) :
    (streamRound settings received).Meets
      (Sum.elim (fun received => At settings start ⟨received, disconnected, backoff⟩)
        (Followed settings start disconnected backoff))
      (fun fault _ => Fails settings start fault) (fun _ => Always (Rule settings start)) backend told := by
  unfold streamRound
  rw [meets_bind]
  refine (meets_checkStop here).mono (fun _ backend told here => ?_) (fun _ _ _ failed => failed)
  refine meets_asked here.obeyed fun item => ?_
  cases item with
  | timeout => exact here.heard rfl _ rfl rfl
  | ended => exact ⟨here.heard rfl _ rfl rfl, fun never => by cases never⟩
  | error => exact ⟨here.heard rfl _ rfl rfl, fun never => by cases never⟩
  | event payload =>
    dsimp only
    rw [meets_bind, meets_unwrap]
    constructor
    · intro state parsed
      have brings : stateOf settings ⟨.nextItem, .event payload⟩ = some state := by rw [stateOf, parsed]; rfl
      rw [meets_bind]
      refine (meets_applyState (here.brought brings)).mono (fun completed backend told applied => ?_)
        (fun _ _ _ failed => failed)
      cases completed with
      | true => exact applied
      | false => exact applied.1
    · intro fault failed
      obtain ⟨message, rfl⟩ := parseState_error failed
      exact ⟨⟨trivial, here.obeyed⟩, kept_cons here.kept (not_delete rfl) _,
        .inr (.inl ⟨payload, message, List.mem_cons_self, failed⟩)⟩

/-- How the stream fails: it was not opened, and nothing is lost, or for a cause. -/
def StreamFails (settings : Settings) (start : Int) (disconnected : Bool) (backoff : Nat) (fault : Fault)
    (backend : Backend) (told : Replies) : Prop :=
  ((∃ failure, fault = .http failure) ∧ At settings start ⟨false, disconnected, backoff⟩ backend told) ∨
    Fails settings start fault told

theorem meets_consumeEventStream (here : At settings start ⟨false, disconnected, backoff⟩ backend told) :
    (consumeEventStream settings rounds).Meets (Followed settings start disconnected backoff)
      (StreamFails settings start disconnected backoff) (fun _ => Always (Rule settings start)) backend told := by
  unfold consumeEventStream
  refine meets_asked here.obeyed fun opened => ?_
  have here := here.heard rfl opened rfl rfl
  rw [meets_bind, meets_unwrap]
  constructor
  · intro _ _
    refine (meets_loop (fun received => At settings start ⟨received, disconnected, backoff⟩)
      (fun _ _ _ kept => kept.obeyed) (fun _ _ _ kept => meets_streamRound kept) rounds here).mono
      (fun _ _ _ kept => kept) (fun _ _ _ failed => .inr failed)
  · intro fault failed
    cases opened with
    | ok => cases failed
    | error failure =>
      cases failed
      exact .inl ⟨⟨failure, rfl⟩, here⟩

theorem meets_followStream (here : At settings start ⟨false, disconnected, backoff⟩ backend told) :
    (followStream settings rounds).Meets (Followed settings start disconnected backoff)
      (fun fault _ => Fails settings start fault) (fun _ => Always (Rule settings start)) backend told := by
  unfold followStream
  rw [meets_bind, meets_caught]
  refine (meets_consumeEventStream here).mono (fun _ _ _ kept => kept) (fun fault backend told failed => ?_)
  obtain ⟨⟨failure, rfl⟩, here⟩ | failed := failed
  · exact ⟨here, fun never => by cases never⟩
  · cases fault with
    | http failure => exact failed.cause.elim
    | _ => exact failed

/-- After the plain state is asked for, the trainer was reached if it was before, or if it answered. -/
theorem meets_pollState (here : At settings start ⟨received, disconnected, backoff⟩ backend told) :
    pollState.Meets (fun polled => Followed settings start disconnected backoff (polled.2, received || polled.1))
      (fun fault _ => Fails settings start fault) (fun _ => Always (Rule settings start)) backend told := by
  unfold pollState
  refine meets_asked here.obeyed fun answer => ?_
  have away : At settings start ⟨received || false, disconnected, backoff⟩ backend told := by
    rw [Bool.or_false]
    exact here
  cases answer with
  | error failure =>
    cases failure with
    | status code =>
      dsimp only
      rw [meets_ite]
      constructor
      · intro gone
        exact .of_at (here.heard rfl _ rfl rfl) (.inr (.inr ⟨code, List.mem_cons_self, gone⟩))
      · intro _
        exact ⟨away.heard rfl _ rfl rfl, fun never => by cases never⟩
    | transport => exact ⟨away.heard rfl _ rfl rfl, fun never => by cases never⟩
    | other => exact ⟨away.heard rfl _ rfl rfl, fun never => by cases never⟩
  | ok body =>
    cases body with
    | malformed =>
      exact ⟨⟨trivial, here.obeyed⟩, kept_cons here.kept (not_delete rfl) _, .inr List.mem_cons_self⟩
    | notObject =>
      refine ⟨⟨⟨trivial, here.obeyed⟩, here.progress.trans (max_self _).symm, kept_cons here.kept (not_delete rfl) _, ?_,
        here.outage, here.backoff, rfl⟩, fun never => by cases never⟩
      rw [Bool.or_true]
      rfl
    | object state =>
      have brings : stateOf settings ⟨.getState, .ok (.object state)⟩ = some state := rfl
      dsimp only
      rw [meets_bind]
      refine (meets_applyState (here.brought brings)).mono (fun completed backend told applied => ?_)
        (fun _ _ _ failed => failed)
      refine ⟨?_, applied.2⟩
      rw [Bool.or_true]
      exact applied.1

theorem At.slept {contact : Bool} (here : At settings start ⟨contact, disconnected, backoff⟩ backend told)
    (honest : disconnected = !contact) {time : Nat} (paced : time = if contact then reconnectBackoff else backoff) :
    At settings start ⟨false, disconnected, min (time * 2) settings.maxBackoff⟩ backend (⟨.sleep time, ()⟩ :: told) where
  obeyed := by
    refine ⟨⟨?_, fun _ => ?_⟩, here.obeyed⟩
    · rw [here.waiting, Bool.false_or, here.contact, here.backoff]
      exact paced
    · rw [here.outage, here.contact]
      exact honest
  progress := here.progress.trans (max_self _).symm
  kept := by
    have other : Question.sleep time ≠ .deleteJob := fun same => by cases same
    exact kept_cons here.kept other ()
  contact := rfl
  outage := here.outage
  backoff := rfl
  waiting := rfl

theorem messages_apart : Message.own restoredMessage ≠ .own unreachableMessage := by decide

theorem own_apart : Message.own restoredMessage ≠ .own downloadingMessage ∧ Message.own unreachableMessage ≠ .own downloadingMessage ∧
    Message.own downloadingMessage ≠ .own unreachableMessage ∧ Message.own downloadingMessage ≠ .own restoredMessage := by decide

theorem meets_reportIf {contact : Bool} (here : At settings start ⟨contact, disconnected, backoff⟩ backend told) :
    (reportIf (disconnected == contact) backend.lastProgress (if contact then restoredMessage else unreachableMessage)).Meets
      (fun _ => At settings start ⟨contact, !contact, backoff⟩) (fun fault _ => Fails settings start fault)
      (fun _ => Always (Rule settings start)) backend told := by
  unfold reportIf
  rw [meets_ite]
  constructor
  · intro changed
    rw [beq_iff_eq] at changed
    subst changed
    have rule : ReportRule settings start
        ⟨backend.lastProgress, .own (if disconnected then restoredMessage else unreachableMessage), none⟩ told := by
      cases disconnected with
      | true => exact ⟨fun _ _ => here.progress, fun own => absurd own messages_apart, fun _ => ⟨here.contact, here.outage⟩⟩
      | false => exact ⟨fun _ _ => here.progress, fun _ => ⟨here.contact, here.outage⟩, fun own => absurd own.symm messages_apart⟩
    refine ⟨here.obeyed, fun _ => ?_⟩
    have told_it := here.reported rule
    cases disconnected with
    | true => exact told_it
    | false => exact told_it
  · intro same
    have apart : disconnected = !contact := by
      cases disconnected <;> cases contact <;> first | rfl | exact absurd rfl same
    rw [← apart]
    exact here

theorem meets_pause {contact : Bool} (here : At settings start ⟨contact, disconnected, backoff⟩ backend told) :
    (pause settings ⟨backoff, disconnected⟩ contact).Meets
      (fun next => At settings start ⟨false, next.disconnected, next.backoff⟩) (fun fault _ => Fails settings start fault)
      (fun _ => Always (Rule settings start)) backend told := by
  have reported := meets_reportIf here
  unfold pause
  rw [meets_bind, meets_view, meets_ite, meets_bind, meets_bind]
  constructor
  · intro reached
    subst reached
    rw [beq_true] at reported
    refine reported.mono (fun _ backend told here => ?_) (fun _ _ _ failed => failed)
    exact meets_asked here.obeyed fun _ => here.slept rfl rfl
  · intro away
    rw [Bool.not_eq_true] at away
    subst away
    rw [beq_false] at reported
    refine reported.mono (fun _ backend told here => ?_) (fun _ _ _ failed => failed)
    exact meets_asked here.obeyed fun _ => here.slept rfl rfl

abbrev Between (settings : Settings) (start : Int) (wait : Wait) : Backend → Replies → Prop :=
  At settings start ⟨false, wait.disconnected, wait.backoff⟩

/-- A wait returns for a completed state only. -/
def Done (settings : Settings) (start : Int) (backend : Backend) (told : Replies) : Prop :=
  ready settings told = true ∧ ∃ flags, At settings start flags backend told

theorem meets_waitRound {wait : Wait} (here : Between settings start wait backend told) :
    (waitRound settings rounds wait).Meets (Sum.elim (Between settings start) fun _ => Done settings start)
      (fun fault _ => Fails settings start fault) (fun _ => Always (Rule settings start)) backend told := by
  unfold waitRound
  rw [meets_bind]
  refine (meets_followStream here).mono (fun stream backend told followed => ?_) (fun _ _ _ failed => failed)
  rw [meets_ite]
  refine ⟨fun completed => ⟨followed.2 completed, _, followed.1⟩, fun _ => ?_⟩
  rw [meets_bind]
  refine (meets_checkStop followed.1).mono (fun _ backend told here => ?_) (fun _ _ _ failed => failed)
  rw [meets_bind]
  refine (meets_pollState here).mono (fun polled backend told followed => ?_) (fun _ _ _ failed => failed)
  rw [meets_ite]
  refine ⟨fun completed => ⟨followed.2 completed, _, followed.1⟩, fun _ => ?_⟩
  rw [meets_bind]
  exact (meets_pause followed.1).mono (fun _ _ _ kept => kept) (fun _ _ _ failed => failed)

structure Begins (settings : Settings) (start : Int) (backend : Backend) (told : Replies) : Prop where
  obeyed : Always (Rule settings start) told
  progress : backend.lastProgress = highest settings start told
  kept : ∀ reply ∈ told, reply.question ≠ .deleteJob

theorem meets_waitForCompletion (here : Begins settings start backend told) :
    (waitForCompletion settings rounds).Meets (fun _ => Done settings start) (fun fault _ => Fails settings start fault)
      (fun _ => Always (Rule settings start)) backend told := by
  unfold waitForCompletion
  refine meets_asked here.obeyed fun jobProgress => ?_
  rw [meets_bind, meets_modify]
  refine meets_loop (Between settings start) (fun _ _ _ kept => kept.obeyed) (fun _ _ _ kept => meets_waitRound kept) rounds ?_
  have other : Question.jobProgress ≠ .deleteJob := by decide
  refine ⟨⟨trivial, here.obeyed⟩, ?_, kept_cons here.kept other _, rfl, rfl, rfl, rfl⟩
  rw [here.progress]
  rfl

/-! ### Bringing the model home -/

structure RunFails (settings : Settings) (start : Int) (fault : Fault) (told : Replies) : Prop where
  obeyed : Always (Rule settings start) told
  kept : ∀ reply ∈ told, reply.question ≠ .deleteJob
  caused : Caused settings fault told

theorem Fails.run {fault : Fault} (failed : Fails settings start fault told) : RunFails settings start fault told :=
  ⟨failed.obeyed, failed.kept, .inl failed.cause⟩

structure Downloads (settings : Settings) (start : Int) (backend : Backend) (told : Replies) : Prop
    extends Begins settings start backend told where
  ready : ready settings told = true

theorem Done.downloads (done : Done settings start backend told) : Downloads settings start backend told := by
  obtain ⟨ready, flags, here⟩ := done
  exact ⟨⟨here.obeyed, here.progress, here.kept⟩, ready⟩

def Home (settings : Settings) (start : Int) (backend : Backend) (told : Replies) : Prop :=
  Begins settings start backend told ∧ ∃ before, told = (⟨.download, .ok ()⟩ : Reply Answer) :: before

theorem meets_ingestRound (here : Downloads settings start backend told) :
    (ingestRound settings rounds).Meets (Sum.elim (fun _ => Downloads settings start) fun _ => Home settings start)
      (fun fault _ => RunFails settings start fault) (fun _ => Always (Rule settings start)) backend told := by
  have other : Question.download ≠ .deleteJob := by decide
  have tried : ∀ answer, Begins settings start backend (⟨.download, answer⟩ :: told) := fun answer =>
    ⟨⟨here.ready, here.obeyed⟩, here.progress.trans (max_self _).symm, kept_cons here.kept other answer⟩
  have raising : ∀ fault, fault ≠ .http .transport →
      RunFails settings start fault (⟨.download, .error fault⟩ :: told) := fun fault known =>
    ⟨(tried _).obeyed, (tried _).kept, .inr ⟨List.mem_cons_self, known⟩⟩
  unfold ingestRound
  refine meets_asked here.obeyed fun result => ?_
  cases result with
  | ok => exact ⟨tried _, told, rfl⟩
  | error fault =>
    by_cases lost : fault = .http .transport
    · subst lost
      have begins := tried (.error (.http .transport))
      refine meets_asked begins.obeyed fun _ => ?_
      have pausing : Question.sleep reconnectBackoff ≠ .deleteJob := by decide
      have slept : Begins settings start backend (⟨.sleep reconnectBackoff, ()⟩ :: ⟨.download, .error (.http .transport)⟩ :: told) :=
        ⟨⟨⟨rfl, fun waiting => by cases waiting⟩, begins.obeyed⟩, begins.progress.trans (max_self _).symm,
          kept_cons begins.kept pausing ()⟩
      rw [meets_bind]
      exact (meets_waitForCompletion slept).mono (fun _ _ _ done => done.downloads) (fun _ _ _ failed => failed.run)
    · have raised := raising fault lost
      cases fault with
      | http failure => cases failure <;> first | exact raised | exact absurd rfl lost
      | _ => exact raised

structure Returned (settings : Settings) (start : Int) (told : Replies) : Prop where
  obeyed : Always (Rule settings start) told
  ends : ∃ before, told = (⟨.progress ⟨100, .own downloadedMessage, none⟩, ()⟩ : Reply Answer) :: ⟨.deleteJob, ()⟩ ::
    ⟨.download, .ok ()⟩ :: before

theorem meets_awaitAndIngest (settings : Settings) (rounds : Nat) (start : Int) :
    (awaitAndIngest settings rounds).Meets (fun _ _ => Returned settings start) (fun fault _ => RunFails settings start fault)
      (fun _ => Always (Rule settings start)) ⟨start⟩ [] := by
  have begins : Begins settings start ⟨start⟩ [] := ⟨trivial, rfl, fun _ none => by cases none⟩
  unfold awaitAndIngest
  rw [meets_bind]
  refine (meets_waitForCompletion begins).mono (fun _ backend told done => ?_) (fun _ _ _ failed => failed.run)
  have downloads := done.downloads
  refine meets_asked downloads.obeyed fun _ => ?_
  have announcing : Question.progress ⟨trainingProgressEnd, .own downloadingMessage, none⟩ ≠ .deleteJob := by decide
  have rule : ReportRule settings start ⟨trainingProgressEnd, .own downloadingMessage, none⟩ told :=
    ⟨fun other => absurd rfl other, fun own => absurd own own_apart.2.2.1, fun own => absurd own own_apart.2.2.2⟩
  have announced : Downloads settings start backend
      (⟨.progress ⟨trainingProgressEnd, .own downloadingMessage, none⟩, ()⟩ :: told) :=
    ⟨⟨⟨rule, downloads.obeyed⟩, downloads.progress.trans (max_self _).symm, kept_cons downloads.kept announcing ()⟩,
      downloads.ready⟩
  rw [meets_bind]
  refine (meets_loop (fun _ => Downloads settings start) (fun _ _ _ kept => kept.obeyed)
    (fun _ _ _ kept => meets_ingestRound kept) rounds announced).mono (fun _ backend told home => ?_)
    (fun _ _ _ failed => failed)
  obtain ⟨begins, before, rfl⟩ := home
  refine meets_asked begins.obeyed fun _ => ?_
  have deleted : Always (Rule settings start) (⟨.deleteJob, ()⟩ :: ⟨.download, .ok ()⟩ :: before) :=
    ⟨⟨before, rfl⟩, begins.obeyed⟩
  refine ⟨deleted, fun _ => ⟨⟨?_, deleted⟩, before, rfl⟩⟩
  have other : Message.own downloadedMessage ≠ .own unreachableMessage ∧ Message.own downloadedMessage ≠ .own restoredMessage := by
    decide
  exact ⟨fun _ own => absurd rfl own, fun own => absurd own other.1, fun own => absurd own other.2⟩

/-- The progress that is reported never goes back while the job is waited for. -/
theorem Rule.monotone {later earlier : Replies} {report : Report}
    (obeyed : Always (Rule settings start) (later ++ (⟨.progress report, ()⟩ : Reply Answer) :: earlier))
    (mirrored : report.message ≠ .own downloadingMessage ∧ report.message ≠ .own downloadedMessage) :
    report.progress ≤ highest settings start (later ++ (⟨.progress report, ()⟩ : Reply Answer) :: earlier) := by
  induction later with
  | nil =>
    have rule : ReportRule settings start report earlier := obeyed.1
    rw [rule.shows mirrored.1 mirrored.2]
    exact highest_le_cons settings start _ earlier
  | cons reply later ih =>
    exact (ih obeyed.2).trans (highest_le_cons settings start reply _)

/-- At the end, whatever the surroundings answered. -/
theorem ingest_outcome (settings : Settings) (rounds : Nat) (start : Int) (script : Replies) {exit : Exit Fault Unit}
    {final : Backend} (ran : (awaitAndIngest settings rounds).play ⟨start⟩ script = some (exit, final)) :
    match exit with
    | .returned _ => ∃ before, script = before ++
        [(⟨.download, .ok ()⟩ : Reply Answer), ⟨.deleteJob, ()⟩, ⟨.progress ⟨100, .own downloadedMessage, none⟩, ()⟩]
    | .raised fault => (∀ reply ∈ script, reply.question ≠ .deleteJob) ∧ Caused settings fault script.reverse
    | .waiting => True := by
  have achieved := (meets_awaitAndIngest settings rounds start).achieved ran
  rw [List.append_nil] at achieved
  cases exit with
  | returned value =>
    obtain ⟨before, split⟩ := achieved.ends
    refine ⟨before.reverse, ?_⟩
    rw [← List.reverse_reverse script, split]
    simp
  | raised fault => exact ⟨fun reply member => achieved.kept reply (List.mem_reverse.mpr member), achieved.caused⟩
  | waiting => trivial

/-! ### An outage that is waited out -/

def runningState : JobState := ⟨.text "running".toList, .int 50, none, .other⟩

def completedState : JobState := ⟨.text "completed".toList, .int 100, none, .other⟩

def outageSettings : Settings where
  maxBackoff := 30000
  loads := fun payload => .object (if payload = ['r'] then runningState else completedState)

def outageScript : Replies :=
  [⟨.jobProgress, none⟩, ⟨.openStream, .error .transport⟩, ⟨.shouldStop, false⟩, ⟨.getState, .error .transport⟩,
    ⟨.progress ⟨10, .own unreachableMessage, none⟩, ()⟩, ⟨.sleep 2000, ()⟩,
    ⟨.openStream, .ok ()⟩, ⟨.shouldStop, false⟩, ⟨.nextItem, .event ['r']⟩, ⟨.progress ⟨52, .given none, none⟩, ()⟩,
    ⟨.shouldStop, false⟩, ⟨.nextItem, .ended⟩, ⟨.shouldStop, false⟩, ⟨.getState, .error .transport⟩,
    ⟨.progress ⟨52, .own restoredMessage, none⟩, ()⟩, ⟨.sleep 2000, ()⟩,
    ⟨.openStream, .ok ()⟩, ⟨.shouldStop, false⟩, ⟨.nextItem, .event ['c']⟩, ⟨.progress ⟨95, .given none, none⟩, ()⟩,
    ⟨.progress ⟨95, .own downloadingMessage, none⟩, ()⟩, ⟨.download, .ok ()⟩, ⟨.deleteJob, ()⟩,
    ⟨.progress ⟨100, .own downloadedMessage, none⟩, ()⟩]

theorem outage_ran : (awaitAndIngest outageSettings 5).play ⟨10⟩ outageScript = some (.returned (), ⟨95⟩) := by
  rfl

theorem ingest_outcome_outage : ∃ before, outageScript = before ++
    [(⟨.download, .ok ()⟩ : Reply Answer), ⟨.deleteJob, ()⟩, ⟨.progress ⟨100, .own downloadedMessage, none⟩, ()⟩] :=
  ingest_outcome outageSettings 5 10 outageScript outage_ran

end PhysicalAiStudio.Remote.Completion
