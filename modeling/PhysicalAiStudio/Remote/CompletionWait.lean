import PhysicalAiStudio.Interaction.Dialogue
import PhysicalAiStudio.Numeric.Binary64
import PhysicalAiStudio.Strings.Text

/-! Waiting for a training job on a trainer service, and bringing its model home.

The backend follows the trainer's event stream and asks for the plain job state whenever the
stream breaks. The trainer, the network, the stop signals of the context and its progress
reports are the surroundings. What is only logged is left out, with the clock that only the
log lines read, save that a line may be impossible to render; so is the way the client decides
about proxies. A message that is no text counts as none. Times are in milliseconds.
-/

set_option autoImplicit false

namespace PhysicalAiStudio.Remote.Completion

open Strings Interaction Interaction.Dialogue

/-! ### Job states -/

/-- A JSON value that should be a number; a `bool` is an `int`. A text comes with what `int` makes of
it, and nothing at all counts as `other`. -/
inductive RawNumber where
  | int (value : Int)
  | float (value : ℚ)
  | infinite
  | nan
  | text (parsed : Option Int)
  | other
deriving DecidableEq

/-- `status` of a job state. Looking up a list or an object in a set raises. -/
inductive RawStatus where
  | text (value : Text)
  | scalar
  | container
deriving DecidableEq

/-- An `extra_info`: what `json.dumps` makes of it, its `val_event` as a text, and its numbers. -/
structure ExtraInfo where
  dumped : Option Text
  valEvent : Option Text
  globalStep : RawNumber
  maxSteps : RawNumber
  trainLossStep : RawNumber
  valBatch : RawNumber
  valLossStep : RawNumber
  valLoss : RawNumber
  valElapsed : RawNumber
deriving DecidableEq

inductive RawExtra where
  | dict (info : ExtraInfo)
  | other
deriving DecidableEq

structure JobState where
  status : RawStatus
  progress : RawNumber
  message : Option Text
  extraInfo : RawExtra
deriving DecidableEq

/-- What `json` makes of a text. -/
inductive Body where
  | malformed
  | notObject
  | object (state : JobState)
deriving DecidableEq

inductive HttpFault where
  | status (code : Nat)
  | transport
  | other
deriving DecidableEq

/-- An item of the reader's queue, or none in time. -/
inductive Item where
  | timeout
  | ended
  | error
  | event (payload : Text)
deriving DecidableEq

inductive Fault where
  | canceled (message : Text)
  | suspended
  | remote (message : Text)
  | http (fault : HttpFault)
  | value
  | overflow
  | type
  | archive
deriving DecidableEq

/-- The message of a report, which the trainer may have given. -/
inductive Message where
  | given (message : Option Text)
  | own (message : Text)
deriving DecidableEq

/-- What `context.progress` is told. -/
structure Report where
  progress : Int
  message : Message
  extraInfo : Option ExtraInfo
deriving DecidableEq

inductive Question where
  | shouldStop
  | shouldCancelJob
  | shouldSuspend
  | jobProgress
  | openStream
  | nextItem
  | getState
  | progress (report : Report)
  | cancel
  | download
  | deleteJob
  | sleep (time : Nat)
deriving DecidableEq

abbrev Answer : Question → Type
  | .shouldStop | .shouldCancelJob | .shouldSuspend => Bool
  | .jobProgress => Option Int
  | .openStream => Except HttpFault Unit
  | .nextItem => Item
  | .getState => Except HttpFault Body
  | .progress _ | .cancel | .deleteJob | .sleep _ => Unit
  | .download => Except Fault Unit

structure Backend where
  lastProgress : Int
deriving DecidableEq

structure Settings where
  maxBackoff : Nat
  loads : Text → Body

abbrev Run := Dialogue Backend Answer Fault

def snapshotUploadProgress : Int := 10
def trainingProgressEnd : Int := 95
def reconnectBackoff : Nat := 2000
def maxExtraInfoBytes : Nat := 16 * 1024

def unreachableMessage : Text := "Trainer unreachable; waiting to reconnect".toList
def restoredMessage : Text := "Trainer connection restored".toList
def downloadingMessage : Text := "Downloading trained model".toList
def downloadedMessage : Text := "Model downloaded".toList

/-! ### Progress -/

/-- `round` of a fraction that is not negative: to the nearest, and to the even one of two. -/
def roundHalfEven (numerator denominator : Nat) : Nat :=
  let whole := numerator / denominator
  let rest := numerator % denominator
  if 2 * rest < denominator then whole
  else if denominator < 2 * rest then whole + 1
  else if whole % 2 = 0 then whole
  else whole + 1

/-- `int` of a finite number. -/
def truncate (value : ℚ) : Int := if 0 ≤ value then ⌊value⌋ else ⌈value⌉

def coerceProgress : RawNumber → Except Fault Nat
  | .int value => .ok (max 0 (min 100 value)).toNat
  | .float value => .ok (max 0 (min 100 (truncate value))).toNat
  | .infinite => .error .overflow
  | .nan => .error .value
  | .text _ | .other => .ok 0

def toLocalProgress (remote : Nat) : Int :=
  min trainingProgressEnd (snapshotUploadProgress + roundHalfEven (remote * 85) 100)

/-- `_sanitize_extra_info`; what `json.dumps` writes has a byte for each character. -/
def sanitizeExtraInfo : RawExtra → Option ExtraInfo
  | .dict info => if info.dumped.any fun dumped => dumped.length ≤ maxExtraInfoBytes then some info else none
  | .other => none

/-! ### The progress log

A line is rendered for the log alone, so all that matters of it is whether that raises.
-/

def floatLimit : ℚ := 2 ^ 1024 - 2 ^ 970

def toFloat (value : ℚ) : Except Fault ℚ :=
  if floatLimit ≤ |value| then .error .overflow else .ok (Numeric.toBinary64 value)

/-- `int` of a field, or none where a renderer gives up: on `KeyError`, `TypeError` and `ValueError`. -/
def toInt : RawNumber → Except Fault (Option Int)
  | .int value => .ok (some value)
  | .float value => .ok (some (truncate value))
  | .infinite => .error .overflow
  | .text parsed => .ok parsed
  | .nan | .other => .ok none

def withInt (field : RawNumber) (render : Int → Except Fault Unit) : Except Fault Unit := do
  let found ← toInt field
  match found with
  | some value => render value
  | none => pure ()

/-- `float(loss) if isinstance(loss, int | float) else None`. -/
def lossValue : RawNumber → Except Fault Unit
  | .int value => do
      let _ ← toFloat value
      pure ()
  | _ => pure ()

/-- `format_training_progress`: the quotient overflows, or `round` is given an infinite percentage. -/
def formatTrainingProgress (globalStep maxSteps : Int) : Except Fault Unit := do
  let quotient ← toFloat (globalStep / max 1 maxSteps)
  let _ ← toFloat (quotient * 100)
  pure ()

def renderTrainingLog (info : ExtraInfo) : Except Fault Unit :=
  withInt info.globalStep fun globalStep => withInt info.maxSteps fun maxSteps => do
    lossValue info.trainLossStep
    formatTrainingProgress globalStep maxSteps

def renderValidationStart (info : ExtraInfo) : Except Fault Unit :=
  withInt info.globalStep fun _ => withInt info.maxSteps fun _ => pure ()

def renderValidationBatch (info : ExtraInfo) : Except Fault Unit :=
  withInt info.valBatch fun _ => lossValue info.valLossStep

def renderValidationEnd (info : ExtraInfo) : Except Fault Unit :=
  withInt info.globalStep fun _ => do
    lossValue info.valLoss
    lossValue info.valElapsed

def renderValidationLog (event : Text) (info : ExtraInfo) : Except Fault Unit :=
  if event = "start".toList then renderValidationStart info
  else if event = "batch".toList then renderValidationBatch info
  else if event = "end".toList then renderValidationEnd info
  else pure ()

def renderProgressLog (info : ExtraInfo) : Except Fault Unit :=
  match info.valEvent with
  | some event => renderValidationLog event info
  | none => renderTrainingLog info

/-! ### Applying a state -/

def report (progress : Int) (message : Message) (extraInfo : Option ExtraInfo) : Run Unit :=
  query (Question.progress ⟨progress, message, extraInfo⟩)

/-- The end of `_apply_state`: whether the status is terminal, and which. -/
def conclude (state : JobState) : Run Bool :=
  match state.status with
  | .container => raise .type
  | .scalar => pure false
  | .text status =>
    if status = "completed".toList then pure true
    else if status = "canceled".toList then raise (.canceled "Remote training canceled".toList)
    else if status = "failed".toList then
      raise (.remote ("Remote training failed: ".toList ++ state.message.getD "None".toList))
    else pure false

def applyState (state : JobState) : Run Bool := do
  let remote ← unwrap (coerceProgress state.progress)
  modify fun backend => { backend with lastProgress := max backend.lastProgress (toLocalProgress remote) }
  let backend ← view
  let extraInfo := sanitizeExtraInfo state.extraInfo
  report backend.lastProgress (.given state.message) extraInfo
  unwrap ((extraInfo.map renderProgressLog).getD (.ok ()))
  conclude state

def parseState (settings : Settings) (payload : Text) : Except Fault JobState :=
  if payload = [] then .error (.remote "Trainer event stream sent an empty state payload".toList)
  else
    match settings.loads payload with
    | .malformed => .error (.remote "Trainer event stream sent malformed JSON".toList)
    | .notObject => .error (.remote "Trainer returned a malformed job state".toList)
    | .object state => .ok state

/-! ### Stopping -/

def cancelAndRaise : Run Unit := do
  query Question.cancel
  raise (.canceled "Training canceled".toList)

def handleStopRequest : Run Unit := do
  let cancelJob : Bool ← query Question.shouldCancelJob
  if cancelJob then cancelAndRaise
  else do
    let suspend : Bool ← query Question.shouldSuspend
    if suspend then raise .suspended else cancelAndRaise

def checkStop : Run Unit := do
  let stop : Bool ← query Question.shouldStop
  if stop then handleStopRequest else pure ()

/-! ### The event stream -/

def streamRound (settings : Settings) (received : Bool) : Run (Bool ⊕ (Bool × Bool)) := do
  checkStop
  let item : Item ← query Question.nextItem
  match item with
  | .timeout => pure (.inl received)
  | .ended => pure (.inr (false, received))
  | .error => pure (.inr (false, received))
  | .event payload => do
      let state ← unwrap (parseState settings payload)
      let completed ← applyState state
      pure (if completed then .inr (true, true) else .inl true)

/-- `_consume_event_stream`: whether the job is completed, and whether an event came. -/
def consumeEventStream (settings : Settings) (rounds : Nat) : Run (Bool × Bool) := do
  let opened : Except HttpFault Unit ← query Question.openStream
  unwrap (opened.mapError Fault.http)
  loop (streamRound settings) rounds false

/-- `_poll_state`: whether the trainer is reachable, and whether the job is completed. -/
def pollState : Run (Bool × Bool) := do
  let answer : Except HttpFault Body ← query Question.getState
  match answer with
  | .error (.status code) =>
    -- A job that is gone ends the wait; any other status or outage is asked again.
    if code = 404 ∨ code = 410 then raise (.remote "Remote training job no longer exists".toList)
    else pure (false, false)
  | .error _ => pure (false, false)
  | .ok .malformed => raise .value
  | .ok .notObject => pure (true, false)
  | .ok (.object state) => do
      let completed ← applyState state
      pure (true, completed)

/-! ### The wait -/

structure Wait where
  backoff : Nat
  disconnected : Bool
deriving DecidableEq

/-- `except httpx.HTTPError` around the stream. -/
def followStream (settings : Settings) (rounds : Nat) : Run (Bool × Bool) := do
  let result ← (consumeEventStream settings rounds).caught
  match result with
  | .ok outcome => pure outcome
  | .error (.http _) => pure (false, false)
  | .error fault => raise fault

def reportIf (wanted : Bool) (progress : Int) (message : Text) : Run Unit :=
  if wanted then report progress (.own message) none else pure ()

/-- The end of a round: what is told about the connection, and the pause. -/
def pause (settings : Settings) (wait : Wait) (contact : Bool) : Run Wait := do
  let backend ← view
  if contact then do
    reportIf wait.disconnected backend.lastProgress restoredMessage
    query (Question.sleep reconnectBackoff)
    pure ⟨min (reconnectBackoff * 2) settings.maxBackoff, false⟩
  else do
    reportIf (!wait.disconnected) backend.lastProgress unreachableMessage
    query (Question.sleep wait.backoff)
    pure ⟨min (wait.backoff * 2) settings.maxBackoff, true⟩

def waitRound (settings : Settings) (rounds : Nat) (wait : Wait) : Run (Wait ⊕ Unit) := do
  let stream ← followStream settings rounds
  if stream.1 then pure (.inr ())
  else do
    checkStop
    let polled ← pollState
    if polled.2 then pure (.inr ())
    else do
      let next ← pause settings wait (stream.2 || polled.1)
      pure (.inl next)

def waitForCompletion (settings : Settings) (rounds : Nat) : Run Unit := do
  let jobProgress : Option Int ← query Question.jobProgress
  modify fun backend => { backend with lastProgress := max backend.lastProgress (jobProgress.getD backend.lastProgress) }
  loop (waitRound settings rounds) rounds ⟨reconnectBackoff, false⟩

/-! ### Bringing the model home -/

def ingestRound (settings : Settings) (rounds : Nat) : Run (Unit ⊕ Unit) := do
  let result : Except Fault Unit ← query Question.download
  match result with
  | .ok _ => pure (.inr ())
  | .error (.http .transport) => do
      query (Question.sleep reconnectBackoff)
      waitForCompletion settings rounds
      pure (.inl ())
  | .error fault => raise fault

def awaitAndIngest (settings : Settings) (rounds : Nat) : Run Unit := do
  waitForCompletion settings rounds
  report trainingProgressEnd (.own downloadingMessage) none
  loop (fun _ => ingestRound settings rounds) rounds ()
  query Question.deleteJob
  report 100 (.own downloadedMessage) none

end PhysicalAiStudio.Remote.Completion
