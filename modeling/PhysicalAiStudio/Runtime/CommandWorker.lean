import Mathlib.Data.List.Nodup
import Mathlib.Logic.Function.Basic
import PhysicalAiStudio.Concurrency.Transition
import PhysicalAiStudio.Runtime.Contract

/-! The command worker: jobs run one at a time, with acks that callers wait for.

The steps are the lock sections of `submit`, `wait` and `shutdown`, what happens
to a caller blocked on an event or on the thread, and what the loop of the worker
does between two accesses of what it shares. Jobs are numbered by the `submit`
that accepted them, and so is the event made for one. An exception that is no
`Exception` passes the handler of the loop and ends the thread.
-/

set_option autoImplicit false

namespace PhysicalAiStudio.Runtime.CommandThread

open Concurrency

structure AckData where
  requestId : String
  ok : Bool
  error : Option String := none
  deriving DecidableEq

structure Job where
  name : String
  requestId : Option String
  deriving DecidableEq

/-- How the function of a job ends. -/
inductive Outcome where
  | returned
  | raised (text : String)
  | exited
  deriving DecidableEq

/-- The ack of a job whose function has returned or raised an `Exception`. -/
def Job.ack (job : Job) : Outcome → Option AckData
  | .returned => some { requestId := job.requestId.getD "", ok := true }
  | .raised text => some {
      requestId := job.requestId.getD ""
      ok := false
      error := some (if text = "" then job.name ++ " failed" else text) }
  | .exited => none

inductive Entry where
  | job (number : Nat) (job : Job)
  | shutdown
  deriving DecidableEq

namespace Entry

def number : Entry → Option Nat
  | .job number _ => some number
  | .shutdown => none

@[simp] theorem filterMap_shutdown (rest : List Entry) :
    (Entry.shutdown :: rest).filterMap Entry.number = rest.filterMap Entry.number := rfl

def requestId : Entry → Option String
  | .job _ queued => queued.requestId
  | .shutdown => none

end Entry

structure Recorded where
  job : Nat
  ack : AckData
  deriving DecidableEq

inductive Worker where
  | unstarted
  | idle
  | running (number : Nat) (job : Job)
  /-- The job has an ack and a request id to record it under. -/
  | acked (number : Nat) (requestId : String) (ack : AckData)
  /-- The ack is recorded, and the event found for the request id is set next. -/
  | recorded (event : Option Nat)
  | finished
  | died
  deriving DecidableEq

namespace Worker

/-- The job whose function has not ended. -/
def hand : Worker → List Nat
  | .running number _ => [number]
  | _ => []

def number : Worker → Option Nat
  | .running number _ | .acked number _ _ => some number
  | _ => none

def requestId : Worker → Option String
  | .running _ job => job.requestId
  | .acked _ requestId _ => some requestId
  | _ => none

end Worker

inductive WaitPhase where
  | blocked (event : Nat)
  | woken
  | timedOut (ack : AckData)
  | answered (recorded : Recorded)
  /-- `wait` raised a `KeyError`. -/
  | missing
  deriving DecidableEq

/-- A call of `wait` for the job of an earlier `submit`. -/
structure Wait where
  submission : Nat
  requestId : String
  timeout : Nat
  phase : WaitPhase
  deriving DecidableEq

namespace WaitPhase

def inProgress : WaitPhase → Bool
  | .blocked _ | .woken => true
  | _ => false

def isAnswered : WaitPhase → Bool
  | .answered _ => true
  | _ => false

end WaitPhase

inductive Shutdown where
  | joining
  | returned (drained : Bool)
  deriving DecidableEq

structure CommandWorker where
  queue : List Entry := []
  results : String → Option Recorded := fun _ => none
  events : String → Option Nat := fun _ => none
  isSet : Nat → Bool := fun _ => false
  closed : Bool := false
  thread : Worker := .unstarted
  jobs : List Job := []
  executed : List Nat := []
  acks : List Recorded := []
  waits : List Wait := []
  shutdowns : List Shutdown := []

namespace CommandWorker

def submit (job : Job) (worker : CommandWorker) : Except Fault CommandWorker :=
  if worker.closed then
    .error (.runtimeError ("Cannot submit " ++ job.name ++ " after the command worker has shut down"))
  else .ok { worker with
    events := match job.requestId with
      | some requestId => Function.update worker.events requestId (some worker.jobs.length)
      | none => worker.events
    thread := if worker.thread = .unstarted then .idle else worker.thread
    queue := worker.queue ++ [.job worker.jobs.length job]
    jobs := worker.jobs ++ [job] }

def lookUp (requestId : String) (worker : CommandWorker) : WaitPhase :=
  match worker.events requestId with
  | some event => .blocked event
  | none => .missing

def popResult (requestId : String) (worker : CommandWorker) : WaitPhase × CommandWorker :=
  let popped := { worker with events := Function.update worker.events requestId none }
  match worker.results requestId with
  | some recorded => (.answered recorded, { popped with results := Function.update worker.results requestId none })
  | none => (.missing, popped)

def timeoutAck (requestId : String) (timeout : Nat) : AckData where
  requestId := requestId
  ok := false
  error := some ("Command timed out after " ++ toString timeout ++ "s")

/-- The section of `shutdown`; without a thread it returns at once. -/
def shutdown (worker : CommandWorker) : CommandWorker :=
  { worker with
    closed := true
    queue := if worker.thread ≠ .unstarted ∧ ¬ worker.closed then worker.queue ++ [.shutdown] else worker.queue
    shutdowns := worker.shutdowns ++ [if worker.thread = .unstarted then .returned true else .joining] }

def isAlive (worker : CommandWorker) : Bool :=
  match worker.thread with
  | .unstarted | .finished | .died => false
  | .idle | .running .. | .acked .. | .recorded _ => true

def finish (number : Nat) (job : Job) (outcome : Outcome) (worker : CommandWorker) : CommandWorker :=
  { worker with
    executed := worker.executed ++ [number]
    acks := worker.acks ++ (job.ack outcome).toList.map (Recorded.mk number)
    thread := match job.ack outcome, job.requestId with
      | none, _ => .died
      | some _, none => .idle
      | some ack, some requestId => .acked number requestId ack }

def record (number : Nat) (requestId : String) (ack : AckData) (worker : CommandWorker) : CommandWorker :=
  { worker with
    results := Function.update worker.results requestId (some ⟨number, ack⟩)
    thread := .recorded (worker.events requestId) }

def signal (event : Option Nat) (worker : CommandWorker) : CommandWorker :=
  { worker with
    isSet := match event with
      | some event => Function.update worker.isSet event true
      | none => worker.isSet
    thread := .idle }

def setPhase (position : Nat) (wait : Wait) (phase : WaitPhase) (worker : CommandWorker) : CommandWorker :=
  { worker with waits := worker.waits.set position { wait with phase := phase } }

end CommandWorker

inductive WorkerEvent where
  | submitted (job : Job)
  | waitBegan (submission : Nat) (timeout : Nat)
  | waitTimedOut (wait : Nat)
  | waitWoke (wait : Nat)
  | waitReturned (wait : Nat)
  | shutdownBegan
  | shutdownReturned (shutdown : Nat)
  | took
  | executed (outcome : Outcome)
  | recorded
  | signalled
  deriving DecidableEq

def CommandWorker.step (worker : CommandWorker) : WorkerEvent → Option CommandWorker
  | .submitted job =>
    match worker.submit job with
    | .ok accepted => some accepted
    | .error _ => some worker
  | .waitBegan submission timeout =>
    match (worker.jobs[submission]?).bind Job.requestId with
    | some requestId =>
      some { worker with waits := worker.waits ++ [⟨submission, requestId, timeout, worker.lookUp requestId⟩] }
    | none => none
  | .waitTimedOut position =>
    match worker.waits[position]? with
    | some ⟨submission, requestId, timeout, .blocked event⟩ =>
      if worker.isSet event then none
      else some (worker.setPhase position ⟨submission, requestId, timeout, .blocked event⟩
        (.timedOut (CommandWorker.timeoutAck requestId timeout)))
    | _ => none
  | .waitWoke position =>
    match worker.waits[position]? with
    | some ⟨submission, requestId, timeout, .blocked event⟩ =>
      if worker.isSet event then
        some (worker.setPhase position ⟨submission, requestId, timeout, .blocked event⟩ .woken)
      else none
    | _ => none
  | .waitReturned position =>
    match worker.waits[position]? with
    | some ⟨submission, requestId, timeout, .woken⟩ =>
      let popped := worker.popResult requestId
      some (popped.2.setPhase position ⟨submission, requestId, timeout, .woken⟩ popped.1)
    | _ => none
  | .shutdownBegan => some worker.shutdown
  | .shutdownReturned position =>
    match worker.shutdowns[position]? with
    -- A join that times out finds the thread alive.
    | some .joining => some { worker with shutdowns := worker.shutdowns.set position (.returned !worker.isAlive) }
    | _ => none
  | .took =>
    match worker.thread, worker.queue with
    | .idle, .job number job :: rest => some { worker with thread := .running number job, queue := rest }
    | .idle, .shutdown :: rest => some { worker with thread := .finished, queue := rest }
    | _, _ => none
  | .executed outcome =>
    match worker.thread with
    | .running number job => some (worker.finish number job outcome)
    | _ => none
  | .recorded =>
    match worker.thread with
    | .acked number requestId ack => some (worker.record number requestId ack)
    | _ => none
  | .signalled =>
    match worker.thread with
    | .recorded event => some (worker.signal event)
    | _ => none

def commandWorker : System CommandWorker WorkerEvent where
  initial := {}
  step := CommandWorker.step

/-- Jobs are executed once and in the order of their submission, all of them before a `shutdown` returns true. -/
structure CommandWorker.Drains (worker : CommandWorker) : Prop where
  inOrder : worker.executed = List.range worker.executed.length
  drained : .returned true ∈ worker.shutdowns → worker.executed.length = worker.jobs.length

def NotAfterShutdown (worker : CommandWorker) (event : WorkerEvent) : Prop :=
  ∀ outcome, event = .executed outcome → .returned true ∉ worker.shutdowns

/-- A `wait` that returns an ack returns the one of the job whose submission it followed, and none raises. -/
def CommandWorker.Answers (worker : CommandWorker) : Prop :=
  ∀ wait ∈ worker.waits, wait.phase ≠ .missing ∧
    ∀ recorded, wait.phase = .answered recorded → recorded.job = wait.submission ∧ recorded ∈ worker.acks

/-- The function of a job ends with a return or an `Exception`. -/
def Survives (_ : CommandWorker) (event : WorkerEvent) : Prop :=
  event ≠ .executed .exited

instance (worker : CommandWorker) (event : WorkerEvent) : Decidable (Survives worker event) :=
  inferInstanceAs (Decidable (_ ≠ _))

/-- No job with the id is queued or without its ack recorded, and no `wait` for it is in progress. -/
def CommandWorker.Unused (worker : CommandWorker) (requestId : String) : Prop :=
  (∀ entry ∈ worker.queue, entry.requestId ≠ some requestId) ∧ worker.thread.requestId ≠ some requestId ∧
    ∀ wait ∈ worker.waits, wait.requestId = requestId → wait.phase.inProgress = false

/-- The id of a submission has not been submitted again, no `wait` for it is in progress, and none has returned the
ack of the submission. -/
def CommandWorker.Awaitable (worker : CommandWorker) (submission : Nat) (requestId : String) : Prop :=
  (∀ later ∈ worker.jobs.drop (submission + 1), later.requestId ≠ some requestId) ∧
    ∀ wait ∈ worker.waits, (wait.requestId = requestId → wait.phase.inProgress = false) ∧
      (wait.submission = submission → wait.phase.isAnswered = false)

def Separate (worker : CommandWorker) : WorkerEvent → Prop
  | .submitted job => ∀ requestId ∈ job.requestId, worker.Unused requestId
  | .waitBegan submission _ =>
    ∀ requestId ∈ (worker.jobs[submission]?).bind Job.requestId, worker.Awaitable submission requestId
  | _ => True

instance (worker : CommandWorker) (requestId : String) : Decidable (worker.Unused requestId) :=
  inferInstanceAs (Decidable (_ ∧ _ ∧ _))

instance (worker : CommandWorker) (submission : Nat) (requestId : String) :
    Decidable (worker.Awaitable submission requestId) :=
  inferInstanceAs (Decidable (_ ∧ _))

instance (worker : CommandWorker) : (event : WorkerEvent) → Decidable (Separate worker event)
  | .submitted job => inferInstanceAs (Decidable (∀ requestId ∈ job.requestId, _))
  | .waitBegan submission _ =>
    inferInstanceAs (Decidable (∀ requestId ∈ (worker.jobs[submission]?).bind Job.requestId, _))
  | .waitTimedOut _ | .waitWoke _ | .waitReturned _ | .shutdownBegan | .shutdownReturned _ | .took | .executed _
  | .recorded | .signalled => inferInstanceAs (Decidable True)

/-! ### First in, first out -/

structure CommandWorker.Fifo (worker : CommandWorker) : Prop where
  accounted : worker.executed ++ worker.thread.hand ++ worker.queue.filterMap Entry.number =
    List.range worker.jobs.length
  unstarted : worker.thread = .unstarted → worker.jobs = []
  open' : worker.closed = false → .shutdown ∉ worker.queue ∧ worker.thread ≠ .finished
  last : ∀ before after, worker.queue = before ++ .shutdown :: after → after = []
  finished : worker.thread = .finished → worker.queue = []
  joined : worker.shutdowns ≠ [] → worker.closed = true
  dead : .returned true ∈ worker.shutdowns → worker.isAlive = false

namespace CommandWorker

variable {worker next : CommandWorker} {event : WorkerEvent}

theorem Fifo.inOrder (fifo : worker.Fifo) : worker.executed = List.range worker.executed.length := by
  have before : worker.executed <+: List.range worker.jobs.length := by
    rw [← fifo.accounted, List.append_assoc]
    exact List.prefix_append _ _
  have bound := before.length_le
  rw [List.length_range] at bound
  conv_lhs => rw [List.prefix_iff_eq_take.mp before, List.take_range, Nat.min_eq_left bound]

theorem Fifo.of_same (fifo : worker.Fifo) (queue : next.queue = worker.queue) (thread : next.thread = worker.thread)
    (jobs : next.jobs = worker.jobs) (executed : next.executed = worker.executed)
    (closed : next.closed = worker.closed) (shutdowns : next.shutdowns = worker.shutdowns) : next.Fifo := by
  have alive : next.isAlive = worker.isAlive := by rw [isAlive, isAlive, thread]
  exact {
    accounted := by rw [queue, thread, jobs, executed]; exact fifo.accounted
    unstarted := by rw [thread, jobs]; exact fifo.unstarted
    open' := by rw [closed, queue, thread]; exact fifo.open'
    last := by rw [queue]; exact fifo.last
    finished := by rw [thread, queue]; exact fifo.finished
    joined := by rw [shutdowns, closed]; exact fifo.joined
    dead := by rw [shutdowns, alive]; exact fifo.dead }

theorem Fifo.submit {job : Job} (fifo : worker.Fifo) (accepted : worker.submit job = .ok next) : next.Fifo := by
  unfold CommandWorker.submit at accepted
  split at accepted
  · cases accepted
  · next isOpen =>
    have isOpen : worker.closed = false := by simpa using isOpen
    -- As long as the worker is open no shutdown is queued, so the job goes behind jobs alone.
    obtain ⟨noShutdown, unfinished⟩ := fifo.open' isOpen
    have untouched : worker.shutdowns = [] := by
      by_contra some
      rw [fifo.joined some] at isOpen
      cases isOpen
    cases accepted
    refine ⟨?_, ?_, fun _ => ⟨?_, ?_⟩, fun before after split => ?_, ?_, ?_, ?_⟩
    · have hand : (if worker.thread = .unstarted then Worker.idle else worker.thread).hand = worker.thread.hand := by
        split
        · next unstarted => rw [unstarted]; rfl
        · rfl
      simp only [hand, List.filterMap_append, List.length_append, List.length_singleton, List.range_succ,
        ← fifo.accounted, List.append_assoc]
      rfl
    · dsimp only
      split
      · intro absurd; cases absurd
      · exact fun unstarted => absurd unstarted ‹_›
    · simpa using noShutdown
    · dsimp only
      split
      · intro absurd; cases absurd
      · exact unfinished
    · change worker.queue ++ [.job worker.jobs.length job] = _ at split
      have member : Entry.shutdown ∈ worker.queue ++ [.job worker.jobs.length job] := by
        rw [split]
        exact List.mem_append_right _ List.mem_cons_self
      rcases List.mem_append.mp member with old | new
      · exact absurd old noShutdown
      · cases List.mem_singleton.mp new
    · dsimp only
      split
      · intro absurd; cases absurd
      · exact fun finished => absurd finished unfinished
    · exact fun some => absurd untouched some
    · simp [untouched]

theorem Fifo.shutdown (fifo : worker.Fifo) : worker.shutdown.Fifo := by
  have queue : worker.shutdown.queue = worker.queue ∨
      worker.thread ≠ .unstarted ∧ worker.closed = false ∧ worker.shutdown.queue = worker.queue ++ [.shutdown] := by
    unfold CommandWorker.shutdown
    dsimp only
    split
    · next both => exact .inr ⟨both.1, by simpa using both.2, rfl⟩
    · exact .inl rfl
  refine ⟨?_, fifo.unstarted, fun isOpen => (by cases isOpen), fun before after split => ?_, fun finished => ?_,
    fun _ => rfl, fun returned => ?_⟩
  · rcases queue with same | ⟨-, -, appended⟩
    · rw [same]; exact fifo.accounted
    · rw [appended, List.filterMap_append, Entry.filterMap_shutdown, List.filterMap_nil, List.append_nil]
      exact fifo.accounted
  · rcases queue with same | ⟨-, isOpen, appended⟩
    · exact fifo.last before after (same ▸ split)
    · rw [appended] at split
      -- Nothing was queued behind a sentinel before, so the new one is the first.
      have noShutdown := (fifo.open' isOpen).1
      rcases List.eq_nil_or_concat after with nil | ⟨rest, final, rfl⟩
      · exact nil
      · rw [List.concat_eq_append, ← List.cons_append, ← List.append_assoc] at split
        obtain ⟨front, -⟩ := List.append_inj' split rfl
        exact absurd (front ▸ List.mem_append_right _ List.mem_cons_self) noShutdown
  · rcases queue with same | ⟨-, isOpen, -⟩
    · rw [same]; exact fifo.finished finished
    · exact absurd finished (fifo.open' isOpen).2
  · rcases List.mem_append.mp returned with old | new
    · exact fifo.dead old
    · by_cases unstarted : worker.thread = .unstarted
      · simp [CommandWorker.isAlive, CommandWorker.shutdown, unstarted]
      · simp [unstarted] at new

theorem Fifo.join {position : Nat} (fifo : worker.Fifo) (joining : worker.shutdowns[position]? = some .joining) :
    Fifo { worker with shutdowns := worker.shutdowns.set position (.returned !worker.isAlive) } := by
  have closed : worker.closed = true := fifo.joined (List.ne_nil_of_mem (List.mem_of_getElem? joining))
  refine ⟨fifo.accounted, fifo.unstarted, fifo.open', fifo.last, fifo.finished, fun _ => closed, fun returned => ?_⟩
  rcases List.mem_or_eq_of_mem_set returned with old | new
  · exact fifo.dead old
  · have dead : worker.isAlive = false := by simpa using new
    exact dead

theorem Fifo.take {entry : Entry} {rest : List Entry} {thread : Worker} (fifo : worker.Fifo)
    (idle : worker.thread = .idle) (queued : worker.queue = entry :: rest)
    (thread_eq : (∃ number job, entry = .job number job ∧ thread = .running number job) ∨
      entry = .shutdown ∧ thread = .finished) : Fifo { worker with thread := thread, queue := rest } := by
  have alive : .returned true ∉ worker.shutdowns := fun returned => by
    have dead := fifo.dead returned
    simp [isAlive, idle] at dead
  have last : ∀ before after, rest = before ++ .shutdown :: after → after = [] := fun before after split =>
    fifo.last (entry :: before) after (by rw [queued, split, List.cons_append])
  have accounted := fifo.accounted
  rw [idle, queued] at accounted
  rcases thread_eq with ⟨number, job, rfl, rfl⟩ | ⟨rfl, rfl⟩
  · refine ⟨?_, fun absurd => (by cases absurd), fun isOpen => ⟨fun member => ?_, by simp⟩, last,
      fun absurd => (by cases absurd), fifo.joined, fun returned => absurd returned alive⟩
    · simpa [Worker.hand, Entry.number] using accounted
    · exact (fifo.open' isOpen).1 (queued ▸ List.mem_cons_of_mem _ member)
  · have nil : rest = [] := fifo.last [] rest (by rw [queued, List.nil_append])
    refine ⟨?_, fun absurd => (by cases absurd), fun isOpen => ?_, last, fun _ => nil, fifo.joined,
      fun returned => absurd returned alive⟩
    · simpa [Worker.hand, Entry.number] using accounted
    · exact absurd (queued ▸ List.mem_cons_self) (fifo.open' isOpen).1

/-- The thread moves on from a job, and shares nothing new that concerns the queue. -/
theorem Fifo.move (fifo : worker.Fifo) (alive : worker.isAlive = true)
    (hand : worker.executed ++ worker.thread.hand = next.executed ++ next.thread.hand)
    (moved : next.thread ≠ .unstarted ∧ next.thread ≠ .finished) (queue : next.queue = worker.queue)
    (jobs : next.jobs = worker.jobs) (closed : next.closed = worker.closed)
    (shutdowns : next.shutdowns = worker.shutdowns) : next.Fifo where
  accounted := by rw [queue, jobs, ← hand]; exact fifo.accounted
  unstarted := fun same => absurd same moved.1
  open' := by rw [closed, queue]; exact fun isOpen => ⟨(fifo.open' isOpen).1, moved.2⟩
  last := by rw [queue]; exact fifo.last
  finished := fun same => absurd same moved.2
  joined := by rw [shutdowns, closed]; exact fifo.joined
  dead := by rw [shutdowns]; exact fun returned => absurd alive (by simp [fifo.dead returned])

theorem Fifo.step (fifo : worker.Fifo) (step : worker.step event = some next) : next.Fifo := by
  cases event with
  | submitted job =>
    simp only [CommandWorker.step] at step
    split at step
    · next accepted submitted => cases step; exact fifo.submit submitted
    · cases step; exact fifo
  | waitBegan submission timeout =>
    simp only [CommandWorker.step] at step
    split at step
    · cases step; exact fifo.of_same rfl rfl rfl rfl rfl rfl
    · cases step
  | waitTimedOut position =>
    simp only [CommandWorker.step] at step
    split at step
    · split at step
      · cases step
      · cases step; exact fifo.of_same rfl rfl rfl rfl rfl rfl
    · cases step
  | waitWoke position =>
    simp only [CommandWorker.step] at step
    split at step
    · split at step
      · cases step; exact fifo.of_same rfl rfl rfl rfl rfl rfl
      · cases step
    · cases step
  | waitReturned position =>
    simp only [CommandWorker.step] at step
    split at step
    · cases step
      unfold popResult
      split <;> exact fifo.of_same rfl rfl rfl rfl rfl rfl
    · cases step
  | shutdownBegan => cases step; exact fifo.shutdown
  | shutdownReturned position =>
    simp only [CommandWorker.step] at step
    split at step
    · cases step; exact fifo.join ‹_›
    · cases step
  | took =>
    simp only [CommandWorker.step] at step
    split at step
    · cases step; exact fifo.take ‹_› ‹_› (.inl ⟨_, _, rfl, rfl⟩)
    · cases step; exact fifo.take ‹_› ‹_› (.inr ⟨rfl, rfl⟩)
    · cases step
  | executed outcome =>
    simp only [CommandWorker.step] at step
    split at step
    · next number job running =>
      cases step
      refine fifo.move (by simp [isAlive, running]) ?_ ?_ rfl rfl rfl rfl
      · unfold finish
        cases job.ack outcome <;> cases job.requestId <;> simp [running, Worker.hand]
      · unfold finish
        cases job.ack outcome <;> cases job.requestId <;> simp
    · cases step
  | recorded =>
    simp only [CommandWorker.step] at step
    split at step
    · next acked =>
      cases step
      exact fifo.move (by simp [isAlive, acked]) (by simp [acked, record, Worker.hand]) (by simp [record])
        rfl rfl rfl rfl
    · cases step
  | signalled =>
    simp only [CommandWorker.step] at step
    split at step
    · next recorded =>
      cases step
      exact fifo.move (by simp [isAlive, recorded]) (by simp [recorded, signal, Worker.hand]) (by simp [signal])
        rfl rfl rfl rfl
    · cases step

theorem reached_fifo {history : List WorkerEvent} (reached : commandWorker.reached history = some worker) :
    worker.Fifo :=
  System.invariant_always ⟨rfl, fun _ => rfl, fun _ => ⟨by simp [commandWorker], by simp [commandWorker]⟩,
    fun before after split => by simp [commandWorker] at split, fun _ => rfl, by simp [commandWorker],
    by simp [commandWorker]⟩ (fun _ _ _ fifo step => Fifo.step fifo step) reached

theorem not_died (survives : Survives worker event) (alive : worker.thread ≠ .died)
    (step : worker.step event = some next) : next.thread ≠ .died := by
  cases event with
  | submitted job =>
    simp only [CommandWorker.step, submit] at step
    split at step <;> cases step
    · next submitted =>
      split at submitted
      · cases submitted
      · cases submitted
        dsimp only
        split
        · intro absurd; cases absurd
        · exact alive
    · exact alive
  | executed outcome =>
    simp only [CommandWorker.step] at step
    split at step <;> cases step
    next number job running =>
      -- A job that returns or raises has an answer; only one that exits takes the thread with it.
      have ended : ∃ ack, job.ack outcome = some ack := by
        cases outcome with
        | returned => exact ⟨_, rfl⟩
        | raised text => exact ⟨_, rfl⟩
        | exited => exact absurd rfl survives
      obtain ⟨ack, ended⟩ := ended
      unfold finish
      rw [ended]
      cases job.requestId <;> simp
  | waitBegan | waitTimedOut | waitWoke | waitReturned | shutdownBegan | shutdownReturned | took | recorded |
    signalled =>
    simp only [CommandWorker.step, popResult, record, signal, setPhase, CommandWorker.shutdown] at step
    (repeat' split at step) <;> cases step <;> first | exact alive | simp

theorem Fifo.drains (fifo : worker.Fifo) (alive : worker.thread ≠ .died) : worker.Drains := by
  refine ⟨fifo.inOrder, fun returned => ?_⟩
  have dead := fifo.dead returned
  have accounted := congrArg List.length fifo.accounted
  rw [List.length_append, List.length_append, List.length_range] at accounted
  cases thread : worker.thread with
  | unstarted => simpa [fifo.unstarted thread, Worker.hand, thread] using Nat.le_of_add_right_le accounted.le
  | finished => simpa [fifo.finished thread, Worker.hand, thread] using accounted
  | died => exact absurd thread alive
  | idle | running | acked | recorded => simp [isAlive, thread] at dead

theorem Fifo.notAfterShutdown (fifo : worker.Fifo) (step : worker.step event = some next) :
    NotAfterShutdown worker event := by
  rintro outcome rfl returned
  have dead := fifo.dead returned
  simp only [CommandWorker.step] at step
  split at step
  · next running => simp [isAlive, running] at dead
  · cases step

theorem never_after_shutdown {history : List WorkerEvent} (reached : commandWorker.reached history = some worker) :
    commandWorker.Throughout NotAfterShutdown history := by
  induction history generalizing worker with
  | nil => trivial
  | cons event older ih =>
    obtain ⟨before, led, step⟩ := System.reached_cons.mp reached
    exact (System.throughout_cons led).mpr ⟨(reached_fifo led).notAfterShutdown step, ih led⟩

end CommandWorker

end PhysicalAiStudio.Runtime.CommandThread
