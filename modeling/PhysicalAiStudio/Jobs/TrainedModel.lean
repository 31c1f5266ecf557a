import PhysicalAiStudio.Jobs.WorkerProcess

/-! The model row of a training job.

A worker whose training has completed commits two writes, the status of the job and then the
model row. Between the two the job is completed without a model.
-/

set_option autoImplicit false

namespace PhysicalAiStudio.Jobs

open Concurrency

structure TrainedJob where
  job : TrainingJob
  /-- The rows with the job as their `train_job_id`, each by the worker that created it. -/
  models : List Nat := []
  /-- The worker has committed the status and not yet the model. -/
  saving : Nat → Bool := fun _ => false

inductive TrainedEvent where
  | training (event : TrainingEvent)
  | modelCreated (worker : Nat)
  deriving DecidableEq

theorem Outcome.status_ne_running (outcome : Outcome) : outcome.status ≠ .running := by
  cases outcome <;> simp [Outcome.status]

theorem Outcome.status_eq_completed {outcome : Outcome} : outcome.status = .completed ↔ outcome = .completed := by
  cases outcome <;> simp [Outcome.status]

namespace TrainedJob

def savingAfter (state : TrainedJob) : TrainingEvent → Nat → Bool
  | .finalWritten position =>
    if (state.job.workers position).phase = .finishing .completed then Function.update state.saving position true
    else state.saving
  | .died position => Function.update state.saving position false
  | .shutdown => fun _ => false
  | _ => state.saving

def step (state : TrainedJob) : TrainedEvent → Option TrainedJob
  | .training event =>
    (state.job.step event).map fun job => { state with job := job, saving := state.savingAfter event }
  | .modelCreated position =>
    if state.saving position then
      some { state with models := position :: state.models, saving := Function.update state.saving position false }
    else none

def Idle (state : TrainedJob) (position : Nat) : Prop :=
  ¬(state.job.workers position).phase.Working ∧ state.saving position = false

def Settled (state : TrainedJob) : Prop := ∀ position, state.Idle position

/-- A completed job has one model, any other job that no worker has has none, and none is running. -/
structure Consistent (state : TrainedJob) : Prop where
  completed : state.job.row.status = .completed ↔ state.models.length = 1
  others : state.job.row.status = .canceled ∨ state.job.row.status = .failed ∨ state.job.row.status = .pending →
    state.models = []
  stopped : state.job.row.status ≠ .running

/-- No worker ends before its last write, and no dispatcher writes after it. -/
def Unbroken (state : TrainedJob) : TrainedEvent → Prop
  | .training (.progressed position) => (state.job.workers position).phase ≠ .concluded
  | .training (.died position) => state.Idle position
  | .training .shutdown => ∀ position ∈ state.job.process, state.Idle position
  | _ => True

end TrainedJob

def trainedJob (payload : TrainPayload) : System TrainedJob TrainedEvent where
  initial := { job := (trainingJob payload).initial }
  step := TrainedJob.step

namespace TrainedJob

variable {state next : TrainedJob} {event : TrainingEvent}

structure Inv (state : TrainedJob) : Prop where
  job : state.job.Inv
  running : state.job.row.status = .running → ∃ i, (state.job.workers i).phase.Working
  saving : ∀ i, state.saving i = true → (state.job.workers i).phase = .concluded ∧ state.job.row.status = .completed ∧
    state.models = []
  completed : state.job.row.status = .completed → state.models = [] → ∃ i, state.saving i = true
  single : state.models.length ≤ 1
  models : state.models ≠ [] → state.job.row.status = .completed
  reaping : ∀ reattaching, state.job.scheduler = .reaping reattaching true →
    state.job.row.status = .pending ∨ state.job.row.status = .canceled

theorem Inv.initial (payload : TrainPayload) : (trainedJob payload).initial.Inv := by
  constructor
  case job => exact TrainingJob.Inv.initial payload
  all_goals simp [trainedJob, trainingJob]

variable {job : TrainingJob}

/-- The scheduler writes the status of a pending job that it reaps, and of a running one without a process. -/
theorem scheduler_writes (stepped : state.job.SchedulerStep event job) :
    job.row.status = state.job.row.status ∨
      (∃ reattaching, state.job.scheduler = .reaping reattaching true ∧ job.row.status = .failed) ∨
      ∃ requeue, state.job.scheduler = .recovering requeue := by
  cases stepped with
  | reapFailed reaping => exact .inr (.inl ⟨_, reaping, rfl⟩)
  | recoverWritten recovering => exact .inr (.inr ⟨_, recovering⟩)
  | started _ same | startFailed _ same =>
    have status := TrainingJob.setdefaultEvent_status same
    exact .inl status
  | _ => exact .inl rfl

theorem scheduler_worker (inv : state.job.Inv) (unbroken : state.Unbroken (.training event))
    (stepped : state.job.SchedulerStep event job) (i : Nat)
    (alive : (state.job.workers i).phase.Alive) (busy : ¬state.Idle i) : job.workers i = state.job.workers i := by
  have process : state.job.process = some i := inv.process i alive
  cases stepped with
  | started _ _ _ free | startFailed _ _ _ free => cases process.symm.trans free
  | shutdown => exact absurd (unbroken i process) busy
  | _ => rfl

theorem Inv.savingAfter_scheduler (inv : state.Inv) (unbroken : state.Unbroken (.training event))
    (stepped : state.job.SchedulerStep event job) : state.savingAfter event = state.saving := by
  cases event with
  | finalWritten | died => cases stepped
  | shutdown =>
    funext i
    by_contra busy
    have saving : state.saving i = true := by simpa [savingAfter] using busy
    have alive : (state.job.workers i).phase.Alive := by simp [(inv.saving i saving).1, WorkerPhase.Alive]
    have idle := unbroken i (inv.job.process i alive)
    exact absurd (idle.2.symm.trans saving) (by decide)
  | _ => rfl

theorem Inv.scheduler_status (inv : state.Inv) (stepped : state.job.SchedulerStep event job) :
    job.row.status = state.job.row.status ∨
      (state.job.row.status = .pending ∨ state.job.row.status = .canceled) ∧ job.row.status = .failed := by
  rcases scheduler_writes stepped with same | ⟨reattaching, reaping, failed⟩ | ⟨requeue, recovering⟩
  · exact .inl same
  · exact .inr ⟨inv.reaping reattaching reaping, failed⟩
  · obtain ⟨absent, running⟩ := inv.job.recovering requeue recovering
    obtain ⟨i, working⟩ := inv.running running
    rw [inv.job.process i working.alive] at absent
    cases absent

theorem Inv.scheduler (inv : state.Inv) (unbroken : state.Unbroken (.training event))
    (stepped : state.job.SchedulerStep event job) :
    Inv { state with job := job, saving := state.savingAfter event } := by
  rw [inv.savingAfter_scheduler unbroken stepped]
  have status := inv.scheduler_status stepped
  have worker := fun i => scheduler_worker inv.job unbroken stepped i
  refine ⟨inv.job.scheduler stepped, fun running => ?_, fun i saving => ?_, fun completed none => ?_, inv.single,
    fun some => ?_, fun reattaching reaping => ?_⟩
  · obtain ⟨i, working⟩ := inv.running (by grind -linarith)
    exact ⟨i, worker i working.alive (fun idle => idle.1 working) ▸ working⟩
  · obtain ⟨written, completed, none⟩ := inv.saving i saving
    have same := worker i (by simp [written, WorkerPhase.Alive]) (fun idle => by simp [idle.2] at saving)
    exact ⟨same ▸ written, by grind -linarith, none⟩
  · exact inv.completed (by grind -linarith) none
  · have completed := inv.models some
    grind -linarith
  · obtain ⟨same, ⟨before, -⟩ | ⟨-, pending⟩⟩ := stepped.reaping_before reaping
    · exact same ▸ inv.reaping reattaching before
    · exact .inl (same.trans pending)

theorem worker_working (unbroken : state.Unbroken (.training event)) (stepped : state.job.WorkerStep event job)
    (i : Nat) (working : (state.job.workers i).phase.Working) (status : job.row.status = .running) :
    (job.workers i).phase.Working := by
  cases stepped with
  | progressed => exact working
  | finalWritten => exact absurd status (Outcome.status_ne_running _)
  | stoppedEarly _ spawned | claimLost _ spawned =>
    rw [TrainingJob.setWorker_workers]
    split
    · next same =>
      rw [same, spawned] at working
      exact working
    · exact working
  -- In an unbroken run no worker dies while it works.
  | died =>
    rw [TrainingJob.setWorker_workers]
    split
    · next same => exact absurd (same ▸ working) unbroken.1
    · exact working
  | authenticationReported | remoteJobPersisted | dispatcherEnded =>
    rw [TrainingJob.setWorker_workers]
    split
    · next same => exact same ▸ working
    · exact working
  | _ =>
    rw [TrainingJob.setWorker_workers]
    split
    · trivial
    · exact working

theorem working_of_progress (inv : state.job.Inv) {position : Nat}
    (unbroken : state.Unbroken (.training (.progressed position)))
    (dispatching : (state.job.workers position).dispatching = true) : (state.job.workers position).phase.Working :=
  (inv.dispatching position dispatching).resolve_right unbroken

theorem worker_claims (inv : state.job.Inv) (unbroken : state.Unbroken (.training event))
    (stepped : state.job.WorkerStep event job) (waiting : state.job.row.status ≠ .running)
    (status : job.row.status = .running) :
    ∃ position, event = .claimed position ∧ (job.workers position).phase = .claimed := by
  have idle {position : Nat} {phase : WorkerPhase} (found : (state.job.workers position).phase = phase) :
      ¬phase.Working := fun works => waiting (inv.working position (found ▸ works))
  cases stepped with
  | claimed position => exact ⟨position, rfl, by rw [TrainingJob.setWorker_workers, if_pos rfl]⟩
  | startWritten _ found | persistWritten _ found => exact absurd trivial (idle found)
  | progressed _ dispatching => exact absurd (working_of_progress inv unbroken dispatching) (idle rfl)
  | finalWritten => exact absurd status (Outcome.status_ne_running _)
  | _ => exact absurd status waiting

theorem worker_completes (inv : state.job.Inv) (stepped : state.job.WorkerStep event job)
    (before : state.job.row.status ≠ .completed) (status : job.row.status = .completed) :
    ∃ position, event = .finalWritten position ∧ (state.job.workers position).phase = .finishing .completed := by
  cases stepped with
  | claimed | progressed => cases status
  | startWritten _ starting => cases (inv.startWritten_running _ starting).symm.trans status
  | persistWritten _ persisting => cases (inv.persistWritten_running _ persisting).symm.trans status
  | finalWritten position finishing =>
    cases Outcome.status_eq_completed.mp status
    exact ⟨position, rfl, finishing⟩
  | _ => exact absurd status before

theorem worker_completed (inv : state.job.Inv) (unbroken : state.Unbroken (.training event))
    (stepped : state.job.WorkerStep event job) (completed : state.job.row.status = .completed) :
    job.row.status = .completed := by
  have idle {position : Nat} {phase : WorkerPhase} (found : (state.job.workers position).phase = phase) :
      ¬phase.Working := fun works => by cases completed.symm.trans (inv.working position (found ▸ works))
  cases stepped with
  | claimed _ _ pending => cases completed.symm.trans pending
  | startWritten _ found | persistWritten _ found | finalWritten _ found => exact absurd trivial (idle found)
  | progressed _ dispatching => exact absurd (working_of_progress inv unbroken dispatching) (idle rfl)
  | _ => exact completed

theorem worker_over (stepped : state.job.WorkerStep event job) (i : Nat) (alive : event ≠ .died i)
    (concluded : (state.job.workers i).phase = .concluded) : (job.workers i).phase = .concluded := by
  cases stepped with
  | progressed => exact concluded
  | stoppedEarly | claimLost | finalWritten =>
    rw [TrainingJob.setWorker_workers]
    split
    · rfl
    · exact concluded
  | died position =>
    rw [TrainingJob.setWorker_workers, if_neg (fun same => alive (by rw [same]))]
    exact concluded
  | dispatcherEnded =>
    rw [TrainingJob.setWorker_workers]
    split
    · next same => exact same ▸ concluded
    · exact concluded
  | claimed _ found | loaded _ found | joined _ _ found | prepared _ _ found | startRead _ found | startWritten _ found
  | authenticationReported _ _ found | remoteJobPersisted _ _ found | persistCopied _ _ found | persistRead _ found
  | persistWritten _ found | trained _ _ found =>
    rw [TrainingJob.setWorker_workers]
    split
    · next same => cases found.symm.trans (same ▸ concluded)
    · exact concluded

theorem worker_dead (inv : state.job.Inv) (stepped : state.job.WorkerStep event job)
    (dead : ∀ i, ¬(state.job.workers i).phase.Alive) : job.row.status = state.job.row.status := by
  have gone {position : Nat} {phase : WorkerPhase} (found : (state.job.workers position).phase = phase) :
      ¬phase.Alive := found ▸ dead position
  cases stepped with
  | claimed _ found | startWritten _ found | persistWritten _ found | finalWritten _ found =>
    exact absurd trivial (gone found)
  | progressed position dispatching => cases (inv.resting (dead position)).2.symm.trans dispatching
  | _ => rfl

theorem savingAfter_worker (stepped : state.job.WorkerStep event job) (i : Nat) :
    state.savingAfter event i = true ↔
      state.saving i = true ∧ event ≠ .died i ∨
        event = .finalWritten i ∧ (state.job.workers i).phase = .finishing .completed := by
  cases event with
  | finalWritten position =>
    by_cases same : i = position
    · subst same
      by_cases completes : (state.job.workers i).phase = .finishing .completed <;> simp [savingAfter, completes]
    · by_cases completes : (state.job.workers position).phase = .finishing .completed <;>
        simp [savingAfter, completes, same, Ne.symm same]
  | died position =>
    by_cases same : i = position
    · simp [savingAfter, same]
    · simp [savingAfter, same, Ne.symm same]
  | shutdown => cases stepped
  | _ => simp [savingAfter]

theorem Inv.worker (inv : state.Inv) (unbroken : state.Unbroken (.training event))
    (stepped : state.job.WorkerStep event job) :
    Inv { state with job := job, saving := state.savingAfter event } := by
  refine ⟨inv.job.worker stepped, fun running => ?_, fun i saving => ?_, fun completed none => ?_, inv.single,
    fun some => ?_, fun reattaching reaping => ?_⟩
  · by_cases before : state.job.row.status = .running
    · obtain ⟨i, working⟩ := inv.running before
      exact ⟨i, worker_working unbroken stepped i working running⟩
    · obtain ⟨i, -, claimed⟩ := worker_claims inv.job unbroken stepped before running
      exact ⟨i, by simp [claimed, WorkerPhase.Working]⟩
  · rcases (savingAfter_worker stepped i).mp saving with ⟨before, alive⟩ | ⟨rfl, finishing⟩
    · obtain ⟨concluded, completed, none⟩ := inv.saving i before
      exact ⟨worker_over stepped i alive concluded, worker_completed inv.job unbroken stepped completed, none⟩
    · have working : (state.job.workers i).phase.Working := by simp [finishing, WorkerPhase.Working]
      -- A model is made after COMPLETED alone, and this worker has found the job running.
      have none : state.models = [] := by
        by_contra some
        exact absurd ((inv.job.working i working).symm.trans (inv.models some)) (by decide)
      cases stepped with
      | finalWritten _ found =>
        cases finishing.symm.trans found
        exact ⟨by rw [TrainingJob.setWorker_workers, if_pos rfl], rfl, none⟩
  · by_cases before : state.job.row.status = .completed
    · obtain ⟨i, saving⟩ := inv.completed before none
      refine ⟨i, (savingAfter_worker stepped i).mpr (.inl ⟨saving, ?_⟩)⟩
      rintro rfl
      exact absurd (unbroken.2.symm.trans saving) (by decide)
    · obtain ⟨i, final, finishing⟩ := worker_completes inv.job stepped before completed
      exact ⟨i, (savingAfter_worker stepped i).mpr (.inr ⟨final, finishing⟩)⟩
  · exact worker_completed inv.job unbroken stepped (inv.models some)
  · rw [stepped.frame.2] at reaping
    obtain ⟨reaped, process, dead⟩ := inv.job.reaping reattaching true reaping
    -- The reaper has found the process dead, so the job has no live worker that could write.
    have none (i : Nat) (alive : (state.job.workers i).phase.Alive) : False := by
      have same : i = reaped := Option.some.inj ((inv.job.process i alive).symm.trans process)
      rw [same, dead] at alive
      exact alive
    exact worker_dead inv.job stepped none ▸ inv.reaping reattaching reaping

/-- A request to interrupt the job writes only the status of a waiting one. -/
theorem request_status (stepped : state.job.RequestStep event job) :
    job.row.status = state.job.row.status ∨ state.job.row.status = .pending ∧ job.row.status = .canceled := by
  cases stepped with
  | canceled _ _ pending => exact .inr ⟨pending.1, rfl⟩
  | eventFetched _ same =>
    have status := TrainingJob.setdefaultEvent_status same
    exact .inl status
  | _ => exact .inl rfl

theorem Inv.request (inv : state.Inv) (stepped : state.job.RequestStep event job) :
    Inv { state with job := job, saving := state.savingAfter event } := by
  have saving : state.savingAfter event = state.saving := by
    cases event with
    | finalWritten | died | shutdown => cases stepped
    | _ => rfl
  obtain ⟨workers, -, scheduler⟩ := stepped.frame
  have status := request_status stepped
  rw [saving]
  refine ⟨inv.job.request stepped, fun running => ?_, fun i saving => ?_, fun completed none => ?_, inv.single,
    fun some => ?_, fun reattaching reaping => ?_⟩
  · obtain ⟨i, working⟩ := inv.running (by grind -linarith)
    exact ⟨i, workers ▸ working⟩
  · obtain ⟨concluded, completed, none⟩ := inv.saving i saving
    exact ⟨workers ▸ concluded, by grind -linarith, none⟩
  · exact inv.completed (by grind -linarith) none
  · have completed := inv.models some
    grind -linarith
  · have before := inv.reaping reattaching (scheduler ▸ reaping)
    grind -linarith

theorem Inv.created (inv : state.Inv) {position : Nat} (saving : state.saving position = true) :
    Inv { state with
      models := position :: state.models
      saving := Function.update state.saving position false } := by
  obtain ⟨concluded, completed, none⟩ := inv.saving position saving
  -- The process table has one entry, so no other worker is between its two writes.
  have others (i : Nat) (also : state.saving i = true) : i = position := by
    have first := inv.job.process i (by simp [(inv.saving i also).1, WorkerPhase.Alive])
    have second := inv.job.process position (by simp [concluded, WorkerPhase.Alive])
    exact Option.some.inj (first.symm.trans second)
  have saved (i : Nat) : Function.update state.saving position false i ≠ true := by
    intro left
    by_cases same : i = position
    · simp [same] at left
    · rw [Function.update_of_ne same] at left
      exact same (others i left)
  exact ⟨inv.job, inv.running, fun i left => absurd left (saved i), fun _ empty => absurd empty (List.cons_ne_nil _ _),
    by simp [none], fun _ => completed, inv.reaping⟩

theorem Inv.step {event : TrainedEvent} (inv : state.Inv) (unbroken : state.Unbroken event)
    (stepped : state.step event = some next) : next.Inv := by
  cases event with
  | training event =>
    obtain ⟨job, moved, rfl⟩ := Option.map_eq_some_iff.mp stepped
    rcases TrainingJob.step_cases moved with scheduler | worker | request
    · exact inv.scheduler unbroken scheduler
    · exact inv.worker unbroken worker
    · exact inv.request request
  | modelCreated position =>
    simp only [TrainedJob.step, Option.ite_none_right_eq_some, Option.some.injEq] at stepped
    obtain ⟨saving, rfl⟩ := stepped
    exact inv.created saving

theorem Inv.consistent (inv : state.Inv) (settled : state.Settled) : state.Consistent := by
  have empty (other : state.job.row.status ≠ .completed) : state.models = [] := by
    by_contra some
    exact other (inv.models some)
  refine ⟨⟨fun completed => ?_, fun one => inv.models ?_⟩, fun other => empty ?_, fun running => ?_⟩
  · have some : state.models ≠ [] := by
      intro none
      obtain ⟨i, saving⟩ := inv.completed completed none
      exact absurd ((settled i).2.symm.trans saving) (by decide)
    have := List.length_pos_iff.mpr some
    have := inv.single
    omega
  · intro none
    simp [none] at one
  · rcases other with same | same | same <;> simp [same]
  · obtain ⟨i, working⟩ := inv.running running
    exact (settled i).1 working

instance : (phase : WorkerPhase) → Decidable phase.Working
  | .absent | .spawned | .concluded | .dead => inferInstanceAs (Decidable False)
  | .claimed | .loaded _ | .prepared | .starting _ | .training | .persisting _ | .persistingRead _ _
  | .finishing _ => inferInstanceAs (Decidable True)

instance (state : TrainedJob) (position : Nat) : Decidable (state.Idle position) :=
  inferInstanceAs (Decidable (_ ∧ _))

instance (state : TrainedJob) : (event : TrainedEvent) → Decidable (state.Unbroken event)
  | .training (.progressed _) => inferInstanceAs (Decidable (_ ≠ _))
  | .training (.died position) => inferInstanceAs (Decidable (state.Idle position))
  | .training .shutdown => inferInstanceAs (Decidable (∀ position ∈ state.job.process, state.Idle position))
  | .modelCreated _ => inferInstanceAs (Decidable True)
  | .training .listed | .training .listEnded | .training (.started _) | .training (.startFailed _)
  | .training .reapLoaded | .training .reapFailed | .training .reaped | .training .recoverLoaded
  | .training .recoverWritten | .training .sweepLoaded | .training .swept | .training .stopRequested
  | .training .restarted | .training (.stoppedEarly _) | .training (.claimed _) | .training (.loaded _)
  | .training (.prepared _ _) | .training (.startRead _) | .training (.startWritten _)
  | .training (.authenticationReported _ _) | .training (.remoteJobPersisted _ _) | .training (.persistCopied _ _)
  | .training (.persistRead _) | .training (.persistWritten _) | .training (.trained _ _) | .training (.finalWritten _)
  | .training (.dispatcherEnded _) | .training (.interruptLoaded _) | .training (.cancelPersisted _)
  | .training (.interruptChecked _) | .training (.cancelTransitioned _) | .training (.eventFetched _)
  | .training (.eventSet _) => inferInstanceAs (Decidable True)

end TrainedJob

/-- In runs in which no worker ends before its last write and no dispatcher writes after it, a job that its workers have
finished with is completed with one model, or neither completed nor running and without a model. -/
theorem finished_training_consistent {payload : TrainPayload} {history : List TrainedEvent} {state : TrainedJob}
    (unbroken : (trainedJob payload).Throughout TrainedJob.Unbroken history)
    (reached : (trainedJob payload).reached history = some state) (settled : state.Settled) : state.Consistent :=
  (System.invariant (TrainedJob.Inv.initial payload) (fun _ _ _ inv unbroken stepped => inv.step unbroken stepped)
    unbroken reached).consistent settled

def suspendedRun : List TrainedEvent :=
  [.training .restarted, .training .shutdown, .training (.died 0), .training (.finalWritten 0),
    .training (.dispatcherEnded 0), .training (.trained 0 .suspended), .training .stopRequested,
    .training (.remoteJobPersisted 0 9), .training (.startWritten 0), .training (.startRead 0),
    .training (.prepared 0 5), .training (.loaded 0), .training (.claimed 0), .training (.started 0), .training .listed]

/-- The next worker joins the remote job again, with a model of its own, and completes it. -/
def reattachedRun : List TrainedEvent :=
  [.training (.died 1), .modelCreated 1, .training (.finalWritten 1), .training (.dispatcherEnded 1),
    .training (.trained 1 .completed), .training (.progressed 1), .training (.startWritten 1), .training (.startRead 1),
    .training (.prepared 1 0), .training (.loaded 1), .training (.claimed 1), .training (.started 1),
    .training .listed] ++ suspendedRun

theorem reattached_training_consistent :
    ∃ state, (trainedJob { trainingTarget := .remote, awsBatch := true }).reached reattachedRun = some state ∧
      state.models = [1] ∧ state.Consistent := by
  have unbroken : (trainedJob { trainingTarget := .remote, awsBatch := true }).Throughout TrainedJob.Unbroken
      reattachedRun := by
    decide +kernel
  refine ⟨_, rfl, rfl, finished_training_consistent unbroken rfl ?_⟩
  intro position
  rcases position with _ | _ | position <;> exact ⟨id, rfl⟩

/-- The model row of a completed job is not created, and the job stays completed without one. -/
theorem completed_without_model :
    ¬∀ (payload : TrainPayload) (history : List TrainedEvent) (state : TrainedJob),
      (trainedJob payload).reached history = some state → state.Settled → state.Consistent := by
  intro every
  have consistent := every {} [.training (.died 0), .training (.finalWritten 0), .training (.dispatcherEnded 0),
    .training (.trained 0 .completed), .training (.startWritten 0), .training (.startRead 0),
    .training (.prepared 0 5), .training (.loaded 0), .training (.claimed 0), .training (.started 0),
    .training .listed] _ rfl (by
      intro position
      rcases position with _ | position <;> exact ⟨id, rfl⟩)
  exact absurd (consistent.completed.mp rfl) (by decide)

end PhysicalAiStudio.Jobs
