import PhysicalAiStudio.Jobs.TrainingSteps

/-! At most one process works on a training job, and the row is running while it does.

The scheduler thread reconciles a row only when no process of the job is alive, and the row
of a job that waits is changed by its claim or its cancellation alone.
-/

set_option autoImplicit false

namespace PhysicalAiStudio.Jobs

open Concurrency

namespace WorkerPhase

def Alive : WorkerPhase → Prop
  | .absent | .dead => False
  | .spawned | .claimed | .loaded _ | .prepared | .starting _ | .training | .persisting _ | .persistingRead _ _
  | .finishing _ | .concluded => True

/-- The worker has claimed the job and not yet written how it ended. -/
def Working : WorkerPhase → Prop
  | .absent | .spawned | .concluded | .dead => False
  | .claimed | .loaded _ | .prepared | .starting _ | .training | .persisting _ | .persistingRead _ _
  | .finishing _ => True

theorem Working.alive {phase : WorkerPhase} (working : phase.Working) : phase.Alive := by
  cases phase <;> trivial

def CopiesRunning : WorkerPhase → Prop
  | .persisting copied | .persistingRead copied _ => copied = .running
  | _ => True

theorem copiesRunning_of_not_working {phase : WorkerPhase} (idle : ¬phase.Working) : phase.CopiesRunning := by
  cases phase <;> first | trivial | exact absurd trivial idle

end WorkerPhase

namespace TrainingJob

variable {job next : TrainingJob} {event : TrainingEvent}

structure Inv (job : TrainingJob) : Prop where
  process : ∀ i, (job.workers i).phase.Alive → job.process = some i
  dispatching : ∀ i, (job.workers i).dispatching = true → (job.workers i).phase.Working ∨ (job.workers i).phase = .concluded
  working : ∀ i, (job.workers i).phase.Working → job.row.status = .running
  copies : ∀ i, (job.workers i).phase.CopiesRunning
  reaping : ∀ reattaching fails, job.scheduler = .reaping reattaching fails →
    ∃ i, job.process = some i ∧ (job.workers i).phase = .dead
  recovering : ∀ requeue, job.scheduler = .recovering requeue → job.process = none ∧ job.row.status = .running

theorem Inv.initial (payload : TrainPayload) : (trainingJob payload).initial.Inv := by
  constructor <;> simp [trainingJob, WorkerPhase.Alive, WorkerPhase.Working, WorkerPhase.CopiesRunning]

def Resting (job : TrainingJob) (i : Nat) : Prop :=
  ¬(job.workers i).phase.Alive ∧ (job.workers i).dispatching = false

theorem Inv.resting (inv : job.Inv) {i : Nat} (idle : ¬(job.workers i).phase.Alive) : job.Resting i := by
  refine ⟨idle, Bool.eq_false_iff.mpr fun dispatching => idle ?_⟩
  rcases inv.dispatching i dispatching with working | concluded
  · exact working.alive
  · rw [concluded]
    trivial

theorem Inv.apart (inv : job.Inv) {i : Nat} (apart : job.process ≠ some i) : job.Resting i :=
  inv.resting fun alive => apart (inv.process i alive)

theorem Inv.free (inv : job.Inv) (free : job.process = none) (i : Nat) : job.Resting i :=
  inv.apart (by rw [free]; exact (Option.some_ne_none i).symm)

theorem Inv.reaped (inv : job.Inv) {reattaching fails : Bool} (reaping : job.scheduler = .reaping reattaching fails)
    (i : Nat) : job.Resting i := by
  obtain ⟨position, process, dead⟩ := inv.reaping reattaching fails reaping
  refine inv.resting fun alive => ?_
  cases process.symm.trans (inv.process i alive)
  rw [dead] at alive
  exact alive

/-! ### The invariant from what a step leaves -/

theorem Inv.of_sole (position : Nat) (others : ∀ i, i ≠ position → next.Resting i)
    (process : (next.workers position).phase.Alive → next.process = some position)
    (dispatching : (next.workers position).dispatching = true →
      (next.workers position).phase.Working ∨ (next.workers position).phase = .concluded)
    (working : (next.workers position).phase.Working → next.row.status = .running)
    (copies : (next.workers position).phase.CopiesRunning)
    (reaping : ∀ reattaching fails, next.scheduler = .reaping reattaching fails →
      ∃ i, next.process = some i ∧ (next.workers i).phase = .dead)
    (recovering : ∀ requeue, next.scheduler = .recovering requeue →
      next.process = none ∧ next.row.status = .running) : next.Inv := by
  refine ⟨fun i alive => ?_, fun i dispatches => ?_, fun i works => ?_, fun i => ?_, reaping, recovering⟩
  all_goals by_cases same : i = position
  · exact same ▸ process (same ▸ alive)
  · exact absurd alive (others i same).1
  · exact same ▸ dispatching (same ▸ dispatches)
  · exact absurd dispatches (Bool.eq_false_iff.mp (others i same).2)
  · exact working (same ▸ works)
  · exact absurd works.alive (others i same).1
  · exact same ▸ copies
  · exact WorkerPhase.copiesRunning_of_not_working fun works => (others i same).1 works.alive

theorem Inv.of_resting (resting : ∀ i, next.Resting i)
    (reaping : ∀ reattaching fails, next.scheduler = .reaping reattaching fails →
      ∃ i, next.process = some i ∧ (next.workers i).phase = .dead)
    (recovering : ∀ requeue, next.scheduler = .recovering requeue →
      next.process = none ∧ next.row.status = .running) : next.Inv := by
  refine .of_sole 0 (fun i _ => resting i) ?_ ?_ ?_ ?_ reaping recovering
  · exact fun alive => absurd alive (resting 0).1
  · exact fun dispatches => absurd dispatches (Bool.eq_false_iff.mp (resting 0).2)
  · exact fun works => absurd works.alive (resting 0).1
  · exact WorkerPhase.copiesRunning_of_not_working fun works => (resting 0).1 works.alive

theorem Inv.frame (inv : job.Inv) (workers : next.workers = job.workers) (status : next.row.status = job.row.status)
    (process : next.process = job.process)
    (reaping : ∀ reattaching fails, next.scheduler = .reaping reattaching fails →
      ∃ i, job.process = some i ∧ (job.workers i).phase = .dead)
    (recovering : ∀ requeue, next.scheduler = .recovering requeue →
      job.process = none ∧ job.row.status = .running) : next.Inv := by
  constructor <;> simp only [workers, status, process]
  · exact inv.process
  · exact inv.dispatching
  · exact inv.working
  · exact inv.copies
  · exact reaping
  · exact recovering

theorem Inv.moves (inv : job.Inv) {position : Nat} {before : WorkerPhase} (phase : (job.workers position).phase = before)
    (alive : before.Alive) {worker : Worker} {row : Row TrainPayload}
    (dispatching : worker.dispatching = true → worker.phase.Working ∨ worker.phase = .concluded)
    (working : worker.phase.Working → row.status = .running) (copies : worker.phase.CopiesRunning) :
    ({ job with row := row }.setWorker position worker).Inv := by
  have there : job.process = some position := inv.process position (phase ▸ alive)
  refine .of_sole position (fun i other => ?_) (fun _ => there) ?_ ?_ ?_ (fun reattaching fails reaping => ?_)
    (fun requeue recovering => ?_)
  · have resting : job.Resting i := inv.apart fun same => other (Option.some.inj (same.symm.trans there))
    unfold Resting
    rw [setWorker_workers, if_neg other]
    exact resting
  · rw [setWorker_workers, if_pos rfl]
    exact dispatching
  · rw [setWorker_workers, if_pos rfl]
    exact working
  · rw [setWorker_workers, if_pos rfl]
    exact copies
  · exact absurd (phase ▸ alive) (inv.reaped reaping position).1
  · exact absurd (inv.recovering requeue recovering).1 (by rw [there]; exact Option.some_ne_none _)

theorem Inv.works (inv : job.Inv) {position : Nat} {before : WorkerPhase} (phase : (job.workers position).phase = before)
    (alive : before.Alive) {worker : Worker} {row : Row TrainPayload} (works : worker.phase.Working)
    (running : row.status = .running) (copies : worker.phase.CopiesRunning) :
    ({ job with row := row }.setWorker position worker).Inv :=
  inv.moves phase alive (fun _ => .inl works) (fun _ => running) copies

theorem Inv.proceeds (inv : job.Inv) {position : Nat} {before : WorkerPhase}
    (phase : (job.workers position).phase = before) (working : before.Working) {worker : Worker} {row : Row TrainPayload}
    (same : row.status = job.row.status) (works : worker.phase.Working) (copies : worker.phase.CopiesRunning) :
    ({ job with row := row }.setWorker position worker).Inv :=
  inv.works phase working.alive works (same.trans (inv.working position (phase ▸ working))) copies

theorem Inv.concludes (inv : job.Inv) {position : Nat} {before : WorkerPhase}
    (phase : (job.workers position).phase = before) (alive : before.Alive) {worker : Worker} {row : Row TrainPayload}
    (concluded : worker.phase = .concluded) : ({ job with row := row }.setWorker position worker).Inv :=
  inv.moves phase alive (fun _ => .inr concluded) (fun works => by rw [concluded] at works; exact works.elim)
    (by rw [concluded]; trivial)

theorem Inv.dies (inv : job.Inv) (position : Nat) :
    (job.setWorker position { job.workers position with phase := .dead, dispatching := false }).Inv := by
  have left (i : Nat) : (job.setWorker position { job.workers position with phase := .dead, dispatching := false }).workers i =
      if i = position then { job.workers position with phase := .dead, dispatching := false } else job.workers i :=
    setWorker_workers
  refine ⟨fun i alive => ?_, fun i dispatches => ?_, fun i works => ?_, fun i => ?_, fun reattaching fails reaping => ?_,
    inv.recovering⟩
  all_goals try rw [left] at *
  · split at alive
    · exact alive.elim
    · exact inv.process i alive
  · split at dispatches
    · cases dispatches
    · next other => exact if_neg other ▸ inv.dispatching i dispatches
  · split at works
    · exact works.elim
    · exact inv.working i works
  · split
    · trivial
    · exact inv.copies i
  · obtain ⟨i, process, dead⟩ := inv.reaping reattaching fails reaping
    refine ⟨i, process, ?_⟩
    rw [left]
    split
    · rfl
    · exact dead

theorem merge_running {read row : Row TrainPayload} {payload : TrainPayload} (running : row.status = .running) :
    (Row.merge read ⟨.running, payload⟩ row).status = .running := by
  rw [Row.merge_status]
  split
  · exact running
  · rfl

/-- The first write of a worker leaves the job running. -/
theorem Inv.startWritten_running (inv : job.Inv) {position : Nat} {read : Row TrainPayload} (payload : TrainPayload)
    (starting : (job.workers position).phase = .starting read) :
    (Row.merge read ⟨.running, payload⟩ job.row).status = .running :=
  merge_running (inv.working position (starting ▸ trivial))

theorem Inv.persistWritten_running (inv : job.Inv) {position : Nat} {copied : JobStatus} {read : Row TrainPayload}
    (payload : TrainPayload) (persisting : (job.workers position).phase = .persistingRead copied read) :
    (Row.merge read ⟨copied, payload⟩ job.row).status = .running := by
  have copies := inv.copies position
  rw [persisting] at copies
  cases copies
  exact merge_running (inv.working position (persisting ▸ trivial))

/-! ### The steps -/

theorem Inv.scheduler (inv : job.Inv) (stepped : job.SchedulerStep event next) : next.Inv := by
  cases stepped with
  | listed | listEnded | sweepLoaded | swept =>
    exact inv.frame rfl rfl rfl (fun _ _ same => by cases same) (fun _ same => by cases same)
  -- The process is new, and all other workers rest, as the table had none for the job.
  | started position same _ free | startFailed position same _ free =>
    obtain ⟨-, workers, -⟩ := setdefaultEvent_frame same
    refine .of_sole position (fun i other => ?_) (fun _ => rfl) ?_ ?_ ?_ (fun _ _ same => by cases same)
      (fun _ same => by cases same)
    · unfold Resting
      rw [setWorker_workers, if_neg other]
      exact workers i ▸ inv.free free i
    all_goals rw [setWorker_workers, if_pos rfl]
    · exact fun dispatches => by cases dispatches
    · exact False.elim
    · trivial
  | reapLoaded process _ dead =>
    exact inv.frame rfl rfl rfl (fun _ _ _ => ⟨_, process, dead⟩) (fun _ same => by cases same)
  | reapFailed reaping =>
    exact .of_resting (inv.reaped reaping) (fun _ _ _ => inv.reaping _ _ reaping) (fun _ same => by cases same)
  | reaped reaping =>
    exact .of_resting (inv.reaped reaping) (fun _ _ same => by cases same) (fun _ same => by cases same)
  | recoverLoaded _ free running =>
    exact inv.frame rfl rfl rfl (fun _ _ same => by cases same) (fun _ _ => ⟨free, running⟩)
  | recoverWritten recovering =>
    have free := (inv.recovering _ recovering).1
    exact .of_resting (inv.free free) (fun _ _ same => by cases same) (fun _ same => by cases same)
  | stopRequested | restarted => exact inv.frame rfl rfl rfl inv.reaping inv.recovering
  | shutdown idle =>
    refine .of_resting (fun i => ?_) (fun _ _ same => ?_) (fun _ same => ?_)
    · unfold Resting
      dsimp only
      split
      · next absent => exact inv.resting (by rw [absent]; exact id)
      · exact ⟨id, rfl⟩
    · cases idle.symm.trans same
    · cases idle.symm.trans same

theorem Inv.worker (inv : job.Inv) (stepped : job.WorkerStep event next) : next.Inv := by
  cases stepped with
  | stoppedEarly position spawned => exact inv.concludes spawned trivial rfl
  | claimed position spawned => exact inv.works spawned trivial trivial rfl trivial
  | claimLost position spawned => exact inv.concludes spawned trivial rfl
  | loaded position claimed => exact inv.proceeds claimed trivial rfl trivial trivial
  | joined position snapshot loaded | prepared position snapshot loaded =>
    exact inv.proceeds loaded trivial rfl trivial trivial
  | startRead position prepared => exact inv.proceeds prepared trivial rfl trivial trivial
  | startWritten position starting =>
    exact inv.works starting trivial trivial (inv.startWritten_running _ starting) trivial
  | progressed position dispatching =>
    -- A worker at rest has no dispatcher, so this one is alive and nothing is being recovered.
    have alive : (job.workers position).phase.Alive := by
      by_contra dead
      exact absurd dispatching (Bool.eq_false_iff.mp (inv.resting dead).2)
    refine { inv with working := fun _ _ => rfl, recovering := fun requeue recovering => ?_ }
    cases (inv.recovering requeue recovering).1.symm.trans (inv.process position alive)
  | authenticationReported position issue training | remoteJobPersisted position remoteJob training =>
    refine inv.proceeds training trivial rfl ?_ ?_ <;> (dsimp only; rw [training]; trivial)
  | persistCopied position remoteJob training =>
    exact inv.proceeds training trivial rfl trivial (inv.working position (training ▸ trivial))
  | persistRead position persisting =>
    have copied := inv.copies position
    rw [persisting] at copied
    exact inv.proceeds persisting trivial rfl trivial copied
  | persistWritten position persisting =>
    exact inv.works persisting trivial trivial (inv.persistWritten_running _ persisting) trivial
  | trained position outcome training => exact inv.proceeds training trivial rfl trivial trivial
  | finalWritten position finishing => exact inv.concludes finishing trivial rfl
  | dispatcherEnded position ends =>
    rcases ends with ⟨outcome, finishing⟩ | concluded
    · refine inv.proceeds finishing trivial rfl ?_ ?_ <;> (dsimp only; rw [finishing]; trivial)
    · exact inv.concludes concluded trivial concluded
  | died position => exact inv.dies position

theorem Inv.waiting (inv : job.Inv) (pending : job.row.status = .pending) :
    (∀ i, ¬(job.workers i).phase.Working) ∧ ∀ requeue, job.scheduler ≠ .recovering requeue := by
  refine ⟨fun i working => ?_, fun requeue recovering => ?_⟩
  · have running := inv.working i working
    rw [pending] at running
    cases running
  · have running := (inv.recovering requeue recovering).2
    rw [pending] at running
    cases running

theorem Inv.request (inv : job.Inv) (stepped : job.RequestStep event next) : next.Inv := by
  cases stepped with
  | canceled request transitioning pending =>
    have waiting := inv.waiting pending.1
    exact { inv with
      working := fun i works => absurd works (waiting.1 i)
      recovering := fun requeue recovering => absurd recovering (waiting.2 requeue) }
  | eventFetched request same =>
    obtain ⟨row, workers, -, process, scheduler, -⟩ := setdefaultEvent_frame same
    exact inv.frame (funext workers) (congrArg Row.status row) process (scheduler ▸ inv.reaping)
      (scheduler ▸ inv.recovering)
  | _ => exact inv.frame rfl rfl rfl inv.reaping inv.recovering

theorem Inv.step (inv : job.Inv) (stepped : job.step event = some next) : next.Inv := by
  rcases step_cases stepped with scheduler | worker | request
  · exact inv.scheduler scheduler
  · exact inv.worker worker
  · exact inv.request request

theorem inv_reached {payload : TrainPayload} {history : List TrainingEvent}
    (reached : (trainingJob payload).reached history = some job) : job.Inv :=
  System.invariant_always (Inv.initial payload) (fun _ _ _ inv stepped => inv.step stepped) reached

end TrainingJob

end PhysicalAiStudio.Jobs
