import PhysicalAiStudio.Trainer.JobQueue

/-! The trainer runs at most as many jobs as it may, each alone on its device, and cancels what it is told to.

The table of active jobs and the running rows are the same jobs after every step. A step either
leaves both as they are, or starts one job, ends one, or is the restart that ends them all.
-/

set_option autoImplicit false

namespace PhysicalAiStudio.Trainer

open Concurrency

namespace QueueManager

variable {limit job i request : Nat} {manager next : QueueManager} {event : QueueEvent} {change : JobRow → JobRow}
  {status : Option TrainerJobStatus} {telemetry : List Nat}

@[grind =]
theorem update_store :
    (manager.update job change).store i = if i = job then (manager.store i).map change else manager.store i := by
  by_cases same : i = job
  · subst same
    simp [update]
  · simp [update, same]

@[simp, grind =]
theorem answer_store : (manager.answer request status).store i = manager.store i := rfl

attribute [local grind =] QueueManager.status QueueManager.device QueueManager.setStatus

structure Same (manager next : QueueManager) : Prop where
  active : next.active = manager.active
  created : next.created = manager.created
  status : ∀ i, next.status i = manager.status i
  device : ∀ i, next.device i = manager.device i
  cancelRequested : next.cancelRequested = manager.cancelRequested
  stopped : next.stopped = manager.stopped
  requests : next.requests = manager.requests

theorem Same.refl (manager : QueueManager) : Same manager manager :=
  ⟨rfl, rfl, fun _ => rfl, fun _ => rfl, rfl, rfl, rfl⟩

theorem Same.trans {middle last : QueueManager} (first : Same manager middle) (second : Same middle last) :
    Same manager last where
  active := second.active.trans first.active
  created := second.created.trans first.created
  status i := (second.status i).trans (first.status i)
  device i := (second.device i).trans (first.device i)
  cancelRequested := second.cancelRequested.trans first.cancelRequested
  stopped := second.stopped.trans first.stopped
  requests := second.requests.trans first.requests

theorem same_update (kept : ∀ row, (change row).status = row.status ∧ (change row).spec = row.spec) :
    Same manager (manager.update job change) := by
  refine ⟨rfl, rfl, fun i => ?_, fun i => ?_, rfl, rfl, rfl⟩
  · simp only [QueueManager.status, update_store]
    split <;> simp [Function.comp_def, kept]
  · simp only [QueueManager.device, update_store]
    split <;> simp [Option.bind_map, kept]

structure Runnable (manager : QueueManager) (job : Nat) (device : Option TrainingDevice) : Prop where
  queued : manager.status job = some .queued
  asks : manager.device job = device
  free : ¬manager.Reserved device

theorem scan_spec {found : QueueManager × Option (Nat × Option TrainingDevice)} (same : Same manager found.1)
    (runnable : ∀ job device, found.2 = some (job, device) → manager.Runnable job device)
    (queued : manager.status job = some .queued) :
    Same manager (scan telemetry found job).1 ∧
      ∀ next device, (scan telemetry found job).2 = some (next, device) → manager.Runnable next device := by
  constructor
  · refine same.trans (same_update fun row => ?_)
    split <;> exact ⟨rfl, rfl⟩
  · intro next device chosen
    simp only [scan] at chosen
    split at chosen
    next idle =>
      cases chosen
      refine ⟨queued, (same.device job).symm, fun reserved => ?_⟩
      have busy : found.1.Reserved (found.1.device job) := by
        rwa [Reserved, same.active]
      simp [busy] at idle
    next => exact runnable next device chosen

/-- The scan of the queue writes messages only, and finds a job that may be started. -/
theorem nextRunnable_spec (telemetry : List Nat) (manager : QueueManager) :
    Same manager (manager.nextRunnable telemetry).1 ∧
      ∀ job device, (manager.nextRunnable telemetry).2 = some (job, device) → manager.Runnable job device := by
  have queued : ∀ job ∈ manager.queued, manager.status job = some .queued := by
    intro job member
    have listed := (List.mem_insertionSort _).mp member
    simpa using (List.mem_filter.mp listed).2
  have scanned (jobs : List Nat) (queued : ∀ job ∈ jobs, manager.status job = some .queued)
      (found : QueueManager × Option (Nat × Option TrainingDevice)) (same : Same manager found.1)
      (runnable : ∀ job device, found.2 = some (job, device) → manager.Runnable job device) :
      Same manager (jobs.foldl (scan telemetry) found).1 ∧
        ∀ job device, (jobs.foldl (scan telemetry) found).2 = some (job, device) → manager.Runnable job device := by
    induction jobs generalizing found with
    | nil => exact ⟨same, runnable⟩
    | cons job jobs ih =>
      obtain ⟨same, runnable⟩ := scan_spec same runnable (queued job List.mem_cons_self)
      exact ih (fun job member => queued job (List.mem_cons_of_mem _ member)) _ same runnable
  exact scanned manager.queued queued (manager, none) (.refl manager) (by simp)

/-- The job has ended, or its row is deleted. -/
def Ended (manager : QueueManager) (i : Nat) : Prop :=
  i < manager.created ∧ ∀ ended, manager.status i = some ended → ended.Terminal

/-- What neither starts a job nor takes one off. -/
structure Frame (manager next : QueueManager) : Prop where
  active : next.active = manager.active
  created : manager.created ≤ next.created
  fresh : (∀ i, manager.created ≤ i → manager.status i = none) → ∀ i, next.created ≤ i → next.status i = none
  running : ∀ i, next.status i = some .running ↔ manager.status i = some .running
  device : ∀ i, manager.status i = some .running → next.device i = manager.device i
  concluded : ∀ i, manager.Ended i → next.status i = none ∨ next.status i = manager.status i
  flagged : ∀ i ∈ manager.cancelRequested, i ∈ next.cancelRequested
  requests : ∀ request job loaded, next.requests request = .delete job loaded →
    manager.requests request = .delete job loaded ∨ manager.status job = some loaded

theorem Same.frame (same : Same manager next) : Frame manager next where
  active := same.active
  created := same.created.ge
  fresh fresh i bound := by
    rw [same.status]
    exact fresh i (same.created ▸ bound)
  running i := by rw [same.status]
  device i _ := same.device i
  concluded i _ := .inr (same.status i)
  flagged i flagged := by rwa [same.cancelRequested]
  requests request job loaded deletes := .inl (same.requests ▸ deletes)

structure Inv (limit : Nat) (manager : QueueManager) : Prop where
  fresh : ∀ i, manager.created ≤ i → manager.status i = none
  limit : manager.active.length ≤ limit
  running : ∀ i, manager.status i = some .running ↔ i ∈ manager.active.map ActiveJob.job
  single : (manager.active.map ActiveJob.job).Nodup
  device : ∀ own ∈ manager.active, manager.device own.job = own.device
  exclusive : manager.active.Pairwise fun a b => a.device ≠ none ∧ b.device ≠ none ∧ a.device ≠ b.device
  deletes : ∀ request job loaded, manager.requests request = .delete job loaded → loaded.Terminal → manager.Ended job

theorem Inv.known (inv : manager.Inv limit) {found : TrainerJobStatus} (known : manager.status i = some found) :
    i < manager.created := by
  by_contra bound
  rw [inv.fresh i (Nat.le_of_not_lt bound)] at known
  cases known

theorem Frame.ended (frame : Frame manager next) (ended : manager.Ended i) : next.Ended i := by
  refine ⟨ended.1.trans_le frame.created, fun status found => ?_⟩
  rcases frame.concluded i ended with gone | kept
  · rw [gone] at found
    cases found
  · exact ended.2 status (kept ▸ found)

theorem Frame.inv (frame : Frame manager next) (inv : manager.Inv limit) : next.Inv limit where
  fresh := frame.fresh inv.fresh
  limit := frame.active ▸ inv.limit
  running i := by rw [frame.running, frame.active, inv.running]
  single := frame.active ▸ inv.single
  device own member := by
    rw [frame.active] at member
    have running := (inv.running own.job).mpr (List.mem_map_of_mem member)
    rw [frame.device own.job running, inv.device own member]
  exclusive := frame.active ▸ inv.exclusive
  deletes request job loaded deletes terminal := by
    refine frame.ended ?_
    rcases frame.requests request job loaded deletes with older | now
    · exact inv.deletes request job loaded older terminal
    · refine ⟨inv.known now, fun ended found => ?_⟩
      cases now.symm.trans found
      exact terminal

/-- A write that neither makes a job running nor takes a running or an ended one off. -/
theorem update_frame (spec : ∀ row, (change row).spec = row.spec)
    (running : ∀ row, manager.store job = some row → ((change row).status = .running ↔ row.status = .running))
    (concluded : ∀ row, manager.store job = some row → row.status.Terminal → (change row).status = row.status) :
    Frame manager (manager.update job change) := by
  refine ⟨rfl, le_rfl, fun fresh i bound => ?_, fun i => ?_, fun i _ => ?_, fun i ended => ?_, fun i flagged => flagged,
    fun request job loaded deletes => .inl deletes⟩
  · have none := fresh i bound
    simp only [QueueManager.status, Option.map_eq_none_iff, update_store] at none ⊢
    split <;> simp [none]
  · simp only [QueueManager.status, update_store]
    split
    next same =>
      subst same
      cases found : manager.store i with
      | none => simp
      | some row => simpa using running row found
    next => rfl
  · simp only [QueueManager.device, update_store]
    split <;> simp [Option.bind_map, spec]
  · have terminal := ended.2
    simp only [QueueManager.status, update_store] at terminal ⊢
    split
    next same =>
      subst same
      cases found : manager.store i with
      | none => simp
      | some row =>
        have := concluded row found (terminal row.status (by simp [found]))
        simp [this]
    next => exact .inr rfl

theorem Frame.trans_answer (frame : Frame manager next) : Frame manager (next.answer request status) := by
  refine ⟨frame.active, frame.created, frame.fresh, frame.running, frame.device, frame.concluded, frame.flagged, ?_⟩
  intro other job loaded deletes
  by_cases same : other = request
  · simp [answer, same] at deletes
  · exact frame.requests other job loaded (by simpa [answer, same] using deletes)

theorem requestCancel_frame (job : Nat) (manager : QueueManager) : Frame manager (manager.requestCancel job) := by
  have flag : Frame manager { manager with cancelRequested := job :: manager.cancelRequested } :=
    ⟨rfl, le_rfl, id, fun _ => .rfl, fun _ _ => rfl, fun _ _ => .inr rfl, fun _ flagged => List.mem_cons_of_mem _ flagged,
      fun _ _ _ deletes => .inl deletes⟩
  rw [requestCancel]
  split
  next waits =>
    have canceled : Frame manager (manager.update job (setStatus .canceled "Canceled before start")) := by
      refine update_frame (fun _ => rfl) (fun row found => ?_) (fun row found terminal => ?_)
      · rcases waits with queued | awaits <;> simp_all [QueueManager.status, setStatus]
      · rcases waits with queued | awaits <;> simp_all [QueueManager.status, TrainerJobStatus.Terminal]
    exact { canceled with flagged := flag.flagged }
  next => exact flag

theorem delete_frame (ended : manager.Ended job) :
    Frame manager { manager with store := Function.update manager.store job none } := by
  have notRunning : manager.status job ≠ some .running := fun running => by
    simpa [TrainerJobStatus.Terminal] using ended.2 _ running
  refine ⟨rfl, le_rfl, fun fresh i bound => ?_, fun i => ?_, fun i running => ?_, fun i _ => ?_, fun i flagged => flagged,
    fun request job loaded deletes => .inl deletes⟩
  · have none := fresh i bound
    simp only [QueueManager.status, Option.map_eq_none_iff, Function.update_apply] at none ⊢
    split <;> simp [none]
  · simp only [QueueManager.status, Function.update_apply] at notRunning ⊢
    split
    next same => simp [same, notRunning]
    next => rfl
  · have other : i ≠ job := fun same => notRunning (same ▸ running)
    simp [QueueManager.device, other]
  · simp only [QueueManager.status, Function.update_apply]
    split
    · exact .inl rfl
    · exact .inr rfl

theorem submit_frame (inv : manager.Inv limit) (spec : TrainingJobSpec) (createdAt : Nat) :
    Frame manager { manager with
      store := Function.update manager.store manager.created (some { spec := spec, createdAt := createdAt })
      created := manager.created + 1 } := by
  have none := inv.fresh manager.created le_rfl
  have older (i : Nat) (known : i ≠ manager.created) :
      Function.update manager.store manager.created (some { spec := spec, createdAt := createdAt }) i = manager.store i :=
    Function.update_of_ne known _ _
  refine ⟨rfl, Nat.le_succ _, fun fresh i bound => ?_, fun i => ?_, fun i running => ?_, fun i ended => ?_,
    fun i flagged => flagged, fun request job loaded deletes => .inl deletes⟩
  · have bound : manager.created + 1 ≤ i := bound
    have known : i ≠ manager.created := by omega
    simpa only [QueueManager.status, older i known] using fresh i (by omega)
  · by_cases same : i = manager.created
    · subst same
      simp [none]
      simp [QueueManager.status]
    · simp only [QueueManager.status, older i same]
  · have known := inv.known running
    simp only [QueueManager.device, older i known.ne]
  · simp only [QueueManager.status, older i ended.1.ne]
    exact .inr trivial

theorem Inv.frame (inv : manager.Inv limit) (stepped : manager.step limit event = some next)
    (dispatched : ∀ telemetry, event ≠ .dispatched telemetry) (started : ∀ job, event ≠ .started job)
    (ended : ∀ job outcome, event ≠ .ended job outcome) (restarted : event ≠ .restarted) : Frame manager next := by
  cases event with
  | submitted spec createdAt =>
    cases stepped
    exact submit_frame inv spec createdAt
  | datasetReady job =>
    cases stepped
    refine update_frame (fun row => ?_) (fun row _ => ?_) (fun row _ terminal => ?_)
    · split <;> rfl
    · split <;> simp_all [setStatus]
    · split <;> simp_all [TrainerJobStatus.Terminal]
  | dispatched telemetry => exact absurd rfl (dispatched telemetry)
  | refreshed telemetry =>
    simp only [step, Option.ite_none_right_eq_some, Option.some.injEq] at stepped
    obtain ⟨-, rfl⟩ := stepped
    exact (nextRunnable_spec telemetry manager).1.frame
  | started job => exact absurd rfl (started job)
  | reported job progress message =>
    simp only [step, Option.ite_none_right_eq_some, Option.some.injEq] at stepped
    obtain ⟨-, rfl⟩ := stepped
    exact Same.frame (same_update fun _ => ⟨rfl, rfl⟩)
  | ended job outcome => exact absurd rfl (ended job outcome)
  | cancelLoaded request job =>
    simp only [step, Option.ite_none_right_eq_some] at stepped
    obtain ⟨-, stepped⟩ := stepped
    split at stepped
    · cases stepped
      exact (Same.refl manager).frame.trans_answer
    · cases stepped
      refine { (Same.refl manager).frame with requests := fun other job loaded deletes => ?_ }
      by_cases same : other = request <;> simp_all
  | cancelHandled request =>
    simp only [step] at stepped
    split at stepped
    · cases stepped
      split
      · exact (Same.refl manager).frame.trans_answer
      · exact (requestCancel_frame _ manager).trans_answer
    · cases stepped
  | deleteLoaded request job =>
    simp only [step, Option.ite_none_right_eq_some] at stepped
    obtain ⟨-, stepped⟩ := stepped
    split at stepped
    · cases stepped
      exact (Same.refl manager).frame.trans_answer
    · next loaded found =>
      cases stepped
      refine { (Same.refl manager).frame with requests := fun other job loaded deletes => ?_ }
      by_cases same : other = request <;> simp_all
  | deleteHandled request =>
    simp only [step] at stepped
    split at stepped
    · next job loaded deletes =>
      split at stepped
      · next terminal =>
        cases stepped
        exact (delete_frame (inv.deletes request job loaded deletes terminal)).trans_answer
      · cases stepped
        exact (Same.refl manager).frame.trans_answer
    · cases stepped
  | stopRequested =>
    cases stepped
    exact { (Same.refl manager).frame with }
  | shutdown =>
    simp only [step, Option.ite_none_right_eq_some, Option.some.injEq] at stepped
    obtain ⟨-, rfl⟩ := stepped
    exact { (Same.refl manager).frame with flagged := fun i flagged => List.mem_append_right _ flagged }
  | restarted => exact absurd rfl restarted

theorem Same.runnable {device : Option TrainingDevice} (same : Same manager next)
    (runnable : manager.Runnable job device) : next.Runnable job device where
  queued := by rw [same.status, runnable.queued]
  asks := by rw [same.device, runnable.asks]
  free := by
    rw [Reserved, same.active]
    exact runnable.free

theorem start_status {device : Option TrainingDevice} (queued : manager.status job = some .queued) :
    (manager.start job device).status i = if i = job then some .running else manager.status i := by
  change (manager.update job _).status i = _
  simp only [QueueManager.status, update_store] at queued ⊢
  split
  next same =>
    obtain ⟨row, found, -⟩ := Option.map_eq_some_iff.mp queued
    simp [same, found, setStatus]
  next => rfl

theorem start_device {device : Option TrainingDevice} : (manager.start job device).device i = manager.device i := by
  change (manager.update job _).device i = _
  simp only [QueueManager.device, update_store]
  split <;> simp [Option.bind_map, setStatus]

theorem Ended.not_queued (ended : manager.Ended i) : manager.status i ≠ some .queued := by
  intro queued
  simpa [TrainerJobStatus.Terminal] using ended.2 _ queued

theorem Ended.not_running (ended : manager.Ended i) : manager.status i ≠ some .running := by
  intro running
  simpa [TrainerJobStatus.Terminal] using ended.2 _ running

theorem Ended.start {device : Option TrainingDevice} (ended : manager.Ended i)
    (queued : manager.status job = some .queued) : (manager.start job device).status i = manager.status i := by
  rw [start_status queued, if_neg]
  intro same
  exact ended.not_queued (same ▸ queued)

theorem Inv.start {device : Option TrainingDevice} (inv : manager.Inv limit) (room : manager.active.length < limit)
    (runnable : manager.Runnable job device) : (manager.start job device).Inv limit := by
  have queued := runnable.queued
  have idle : job ∉ manager.active.map ActiveJob.job := by
    rw [← inv.running, queued]
    simp
  have active : (manager.start job device).active = manager.active ++ [{ job := job, device := device }] := rfl
  refine ⟨fun i bound => ?_, ?_, fun i => ?_, ?_, fun own member => ?_, ?_, fun request other loaded deletes terminal => ?_⟩
  · have other : i ≠ job := (Nat.lt_of_lt_of_le (inv.known queued) bound).ne'
    rw [start_status queued, if_neg other]
    exact inv.fresh i bound
  · rw [active, List.length_append]
    exact room
  · rw [start_status queued, active, List.map_append, List.mem_append, ← inv.running]
    by_cases same : i = job <;> simp [same]
  · rw [active, List.map_append]
    exact inv.single.append (by simp) (by simpa using idle)
  · rw [start_device]
    rcases List.mem_append.mp (active ▸ member) with old | new
    · exact inv.device own old
    · obtain rfl := List.mem_singleton.mp new
      exact runnable.asks
  · rw [active, List.pairwise_append]
    refine ⟨inv.exclusive, by simp, fun other member own new => ?_⟩
    obtain rfl := List.mem_singleton.mp new
    -- The device is free, so the new job shares it with none.
    have free := runnable.free
    simp only [Reserved, not_or, not_and_or, not_exists, not_not] at free
    have apart := (free.2 other).resolve_left (not_not.mpr member)
    exact ⟨apart.1, free.1.resolve_right (List.ne_nil_of_mem member), apart.2⟩
  · have ended := inv.deletes request other loaded deletes terminal
    exact ⟨ended.1, fun found now => ended.2 found (ended.start queued ▸ now)⟩

theorem finish_flagged {outcome : RunOutcome} {row : JobRow} : (finish true outcome row).status = .canceled := by
  cases outcome <;> rfl

theorem finished_status {outcome : RunOutcome} :
    (manager.finished job outcome).status i = if i = job then
      (manager.store i).map fun row => (finish (decide (job ∈ manager.cancelRequested)) outcome row).status
    else manager.status i := by
  change (manager.update job _).status i = _
  simp only [QueueManager.status, update_store]
  split <;> simp [Function.comp_def]

theorem finished_device {outcome : RunOutcome} : (manager.finished job outcome).device i = manager.device i := by
  change (manager.update job _).device i = _
  have spec (flagged : Bool) (row : JobRow) : (finish flagged outcome row).spec = row.spec := by
    cases outcome <;> cases flagged <;> rfl
  simp only [QueueManager.device, update_store]
  split <;> simp [Option.bind_map, spec]

theorem Ended.finished {outcome : RunOutcome} (ended : manager.Ended i) (running : manager.status job = some .running) :
    (manager.finished job outcome).status i = manager.status i := by
  rw [finished_status, if_neg]
  intro same
  exact ended.not_running (same ▸ running)

theorem Inv.finished (inv : manager.Inv limit) (running : manager.status job = some .running) (outcome : RunOutcome) :
    (manager.finished job outcome).Inv limit := by
  have active : (manager.finished job outcome).active = manager.active.filter fun other => other.job ≠ job := rfl
  have kept : ((manager.finished job outcome).active).Sublist manager.active := active ▸ List.filter_sublist
  refine ⟨fun i bound => ?_, kept.length_le.trans inv.limit, fun i => ?_, inv.single.sublist (kept.map _),
    fun own member => ?_, inv.exclusive.sublist kept, fun request other loaded deletes terminal => ?_⟩
  · have other : i ≠ job := (Nat.lt_of_lt_of_le (inv.known running) bound).ne'
    rw [finished_status, if_neg other]
    exact inv.fresh i bound
  · rw [finished_status, active]
    by_cases same : i = job
    · subst same
      rw [if_pos rfl]
      refine iff_of_false (fun found => ?_) (by simp)
      obtain ⟨row, -, status⟩ := Option.map_eq_some_iff.mp found
      have terminal : (finish (decide (i ∈ manager.cancelRequested)) outcome row).status.Terminal := finish_terminal
      simp [status, TrainerJobStatus.Terminal] at terminal
    · rw [if_neg same, inv.running]
      simp only [List.mem_map, List.mem_filter, decide_eq_true_eq]
      constructor
      · rintro ⟨own, member, rfl⟩
        exact ⟨own, ⟨member, same⟩, rfl⟩
      · rintro ⟨own, ⟨member, -⟩, rfl⟩
        exact ⟨own, member, rfl⟩
  · rw [finished_device]
    exact inv.device own (kept.subset member)
  · have ended := inv.deletes request other loaded deletes terminal
    exact ⟨ended.1, fun found now => ended.2 found (ended.finished running ▸ now)⟩

theorem restart_status : manager.restart.status i = (manager.status i).map fun old =>
    if old = .running ∨ old = .awaitingDataset then .failed else old := by
  simp [QueueManager.status, restart, Function.comp_def, resetOrphan_status]

theorem Ended.restart (ended : manager.Ended i) : manager.restart.status i = manager.status i := by
  rw [restart_status]
  cases found : manager.status i with
  | none => rfl
  | some status =>
    have terminal := ended.2 status found
    rcases terminal with rfl | rfl | rfl <;> rfl

theorem Inv.restart (inv : manager.Inv limit) : manager.restart.Inv limit := by
  refine ⟨fun i bound => ?_, Nat.zero_le _, fun i => ?_, .nil, by simp [QueueManager.restart], .nil,
    fun request other loaded deletes terminal => ?_⟩
  · rw [restart_status, inv.fresh i bound]
    rfl
  · refine iff_of_false (fun found => ?_) (by simp [QueueManager.restart])
    rw [restart_status] at found
    obtain ⟨old, -, now⟩ := Option.map_eq_some_iff.mp found
    split at now
    · cases now
    · simp_all
  · simp only [QueueManager.restart] at deletes
    split at deletes <;> cases deletes

/-- What a step can do: nothing to the running jobs, a start, the first turn of a task, an end, or a restart. -/
theorem Inv.step_cases (inv : manager.Inv limit) (stepped : manager.step limit event = some next) :
    Frame manager next ∨
    (∃ scanned job device, Same manager scanned ∧ manager.active.length < limit ∧ scanned.Runnable job device ∧
      next = scanned.start job device) ∨
    (∃ job, next = { manager with active := manager.active.map fun other =>
      if other.job = job then { other with phase := .training } else other }) ∨
    (∃ job outcome, manager.status job = some .running ∧ next = manager.finished job outcome) ∨
    (event = .restarted ∧ next = manager.restart) := by
  -- Four events change what is active; all others only frame it.
  by_cases dispatched : ∃ telemetry, event = .dispatched telemetry
  · obtain ⟨telemetry, rfl⟩ := dispatched
    obtain ⟨same, runnable⟩ := nextRunnable_spec telemetry manager
    simp only [step, Option.ite_none_right_eq_some] at stepped
    obtain ⟨⟨-, room⟩, stepped⟩ := stepped
    split at stepped
    · next scanned chosen =>
      cases stepped
      rw [chosen] at same
      exact .inl same.frame
    · next scanned job device chosen =>
      rw [chosen] at same runnable
      split at stepped <;> cases stepped
      · exact .inr (.inl ⟨scanned, job, device, same, room, same.runnable (runnable job device rfl), rfl⟩)
      · exact .inl same.frame
  by_cases started : ∃ job, event = .started job
  · obtain ⟨job, rfl⟩ := started
    simp only [step] at stepped
    split at stepped
    · next own found =>
      have member := List.mem_of_find?_eq_some found
      have created := List.find?_some found
      simp only [Bool.decide_and, Bool.and_eq_true, decide_eq_true_eq] at created
      have running := (inv.running job).mpr (created.1 ▸ List.mem_map_of_mem member)
      obtain ⟨row, stored, -⟩ := Option.map_eq_some_iff.mp running
      rw [stored] at stepped
      cases stepped
      exact .inr (.inr (.inl ⟨job, rfl⟩))
    · cases stepped
  by_cases ended : ∃ job outcome, event = .ended job outcome
  · obtain ⟨job, outcome, rfl⟩ := ended
    simp only [step, Option.ite_none_right_eq_some, Option.some.injEq] at stepped
    obtain ⟨⟨⟨own, member, rfl, -⟩, -⟩, rfl⟩ := stepped
    have running := (inv.running own.job).mpr (List.mem_map_of_mem member)
    exact .inr (.inr (.inr (.inl ⟨own.job, outcome, running, rfl⟩)))
  by_cases restarted : event = .restarted
  · subst restarted
    cases stepped
    exact .inr (.inr (.inr (.inr ⟨rfl, rfl⟩)))
  · exact .inl (inv.frame stepped (fun telemetry same => dispatched ⟨telemetry, same⟩)
      (fun job same => started ⟨job, same⟩) (fun job outcome same => ended ⟨job, outcome, same⟩) restarted)

theorem Inv.turn (inv : manager.Inv limit) (job : Nat) :
    Inv limit { manager with active := manager.active.map fun other =>
      if other.job = job then { other with phase := .training } else other } := by
  have jobs : (manager.active.map fun other => if other.job = job then { other with phase := .training } else other).map
      ActiveJob.job = manager.active.map ActiveJob.job := by
    rw [List.map_map]
    refine List.map_congr_left fun other _ => ?_
    simp only [Function.comp_apply]
    split <;> rfl
  refine ⟨inv.fresh, by simpa using inv.limit, fun i => ?_, by rw [jobs]; exact inv.single, fun own member => ?_, ?_,
    inv.deletes⟩
  · rw [jobs]
    exact inv.running i
  · obtain ⟨other, listed, rfl⟩ := List.mem_map.mp member
    have device := inv.device other listed
    split <;> exact device
  · refine List.pairwise_map.mpr (inv.exclusive.imp fun {a b} apart => ?_)
    split <;> split <;> exact apart

theorem Inv.step (inv : manager.Inv limit) (stepped : manager.step limit event = some next) : next.Inv limit := by
  rcases inv.step_cases stepped with frame | ⟨scanned, job, device, same, room, runnable, rfl⟩ | ⟨job, rfl⟩ |
    ⟨job, outcome, running, rfl⟩ | ⟨-, rfl⟩
  · exact frame.inv inv
  · exact (same.frame.inv inv).start (by rwa [same.active]) runnable
  · exact inv.turn job
  · exact inv.finished running outcome
  · exact inv.restart

theorem Inv.initial (limit : Nat) : (jobQueue limit).initial.Inv limit := by
  refine ⟨fun _ _ => rfl, Nat.zero_le _, fun i => ?_, .nil, fun own member => ?_, .nil, fun _ _ _ deletes => ?_⟩
  · simp [jobQueue, QueueManager.status]
  · cases member
  · cases deletes

theorem Inv.concluded (inv : manager.Inv limit) (stepped : manager.step limit event = some next) (ended : manager.Ended i) :
    next.status i = none ∨ next.status i = manager.status i := by
  rcases inv.step_cases stepped with frame | ⟨scanned, job, device, same, -, runnable, rfl⟩ | ⟨job, rfl⟩ |
    ⟨job, outcome, running, rfl⟩ | ⟨-, rfl⟩
  · exact frame.concluded i ended
  · have scannedEnded := same.frame.ended ended
    rw [scannedEnded.start runnable.queued, same.status]
    exact .inr rfl
  · exact .inr rfl
  · exact .inr (ended.finished running)
  · exact .inr ended.restart

theorem Inv.created_le (inv : manager.Inv limit) (stepped : manager.step limit event = some next) :
    manager.created ≤ next.created := by
  rcases inv.step_cases stepped with frame | ⟨scanned, job, device, same, -, -, rfl⟩ | ⟨job, rfl⟩ |
    ⟨job, outcome, -, rfl⟩ | ⟨-, rfl⟩
  · exact frame.created
  · exact same.created.ge
  all_goals exact le_rfl

def Canceled (manager : QueueManager) (i : Nat) : Prop :=
  i < manager.created ∧ (manager.status i = none ∨ manager.status i = some .canceled)

theorem Canceled.ended (canceled : manager.Canceled i) : manager.Ended i := by
  refine ⟨canceled.1, fun status found => ?_⟩
  rcases canceled.2 with gone | kept
  · rw [gone] at found
    cases found
  · cases kept.symm.trans found
    exact .inr (.inr rfl)

theorem Inv.canceled (inv : manager.Inv limit) (stepped : manager.step limit event = some next)
    (canceled : manager.Canceled i) : next.Canceled i := by
  refine ⟨canceled.1.trans_le (inv.created_le stepped), ?_⟩
  rcases inv.concluded stepped canceled.ended with gone | kept
  · exact .inl gone
  · exact canceled.2.imp kept.trans kept.trans

def Flagged (manager : QueueManager) (i : Nat) : Prop :=
  manager.status i = some .running ∧ i ∈ manager.cancelRequested

/-- It runs on with the flag up, and its end writes `CANCELED`, however the runner ended. -/
theorem Inv.flagged (inv : manager.Inv limit) (stepped : manager.step limit event = some next)
    (going : event ≠ .restarted) (flagged : manager.Flagged i) : next.Flagged i ∨ next.status i = some .canceled := by
  have running := flagged.1
  rcases inv.step_cases stepped with frame | ⟨scanned, job, device, same, -, runnable, rfl⟩ | ⟨job, rfl⟩ |
    ⟨job, outcome, -, rfl⟩ | ⟨restarted, -⟩
  · exact .inl ⟨(frame.running i).mpr running, frame.flagged i flagged.2⟩
  · refine .inl ⟨?_, same.cancelRequested ▸ flagged.2⟩
    rw [start_status runnable.queued, same.status, running]
    split <;> rfl
  · exact .inl flagged
  · by_cases same : i = job
    · subst same
      obtain ⟨row, stored, -⟩ := Option.map_eq_some_iff.mp running
      right
      rw [finished_status, if_pos rfl, stored, decide_eq_true flagged.2, Option.map_some, finish_flagged]
    · refine .inl ⟨?_, List.mem_filter.mpr ⟨flagged.2, by simpa using same⟩⟩
      rw [finished_status, if_neg same, running]
  · exact absurd restarted going

/-- What holds of the rows and of the table of active jobs at any time. -/
structure Consistent (limit : Nat) (manager : QueueManager) : Prop where
  limit : manager.active.length ≤ limit
  apart : manager.active.Pairwise fun a b => a.job ≠ b.job ∧ a.device ≠ none ∧ b.device ≠ none ∧ a.device ≠ b.device
  running : ∀ job, manager.status job = some .running ↔ ∃ own ∈ manager.active, own.job = job
  device : ∀ own ∈ manager.active, own.device = manager.device own.job

theorem Inv.consistent (inv : manager.Inv limit) : manager.Consistent limit where
  limit := inv.limit
  apart := by
    have single := List.pairwise_map.mp inv.single
    exact (single.and inv.exclusive).imp fun both => both
  running job := by
    rw [inv.running, List.mem_map]
  device own member := (inv.device own member).symm

def Accepts (manager : QueueManager) (request job : Nat) : Prop :=
  ∃ loaded, manager.requests request = .cancel job loaded ∧ ¬loaded.Terminal

theorem Accepts.handled (accepts : manager.Accepts request job)
    (stepped : manager.step limit (.cancelHandled request) = some next) :
    next = (manager.requestCancel job).answer request ((manager.requestCancel job).status job) := by
  obtain ⟨loaded, waits, live⟩ := accepts
  simp only [step, waits, if_neg live, Option.some.injEq] at stepped
  exact stepped.symm

theorem Accepts.canceled (inv : manager.Inv limit) (accepts : manager.Accepts request job)
    (waits : manager.status job = some .queued ∨ manager.status job = some .awaitingDataset)
    (stepped : manager.step limit (.cancelHandled request) = some next) : next.Canceled job := by
  have known : job < manager.created := waits.elim inv.known inv.known
  rw [accepts.handled stepped, requestCancel, if_pos waits]
  refine ⟨known, .inr ?_⟩
  rcases waits with queued | awaits
  all_goals
    obtain ⟨row, stored, -⟩ := Option.map_eq_some_iff.mp ‹_›
    simp [QueueManager.status, update_store, stored, setStatus]

theorem Accepts.flagged (accepts : manager.Accepts request job) (running : manager.status job = some .running)
    (stepped : manager.step limit (.cancelHandled request) = some next) : next.Flagged job := by
  have started : ¬(manager.status job = some .queued ∨ manager.status job = some .awaitingDataset) := by
    simp [running]
  rw [accepts.handled stepped, requestCancel, if_neg started]
  exact ⟨running, List.mem_cons_self⟩

end QueueManager

open QueueManager

variable {limit : Nat} {history older later : List QueueEvent} {state before : QueueManager} {request job : Nat}

theorem inv_reached (reached : (jobQueue limit).reached history = some state) : state.Inv limit :=
  System.invariant_always (Inv.initial limit) (fun _ _ _ inv stepped => Inv.step inv stepped) reached

end PhysicalAiStudio.Trainer
