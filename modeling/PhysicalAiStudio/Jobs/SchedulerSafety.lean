import Mathlib.Data.List.Pairwise
import PhysicalAiStudio.Jobs.SchedulerSteps

/-! The scheduler's process table and the rows agree.

The reservations in the table never conflict, so a job has one process at most, and a job is
left running without a process only until the next reconciliation is complete.
-/

set_option autoImplicit false

namespace PhysicalAiStudio.Jobs

open Concurrency

def Resume.rest : Resume → List Reserved
  | .next rest => rest
  | .reap | .halt => []

def Loop.todo : Loop → List Reserved
  | .reaping todo => todo
  | .reconciling reserved _ rest => reserved :: rest
  | .recover resume | .recovering _ resume | .recoveringImports _ resume => resume.rest
  | .polling | .listing | .scheduling _ | .importing | .importSelected _ | .importClaimed _ | .halted => []

def Loop.current : Loop → Option Reserved
  | .reconciling reserved _ _ => some reserved
  | .polling | .recover _ | .recovering _ _ | .recoveringImports _ _ | .reaping _ | .listing | .scheduling _
  | .importing | .importSelected _ | .importClaimed _ | .halted => none

theorem Loop.calm {loop : Loop} {P : Reserved → Prop} (none : loop.current = none) :
    ∀ reserved ∈ loop.current, P reserved := by
  simp [none]

namespace Scheduler

variable {scheduler next : Scheduler} {event : SchedulerEvent} {id i position : Nat}

def Orphaned (scheduler : Scheduler) (id : Nat) : Prop :=
  (scheduler.jobs id).present = true ∧ (scheduler.jobs id).status = .running ∧ id ∉ scheduler.activeIds

structure Table (scheduler : Scheduler) : Prop where
  present : ∀ id, (scheduler.jobs id).present = true → id < scheduler.jobCount
  keys : ∀ reserved ∈ scheduler.processes, reserved.target = reserved.kind.target ∧
    reserved.kind = (scheduler.jobs reserved.job).kind ∧ reserved.job < scheduler.jobCount
  known : ∀ reserved ∈ scheduler.processes, (scheduler.workers reserved.process).phase ≠ .absent ∧
    (scheduler.workers reserved.process).job = reserved.job
  apart : scheduler.processes.Pairwise fun a b => ¬Clash a.kind.target b.kind.target
  alive : ∀ position, (scheduler.workers position).Alive → ∃ reserved ∈ scheduler.processes, reserved.process = position

/-- Where the thread is, the jobs that run without a process are known. -/
def AtLoop (scheduler : Scheduler) : Prop :=
  match scheduler.loop with
  | .polling => scheduler.recovered = true → scheduler.stopping = false → ∀ id, ¬scheduler.Orphaned id
  | .recovering todo _ => (∀ item ∈ todo, item.2 ≠ .running) ∧
    ∀ id, scheduler.Orphaned id → (scheduler.jobs id).Training → id ∈ todo.map Prod.fst
  | .recoveringImports todo _ => ∀ id, scheduler.Orphaned id → id ∈ todo
  | .reaping _ | .reconciling _ _ _ | .listing | .importing => ∀ id, ¬scheduler.Orphaned id
  | .scheduling todo => (∀ id, ¬scheduler.Orphaned id) ∧ ∀ id ∈ todo, id < scheduler.jobCount
  | .importSelected id => (∀ other, ¬scheduler.Orphaned other) ∧ id < scheduler.jobCount ∧
    (scheduler.jobs id).kind = .datasetImport ∧ "dataset_import" ∉ scheduler.targets
  -- Between the claim and the start of its process the claimed import alone runs without one.
  | .importClaimed id => (∀ other, scheduler.Orphaned other → other = id) ∧ id < scheduler.jobCount ∧
    (scheduler.jobs id).kind = .datasetImport ∧ "dataset_import" ∉ scheduler.targets
  | .recover _ | .halted => True

structure Inv (scheduler : Scheduler) : Prop extends Table scheduler where
  snapshot : scheduler.loop.todo.Sublist scheduler.processes
  reconciling : ∀ reserved ∈ scheduler.loop.current, ¬(scheduler.workers reserved.process).Alive
  atLoop : scheduler.AtLoop

@[grind =]
theorem updateJob_jobs {change : ScheduledJob → ScheduledJob} :
    (scheduler.updateJob id change).jobs i = if i = id then change (scheduler.jobs id) else scheduler.jobs i := by
  simp only [updateJob, Function.update_apply]

@[grind =]
theorem setWorker_workers {process : Process} :
    (scheduler.setWorker position process).workers i = if i = position then process else scheduler.workers i := by
  simp only [setWorker, Function.update_apply]

theorem Table.eq_of_clash (table : scheduler.Table) {a b : Reserved} (first : a ∈ scheduler.processes)
    (second : b ∈ scheduler.processes) (clash : Clash a.kind.target b.kind.target) : a = b := by
  by_contra different
  have symmetric : Std.Symm fun a b : Reserved => ¬Clash a.kind.target b.kind.target :=
    ⟨fun _ _ apart clash => apart (JobKind.clash_symm clash)⟩
  exact table.apart.forall first second different clash

/-- What the steps of processes and requests leave as it is. -/
structure Frame (scheduler next : Scheduler) : Prop where
  loop : next.loop = scheduler.loop
  recovered : next.recovered = scheduler.recovered
  stopping : next.stopping = false → scheduler.stopping = false
  processes : next.processes = scheduler.processes
  count : scheduler.jobCount ≤ next.jobCount
  present : ∀ id, (next.jobs id).present = true → id < next.jobCount
  kinds : ∀ id < scheduler.jobCount, (next.jobs id).kind = (scheduler.jobs id).kind
  orphans : ∀ id, next.Orphaned id → scheduler.Orphaned id
  workers : ∀ position, (next.workers position).job = (scheduler.workers position).job ∧
    ((next.workers position).Alive → (scheduler.workers position).Alive) ∧
    ((next.workers position).phase = .absent → (scheduler.workers position).phase = .absent)

theorem Frame.table (frame : Frame scheduler next) (table : scheduler.Table) : next.Table := by
  refine ⟨frame.present, ?_, ?_, frame.processes ▸ table.apart, ?_⟩
  · intro reserved member
    obtain ⟨target, kind, below⟩ := table.keys reserved (frame.processes ▸ member)
    exact ⟨target, kind.trans (frame.kinds _ below).symm, below.trans_le frame.count⟩
  · intro reserved member
    obtain ⟨known, job⟩ := table.known reserved (frame.processes ▸ member)
    obtain ⟨same, -, absent⟩ := frame.workers reserved.process
    exact ⟨fun lost => known (absent lost), same.trans job⟩
  · intro position alive
    rw [frame.processes]
    exact table.alive position ((frame.workers position).2.1 alive)

theorem Frame.atLoop (frame : Frame scheduler next) (table : scheduler.Table) (atLoop : scheduler.AtLoop) :
    next.AtLoop := by
  have training (id : Nat) (orphaned : next.Orphaned id) :
      (next.jobs id).Training ↔ (scheduler.jobs id).Training := by
    have below := table.present id (frame.orphans id orphaned).1
    rw [ScheduledJob.Training, frame.kinds id below]
    rfl
  have targets : next.targets = scheduler.targets := by rw [targets, frame.processes, targets]
  have orphans := frame.orphans
  unfold AtLoop at atLoop ⊢
  rw [frame.loop, frame.recovered, targets]
  -- Each position of the loop speaks of orphans, whom the frame does not add to, or of an id below the count.
  split at atLoop
  · exact fun recovered running id orphaned => atLoop recovered (frame.stopping running) id (orphans id orphaned)
  · exact ⟨atLoop.1, fun id orphaned trains => atLoop.2 id (orphans id orphaned) ((training id orphaned).mp trains)⟩
  · exact fun id orphaned => atLoop id (orphans id orphaned)
  · exact fun id orphaned => atLoop id (orphans id orphaned)
  · exact fun id orphaned => atLoop id (orphans id orphaned)
  · exact fun id orphaned => atLoop id (orphans id orphaned)
  · exact fun id orphaned => atLoop id (orphans id orphaned)
  · exact ⟨fun id orphaned => atLoop.1 id (orphans id orphaned),
      fun id member => (atLoop.2 id member).trans_le frame.count⟩
  · obtain ⟨none, below, kind, free⟩ := atLoop
    exact ⟨fun id orphaned => none id (orphans id orphaned), below.trans_le frame.count,
      (frame.kinds _ below).trans kind, free⟩
  · obtain ⟨one, below, kind, free⟩ := atLoop
    exact ⟨fun id orphaned => one id (orphans id orphaned), below.trans_le frame.count,
      (frame.kinds _ below).trans kind, free⟩
  · trivial
  · trivial

theorem Frame.inv (frame : Frame scheduler next) (inv : scheduler.Inv) : next.Inv := by
  refine ⟨frame.table inv.toTable, ?_, ?_, frame.atLoop inv.toTable inv.atLoop⟩
  · rw [frame.loop, frame.processes]
    exact inv.snapshot
  · intro reserved current alive
    exact inv.reconciling reserved (frame.loop ▸ current) ((frame.workers _).2.1 alive)

/-- A write of a row that does not leave the job running, or of a job that is in the table. -/
theorem Table.updateJob_frame (table : scheduler.Table) {change : ScheduledJob → ScheduledJob}
    (kind : (change (scheduler.jobs id)).kind = (scheduler.jobs id).kind)
    (present : (change (scheduler.jobs id)).present = true → (scheduler.jobs id).present = true)
    (running : (change (scheduler.jobs id)).status = .running →
      id ∈ scheduler.activeIds ∨ (scheduler.jobs id).status = .running) :
    Frame scheduler (scheduler.updateJob id change) := by
  refine ⟨rfl, rfl, fun same => same, rfl, le_rfl, fun i has => ?_, fun i below => ?_, fun i orphaned => ?_,
    fun position => ⟨rfl, fun alive => alive, fun absent => absent⟩⟩
  · refine table.present i ?_
    grind -linarith
  · grind -linarith
  · obtain ⟨has, runs, absent⟩ := orphaned
    have absent : i ∉ scheduler.activeIds := absent
    refine ⟨?_, ?_, absent⟩ <;> grind -linarith

theorem Table.setWorker_frame (table : scheduler.Table) {process : Process}
    (job : process.job = (scheduler.workers position).job)
    (alive : process.Alive → (scheduler.workers position).Alive) (known : process.phase ≠ .absent) :
    Frame scheduler (scheduler.setWorker position process) := by
  refine ⟨rfl, rfl, fun same => same, rfl, le_rfl, table.present, fun i below => rfl, fun i orphaned => orphaned,
    fun i => ?_⟩
  grind -linarith

theorem Frame.trans {middle last : Scheduler} (first : Frame scheduler middle) (second : Frame middle last) :
    Frame scheduler last where
  loop := second.loop.trans first.loop
  recovered := second.recovered.trans first.recovered
  stopping running := first.stopping (second.stopping running)
  processes := second.processes.trans first.processes
  count := first.count.trans second.count
  present := second.present
  kinds id below := (second.kinds id (below.trans_le first.count)).trans (first.kinds id below)
  orphans id orphaned := first.orphans id (second.orphans id orphaned)
  workers position :=
    ⟨(second.workers position).1.trans (first.workers position).1,
      fun alive => (first.workers position).2.1 ((second.workers position).2.1 alive),
      fun absent => (first.workers position).2.2 ((second.workers position).2.2 absent)⟩

theorem Table.active (table : scheduler.Table) (alive : (scheduler.workers position).Alive) :
    (scheduler.workers position).job ∈ scheduler.activeIds := by
  obtain ⟨reserved, member, rfl⟩ := table.alive position alive
  rw [(table.known reserved member).2]
  exact List.mem_map_of_mem member

theorem stepProcess_frame (table : scheduler.Table) (stepped : scheduler.stepProcess event = some next) :
    Frame scheduler next := by
  cases event with
  | claimed position =>
    simp only [stepProcess, Option.ite_none_right_eq_some] at stepped
    obtain ⟨started, stepped⟩ := stepped
    have alive : (scheduler.workers position).Alive := by simp [Process.Alive, started]
    -- A worker that moves on keeps its job, and a job with a live worker is no orphan.
    have turned (phase : ProcessPhase) (known : phase ≠ .absent) :=
      show Frame scheduler (scheduler.setWorker position { scheduler.workers position with phase := phase }) from
        table.setWorker_frame rfl (fun _ => alive) known
    split at stepped
    · split at stepped
      · cases stepped
        have claims : Frame scheduler (scheduler.updateStatus (scheduler.workers position).job .running) :=
          table.updateJob_frame rfl id fun _ => .inl (table.active alive)
        exact claims.trans ((claims.table table).setWorker_frame rfl (fun _ => alive) (by simp))
      · cases stepped
        exact turned .concluded (by simp)
    · split at stepped <;> cases stepped
      · exact turned .claimed (by simp)
      · exact turned .concluded (by simp)
  | wrote position status remoteJob step =>
    simp only [stepProcess, Option.ite_none_right_eq_some, Option.some.injEq] at stepped
    obtain ⟨⟨claimed, -⟩, rfl⟩ := stepped
    exact table.updateJob_frame rfl id fun _ => .inl (table.active (by simp [Process.Alive, claimed]))
  | exited position =>
    simp only [stepProcess, Option.ite_none_right_eq_some, Option.some.injEq] at stepped
    obtain ⟨alive, rfl⟩ := stepped
    exact table.setWorker_frame rfl (fun _ => alive) (by simp)
  | _ => cases stepped

theorem stepRequest_frame (table : scheduler.Table) (stepped : scheduler.stepRequest event = some next) :
    Frame scheduler next := by
  cases event with
  | submitted kind =>
    cases stepped
    refine ⟨rfl, rfl, fun same => same, rfl, Nat.le_succ _, fun i has => ?_, fun i below => ?_, fun i orphaned => ?_,
      fun position => ⟨rfl, fun alive => alive, fun absent => absent⟩⟩
    · have := table.present i
      grind -linarith
    · grind -linarith
    · obtain ⟨has, runs, absent⟩ := orphaned
      -- the new job is pending
      refine ⟨?_, ?_, absent⟩ <;> grind -linarith
  | cancelTransitioned id =>
    simp only [stepRequest, Option.ite_none_right_eq_some, Option.some.injEq] at stepped
    obtain ⟨-, rfl⟩ := stepped
    exact table.updateJob_frame rfl (fun has => has) (by simp)
  | importWritten id status step =>
    simp only [stepRequest, Option.ite_none_right_eq_some, Option.some.injEq] at stepped
    obtain ⟨⟨-, -, waits⟩, rfl⟩ := stepped
    refine table.updateJob_frame rfl (fun has => has) fun running => ?_
    rcases waits with rfl | rfl <;> cases running
  | deleted id =>
    simp only [stepRequest, Option.ite_none_right_eq_some, Option.some.injEq] at stepped
    obtain ⟨⟨has, ended⟩, rfl⟩ := stepped
    exact table.updateJob_frame rfl (fun _ => has) fun running => .inr running
  | _ => cases stepped

theorem Table.setLoop (table : scheduler.Table) (loop : Loop) (recovered stopping : Bool) :
    ({ scheduler with loop := loop, recovered := recovered, stopping := stopping } : Scheduler).Table :=
  ⟨table.present, table.keys, table.known, table.apart, table.alive⟩

theorem Table.updateStatus (table : scheduler.Table) (status : JobStatus) : (scheduler.updateStatus id status).Table := by
  refine ⟨fun i has => table.present i ?_, fun reserved member => ?_, table.known, table.apart, table.alive⟩
  · grind -linarith [Scheduler.updateStatus]
  · have := table.keys reserved member
    refine ⟨this.1, ?_, this.2.2⟩
    grind -linarith [Scheduler.updateStatus]

theorem mem_orphans (table : scheduler.Table) :
    id ∈ scheduler.orphans.map Prod.fst ↔ scheduler.Orphaned id ∧ (scheduler.jobs id).Training := by
  have := table.present id
  simp only [orphans, Orphaned, List.map_map, List.mem_map, List.mem_filter, List.mem_range, decide_eq_true_eq]
  grind -linarith

theorem mem_orphanImports (table : scheduler.Table) :
    id ∈ scheduler.orphanImports ↔ scheduler.Orphaned id ∧ ¬(scheduler.jobs id).Training := by
  have := table.present id
  simp only [orphanImports, Orphaned, List.mem_filter, List.mem_range, decide_eq_true_eq]
  grind -linarith

theorem orphans_status : ∀ item ∈ scheduler.orphans, item.2 ≠ .running := by
  intro item member
  obtain ⟨id, -, rfl⟩ := List.mem_map.mp member
  simp only [ScheduledJob.recoveredStatus]
  split <;> simp

theorem Table.startJob (table : scheduler.Table) (phase : ProcessPhase) (below : id < scheduler.jobCount)
    (free : ∀ reserved ∈ scheduler.processes, ¬Clash (scheduler.jobs id).kind.target reserved.kind.target)
    (absent : (scheduler.workers position).phase = .absent) (known : phase ≠ .absent) :
    (scheduler.startJob id position phase).Table := by
  have other (reserved : Reserved) (member : reserved ∈ scheduler.processes) : reserved.process ≠ position :=
    fun same => (table.known reserved member).1 (same ▸ absent)
  refine ⟨table.present, fun reserved member => ?_, fun reserved member => ?_, ?_, fun i alive => ?_⟩
  · rcases List.mem_append.mp member with old | new
    · exact table.keys reserved old
    · obtain rfl := List.mem_singleton.mp new
      exact ⟨rfl, rfl, below⟩
  · rcases List.mem_append.mp member with old | new
    · have := table.known reserved old
      have := other reserved old
      grind -linarith [Scheduler.startJob]
    · obtain rfl := List.mem_singleton.mp new
      grind -linarith [Scheduler.startJob]
  · refine List.pairwise_append.mpr ⟨table.apart, List.pairwise_singleton _ _, fun old member new added => ?_⟩
    obtain rfl := List.mem_singleton.mp added
    exact fun clash => free old member (JobKind.clash_symm clash)
  · by_cases same : i = position
    · subst same
      exact ⟨_, List.mem_append_right _ (List.mem_singleton.mpr rfl), rfl⟩
    · have alive : (scheduler.workers i).Alive := by
        grind -linarith [Scheduler.startJob]
      obtain ⟨reserved, member, process⟩ := table.alive i alive
      exact ⟨reserved, List.mem_append_left _ member, process⟩

theorem startJob_orphaned {phase : ProcessPhase} (orphaned : (scheduler.startJob id position phase).Orphaned i) :
    scheduler.Orphaned i ∧ i ≠ id := by
  obtain ⟨has, runs, absent⟩ := orphaned
  have active : (scheduler.startJob id position phase).activeIds = scheduler.activeIds ++ [id] := by
    simp only [Scheduler.startJob, activeIds, setWorker, List.map_append, List.map_cons, List.map_nil]
  rw [active] at absent
  simp only [List.mem_append, List.mem_singleton, not_or] at absent
  exact ⟨⟨has, runs, absent.1⟩, absent.2⟩

theorem Table.free (table : scheduler.Table) {target : String} (idle : targetIsBusy target scheduler.targets = false) :
    ∀ reserved ∈ scheduler.processes, ¬Clash target reserved.kind.target := by
  intro reserved member clash
  rw [← (table.keys reserved member).1] at clash
  have busy : targetIsBusy target scheduler.targets = true :=
    targetIsBusy_iff.mpr ⟨reserved.target, List.mem_map_of_mem member, clash⟩
  exact Bool.false_ne_true (idle.symm.trans busy)

theorem Table.freeImport (table : scheduler.Table) (idle : "dataset_import" ∉ scheduler.targets) :
    ∀ reserved ∈ scheduler.processes, ¬Clash JobKind.datasetImport.target reserved.kind.target := by
  intro reserved member clash
  rcases clash with same | ⟨remote, -⟩
  · refine idle ?_
    have here : reserved.target ∈ scheduler.targets := List.mem_map_of_mem member
    rwa [(table.keys reserved member).1, ← same] at here
  · exact absurd remote (by decide)

theorem Table.remove (table : scheduler.Table) {reserved : Reserved} (member : reserved ∈ scheduler.processes)
    (dead : ¬(scheduler.workers reserved.process).Alive) :
    ({ scheduler with
      processes := scheduler.processes.filter fun other => other.target ≠ reserved.target } : Scheduler).Table := by
  refine ⟨table.present, fun other kept => table.keys other (List.mem_filter.mp kept).1,
    fun other kept => table.known other (List.mem_filter.mp kept).1, table.apart.filter _, fun position alive => ?_⟩
  obtain ⟨other, inTable, rfl⟩ := table.alive position alive
  refine ⟨other, List.mem_filter.mpr ⟨inTable, ?_⟩, rfl⟩
  -- an item with the target of the dead process is the one of the dead process
  refine decide_eq_true fun same => dead ?_
  rw [(table.keys other inTable).1, (table.keys reserved member).1] at same
  rwa [← table.eq_of_clash inTable member (.inl same)]

/-! ### Recovering -/

theorem Inv.polled (inv : scheduler.Inv) (polling : scheduler.loop = .polling) (running : scheduler.stopping = false) :
    ({ scheduler with
      loop := if scheduler.recovered then .reaping scheduler.processes else .recover .reap } : Scheduler).Inv := by
  have none := inv.atLoop
  simp only [AtLoop, polling] at none
  cases recovered : scheduler.recovered with
  | true => exact ⟨inv.setLoop _ _ _, .refl _, Loop.calm rfl, none recovered running⟩
  | false => exact ⟨inv.setLoop _ _ _, List.nil_sublist _, Loop.calm rfl, trivial⟩

theorem Inv.recoverRead (inv : scheduler.Inv) {resume : Resume} (recover : scheduler.loop = .recover resume) :
    ({ scheduler with loop := .recovering scheduler.orphans resume } : Scheduler).Inv := by
  have snapshot := inv.snapshot
  rw [recover] at snapshot
  exact ⟨inv.setLoop _ _ _, snapshot, Loop.calm rfl,
    And.intro orphans_status fun i orphaned trains => (mem_orphans inv.toTable).mpr ⟨orphaned, trains⟩⟩

/-- The recovery of a job leaves the others to recover. -/
theorem Inv.jobRecovered (inv : scheduler.Inv) {status : JobStatus} {todo : List (Nat × JobStatus)} {resume : Resume}
    (recovering : scheduler.loop = .recovering ((id, status) :: todo) resume) :
    ({ scheduler with loop := .recovering todo resume }.updateStatus id status).Inv := by
  have atLoop := inv.atLoop
  simp only [AtLoop, recovering] at atLoop
  obtain ⟨ended, known⟩ := atLoop
  have frame : Frame scheduler (scheduler.updateStatus id status) :=
    inv.updateJob_frame rfl (fun has => has) fun runs => absurd runs (ended _ List.mem_cons_self)
  have table := (frame.table inv.toTable).setLoop (.recovering todo resume) scheduler.recovered scheduler.stopping
  refine ⟨table, ?_, Loop.calm rfl,
    And.intro (fun item member => ended item (List.mem_cons_of_mem _ member)) fun i orphaned trains => ?_⟩
  · have snapshot := inv.snapshot
    rwa [recovering] at snapshot
  · have before : scheduler.Orphaned i := frame.orphans i orphaned
    have runs : ((scheduler.updateStatus id status).jobs i).status = .running := orphaned.2.1
    have := ended _ List.mem_cons_self
    have trained : (scheduler.jobs i).Training := by
      grind -linarith [updateStatus, ScheduledJob.Training]
    have := known i before trained
    grind -linarith [updateStatus]

theorem Inv.importsRead (inv : scheduler.Inv) {resume : Resume} (recovering : scheduler.loop = .recovering [] resume) :
    ({ scheduler with loop := .recoveringImports scheduler.orphanImports resume } : Scheduler).Inv := by
  have snapshot := inv.snapshot
  have atLoop := inv.atLoop
  rw [recovering] at snapshot
  simp only [AtLoop, recovering] at atLoop
  refine ⟨inv.setLoop _ _ _, snapshot, Loop.calm rfl, fun i orphaned => (mem_orphanImports inv.toTable).mpr ⟨orphaned, ?_⟩⟩
  exact fun trains => List.not_mem_nil (atLoop.2 i orphaned trains)

theorem Inv.importRecovered (inv : scheduler.Inv) {todo : List Nat} {resume : Resume}
    (recovering : scheduler.loop = .recoveringImports (id :: todo) resume) :
    ({ scheduler with loop := .recoveringImports todo resume }.updateStatus id .failed).Inv := by
  have known := inv.atLoop
  simp only [AtLoop, recovering] at known
  have frame : Frame scheduler (scheduler.updateStatus id .failed) :=
    inv.updateJob_frame rfl (fun has => has) (by simp)
  refine ⟨(frame.table inv.toTable).setLoop (.recoveringImports todo resume) scheduler.recovered scheduler.stopping,
    ?_, Loop.calm rfl, fun i orphaned => ?_⟩
  · have snapshot := inv.snapshot
    rwa [recovering] at snapshot
  · have before := known i (frame.orphans i orphaned)
    have runs : ((scheduler.updateStatus id .failed).jobs i).status = .running := orphaned.2.1
    grind -linarith [updateStatus]

/-- When a recovery ends, no job runs without a process. -/
theorem Inv.recovered (inv : scheduler.Inv) {resume : Resume}
    (recovering : scheduler.loop = .recoveringImports [] resume) (id : Nat) : ¬scheduler.Orphaned id := by
  have none := inv.atLoop
  simp only [AtLoop, recovering, List.not_mem_nil] at none
  exact none id

theorem Inv.resumed (inv : scheduler.Inv) {rest : List Reserved}
    (recovering : scheduler.loop = .recoveringImports [] (.next rest)) :
    ({ scheduler with loop := .reaping rest } : Scheduler).Inv := by
  have snapshot := inv.snapshot
  rw [recovering] at snapshot
  exact ⟨inv.setLoop _ _ _, snapshot, Loop.calm rfl, inv.recovered recovering⟩

/-! ### Reaping -/

theorem Inv.foundAlive (inv : scheduler.Inv) {reserved : Reserved} {rest : List Reserved}
    (reaping : scheduler.loop = .reaping (reserved :: rest)) :
    ({ scheduler with loop := .reaping rest } : Scheduler).Inv := by
  have none := inv.atLoop
  have snapshot := inv.snapshot
  simp only [AtLoop, reaping] at none
  rw [reaping] at snapshot
  exact ⟨inv.setLoop _ _ _, (List.sublist_cons_self _ _).trans snapshot, Loop.calm rfl, none⟩

theorem Inv.foundDead (inv : scheduler.Inv) {reserved : Reserved} {rest : List Reserved} {fails : Bool}
    (reaping : scheduler.loop = .reaping (reserved :: rest)) (dead : ¬(scheduler.workers reserved.process).Alive) :
    ({ scheduler with loop := .reconciling reserved fails rest } : Scheduler).Inv := by
  have none := inv.atLoop
  have snapshot := inv.snapshot
  simp only [AtLoop, reaping] at none
  rw [reaping] at snapshot
  refine ⟨inv.setLoop _ _ _, snapshot, ?_, none⟩
  rintro _ ⟨⟩
  exact dead

theorem Inv.reapFailed (inv : scheduler.Inv) {reserved : Reserved} {rest : List Reserved}
    (reconciling : scheduler.loop = .reconciling reserved true rest) :
    ({ scheduler with loop := .reconciling reserved false rest }.updateStatus reserved.job .failed).Inv := by
  have none := inv.atLoop
  have snapshot := inv.snapshot
  simp only [AtLoop, reconciling] at none
  rw [reconciling] at snapshot
  have frame : Frame scheduler (scheduler.updateStatus reserved.job .failed) :=
    inv.updateJob_frame rfl (fun has => has) (by simp)
  refine ⟨(frame.table inv.toTable).setLoop (.reconciling reserved false rest) scheduler.recovered scheduler.stopping,
    snapshot, ?_, fun i orphaned => none i (frame.orphans i orphaned)⟩
  rintro _ ⟨⟩
  exact inv.reconciling reserved (by simp [reconciling, Loop.current])

/-- The items that are still to be looked at have other targets than one that is taken out. -/
theorem Table.others_kept (table : scheduler.Table) {reserved : Reserved} {rest : List Reserved}
    (snapshot : (reserved :: rest).Sublist scheduler.processes) :
    rest.filter (fun other => other.target ≠ reserved.target) = rest := by
  have member : reserved ∈ scheduler.processes := snapshot.subset List.mem_cons_self
  refine List.filter_eq_self.mpr fun other later => decide_eq_true fun same => ?_
  have apart := (List.pairwise_cons.mp (table.apart.sublist snapshot)).1 other later
  have inTable := snapshot.subset (List.mem_cons_of_mem _ later)
  rw [(table.keys other inTable).1, (table.keys reserved member).1] at same
  exact apart (.inl same.symm)

theorem Inv.reapDeleted (inv : scheduler.Inv) {reserved : Reserved} {rest : List Reserved}
    (reconciling : scheduler.loop = .reconciling reserved false rest) :
    ({ scheduler with
      processes := scheduler.processes.filter fun other => other.target ≠ reserved.target
      loop := .recover (.next rest) } : Scheduler).Inv := by
  have snapshot := inv.snapshot
  rw [reconciling] at snapshot
  have dead := inv.reconciling reserved (by simp [reconciling, Loop.current])
  refine ⟨(inv.remove (snapshot.subset List.mem_cons_self) dead).setLoop (.recover (.next rest)) scheduler.recovered
    scheduler.stopping, ?_, Loop.calm rfl, trivial⟩
  show rest.Sublist _
  rw [← inv.others_kept snapshot]
  exact ((List.sublist_cons_self _ _).trans snapshot).filter _

theorem Inv.reapEnded (inv : scheduler.Inv) (reaping : scheduler.loop = .reaping []) :
    ({ scheduler with loop := .listing } : Scheduler).Inv := by
  have none := inv.atLoop
  simp only [AtLoop, reaping] at none
  exact ⟨inv.setLoop _ _ _, List.nil_sublist _, Loop.calm rfl, none⟩

/-! ### Starting training jobs -/

theorem Inv.pendingRead (inv : scheduler.Inv) (listing : scheduler.loop = .listing) :
    ({ scheduler with loop := .scheduling scheduler.pendingTrainJobs } : Scheduler).Inv := by
  have none := inv.atLoop
  simp only [AtLoop, listing] at none
  exact ⟨inv.setLoop _ _ _, List.nil_sublist _, Loop.calm rfl,
    And.intro none fun i member => List.mem_range.mp (List.mem_filter.mp member).1⟩

theorem Inv.scheduling (inv : scheduler.Inv) {todo : List Nat} (scheduling : scheduler.loop = .scheduling todo) :
    (∀ id, ¬scheduler.Orphaned id) ∧ ∀ id ∈ todo, id < scheduler.jobCount := by
  have atLoop := inv.atLoop
  simp only [AtLoop, scheduling] at atLoop
  exact atLoop

theorem Inv.skipped (inv : scheduler.Inv) {todo : List Nat} (scheduling : scheduler.loop = .scheduling (id :: todo)) :
    ({ scheduler with loop := .scheduling todo } : Scheduler).Inv := by
  obtain ⟨none, below⟩ := inv.scheduling scheduling
  exact ⟨inv.setLoop _ _ _, List.nil_sublist _, Loop.calm rfl,
    And.intro none fun i member => below i (List.mem_cons_of_mem _ member)⟩

theorem Inv.started (inv : scheduler.Inv) {todo : List Nat} (scheduling : scheduler.loop = .scheduling (id :: todo))
    (idle : targetIsBusy (scheduler.jobs id).kind.target scheduler.targets = false)
    (absent : (scheduler.workers position).phase = .absent) :
    ({ scheduler with loop := .scheduling todo }.startJob id position .started).Inv := by
  obtain ⟨none, below⟩ := inv.scheduling scheduling
  have table := (inv.setLoop (.scheduling todo) scheduler.recovered scheduler.stopping).startJob
    .started (below id List.mem_cons_self) (inv.free idle) absent (by simp)
  exact ⟨table, List.nil_sublist _, Loop.calm rfl, And.intro (fun i orphaned => none i (startJob_orphaned orphaned).1)
    fun i member => below i (List.mem_cons_of_mem _ member)⟩

/-- A reservation whose process failed to start, with which the thread goes back to polling. -/
theorem Inv.startFails (inv : scheduler.Inv) (below : id < scheduler.jobCount)
    (free : ∀ reserved ∈ scheduler.processes, ¬Clash (scheduler.jobs id).kind.target reserved.kind.target)
    (absent : (scheduler.workers position).phase = .absent) :
    ({ scheduler with loop := .polling, recovered := false }.startJob id position .dead).Inv := by
  have table := (inv.setLoop .polling false scheduler.stopping).startJob .dead below free absent (by simp)
  exact ⟨table, List.nil_sublist _, Loop.calm rfl, (by rintro ⟨⟩)⟩

theorem Inv.scheduled (inv : scheduler.Inv) (scheduling : scheduler.loop = .scheduling []) :
    ({ scheduler with loop := .importing } : Scheduler).Inv :=
  ⟨inv.setLoop _ _ _, List.nil_sublist _, Loop.calm rfl, (inv.scheduling scheduling).1⟩

/-! ### Starting dataset imports -/

theorem Inv.importing (inv : scheduler.Inv) (importing : scheduler.loop = .importing) (id : Nat) :
    ¬scheduler.Orphaned id := by
  have none := inv.atLoop
  simp only [AtLoop, importing] at none
  exact none id

theorem Inv.importSelected (inv : scheduler.Inv) (importing : scheduler.loop = .importing)
    (idle : "dataset_import" ∉ scheduler.targets) (found : scheduler.nextImport = some id) :
    ({ scheduler with loop := .importSelected id } : Scheduler).Inv := by
  obtain ⟨claimable, below⟩ : (scheduler.jobs id).ClaimableImport ∧ id < scheduler.jobCount := by
    have := List.find?_some found
    have := List.mem_of_find?_eq_some found
    grind -linarith
  exact ⟨inv.setLoop _ _ _, List.nil_sublist _, Loop.calm rfl, ⟨inv.importing importing, below, claimable.2.1, idle⟩⟩

theorem Inv.importUpdated (inv : scheduler.Inv) (selected : scheduler.loop = .importSelected id) :
    ({ scheduler with loop := .importClaimed id }.updateStatus id .running).Inv := by
  have atLoop := inv.atLoop
  simp only [AtLoop, selected] at atLoop
  obtain ⟨none, below, kind, idle⟩ := atLoop
  refine ⟨(inv.setLoop (.importClaimed id) scheduler.recovered scheduler.stopping).updateStatus .running,
    List.nil_sublist _, Loop.calm rfl, fun other orphaned => ?_, below, ?_, idle⟩
  · by_contra different
    obtain ⟨has, runs, absent⟩ := orphaned
    have absent : other ∉ scheduler.activeIds := absent
    refine none other ⟨?_, ?_, absent⟩ <;> grind -linarith [updateStatus]
  · grind -linarith [updateStatus]

theorem Inv.claimedByOther (inv : scheduler.Inv) (selected : scheduler.loop = .importSelected id) :
    ({ scheduler with loop := .importClaimed id } : Scheduler).Inv := by
  have atLoop := inv.atLoop
  simp only [AtLoop, selected] at atLoop
  obtain ⟨none, below, kind, idle⟩ := atLoop
  exact ⟨inv.setLoop _ _ _, List.nil_sublist _, Loop.calm rfl,
    ⟨fun other orphaned => absurd orphaned (none other), below, kind, idle⟩⟩

/-- Only the claimed import may run without a process, and its place is free. -/
theorem Inv.importClaimed (inv : scheduler.Inv) (claimed : scheduler.loop = .importClaimed id) :
    (∀ other, scheduler.Orphaned other → other = id) ∧ id < scheduler.jobCount ∧
      ∀ reserved ∈ scheduler.processes, ¬Clash (scheduler.jobs id).kind.target reserved.kind.target := by
  have atLoop := inv.atLoop
  simp only [AtLoop, claimed] at atLoop
  obtain ⟨one, below, kind, idle⟩ := atLoop
  exact ⟨one, below, kind ▸ inv.freeImport idle⟩

theorem Inv.importStarted (inv : scheduler.Inv) (claimed : scheduler.loop = .importClaimed id)
    (absent : (scheduler.workers position).phase = .absent) :
    ({ scheduler with loop := .polling }.startJob id position .started).Inv := by
  obtain ⟨one, below, free⟩ := inv.importClaimed claimed
  have table := (inv.setLoop .polling scheduler.recovered scheduler.stopping).startJob .started below free absent
    (by simp)
  refine ⟨table, List.nil_sublist _, Loop.calm rfl, fun _ _ i orphaned => ?_⟩
  obtain ⟨before, other⟩ := startJob_orphaned orphaned
  exact other (one i before)

theorem Inv.importDropped (inv : scheduler.Inv) (claimed : scheduler.loop = .importClaimed id)
    (dropped : (scheduler.jobs id).present = false ∨ scheduler.stopping = true) :
    ({ scheduler with loop := .polling } : Scheduler).Inv := by
  refine ⟨inv.setLoop _ _ _, List.nil_sublist _, Loop.calm rfl, fun _ running i orphaned => ?_⟩
  -- the row of the claimed job is gone
  obtain rfl := (inv.importClaimed claimed).1 i orphaned
  rcases dropped with gone | stopping
  · exact absurd orphaned.1 (by simp [gone])
  · exact absurd (running.symm.trans stopping) (by simp)

/-! ### The API process ends -/

theorem killed_dead (process : Process) : ¬process.killed.Alive := by
  simp only [Process.killed, Process.Alive]
  split <;> simp [*]

theorem Table.clear (table : scheduler.Table) :
    ({ scheduler with
      workers := fun process => (scheduler.workers process).killed
      processes := [] } : Scheduler).Table :=
  ⟨table.present, (by simp), (by simp), .nil, fun _ alive => absurd alive (killed_dead _)⟩

theorem stopRequested_frame (table : scheduler.Table) : Frame scheduler { scheduler with stopping := true } :=
  ⟨rfl, rfl, (by simp), rfl, le_rfl, table.present, fun _ _ => rfl, fun _ orphaned => orphaned,
    fun _ => ⟨rfl, fun alive => alive, fun absent => absent⟩⟩

theorem Inv.loop (inv : scheduler.Inv) (stepped : scheduler.LoopStep event next) : next.Inv := by
  cases stepped with
  | polled polling running => exact inv.polled polling running
  | recoverRead recover => exact inv.recoverRead recover
  | jobRecovered recovering => exact inv.jobRecovered recovering
  | importsRead recovering => exact inv.importsRead recovering
  | importRecovered recovering => exact inv.importRecovered recovering
  | recovered recovering => exact ⟨inv.setLoop _ _ _, .refl _, Loop.calm rfl, inv.recovered recovering⟩
  | resumed recovering => exact inv.resumed recovering
  | halted => exact ⟨inv.setLoop _ _ _, List.nil_sublist _, Loop.calm rfl, trivial⟩
  | foundAlive reaping => exact inv.foundAlive reaping
  | foundDead reaping dead => exact inv.foundDead reaping dead
  | reapFailed reconciling => exact inv.reapFailed reconciling
  | reapDeleted reconciling => exact inv.reapDeleted reconciling
  | reapEnded reaping => exact inv.reapEnded reaping
  | pendingRead listing => exact inv.pendingRead listing
  | skipped scheduling => exact inv.skipped scheduling
  | started _ scheduling idle _ absent => exact inv.started scheduling idle absent
  | startRaised _ scheduling idle _ absent =>
    exact inv.startFails ((inv.scheduling scheduling).2 _ List.mem_cons_self) (inv.free idle) absent
  | scheduled scheduling => exact inv.scheduled scheduling
  | noneImported importing =>
    exact ⟨inv.setLoop _ _ _, List.nil_sublist _, Loop.calm rfl, fun _ _ => inv.importing importing⟩
  | importSelected importing idle found => exact inv.importSelected importing idle found
  | importUpdated selected => exact inv.importUpdated selected
  | claimedByOther selected => exact inv.claimedByOther selected
  | importStarted _ claimed _ _ absent => exact inv.importStarted claimed absent
  | importStartRaised _ claimed _ _ absent =>
    obtain ⟨-, below, free⟩ := inv.importClaimed claimed
    exact inv.startFails below free absent
  | importDropped claimed dropped => exact inv.importDropped claimed dropped
  | raisedHalting => exact ⟨inv.setLoop _ _ _, List.nil_sublist _, Loop.calm rfl, trivial⟩
  | raised => exact ⟨inv.setLoop _ _ _, List.nil_sublist _, Loop.calm rfl, (by rintro ⟨⟩)⟩
  | stopRequested => exact (stopRequested_frame inv.toTable).inv inv
  | shutdown =>
    exact ⟨inv.clear.setLoop (.recover .halt) scheduler.recovered scheduler.stopping, .refl _, Loop.calm rfl, trivial⟩
  | restarted => exact ⟨inv.clear.setLoop .polling false false, .refl _, Loop.calm rfl, (by rintro ⟨⟩)⟩

theorem Inv.initial : jobScheduler.initial.Inv := by
  refine ⟨⟨(by intros; contradiction), (by intros; contradiction), (by intros; contradiction), .nil, fun position alive => absurd rfl alive.1⟩, .refl _, Loop.calm rfl, (by rintro ⟨⟩)⟩

theorem Inv.step (inv : scheduler.Inv) (stepped : scheduler.step event = some next) : next.Inv := by
  rcases step_cases stepped with loop | process | request
  · exact inv.loop loop
  · exact (stepProcess_frame inv.toTable process).inv inv
  · exact (stepRequest_frame inv.toTable request).inv inv

end Scheduler

end PhysicalAiStudio.Jobs
