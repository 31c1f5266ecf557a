import PhysicalAiStudio.Jobs.SchedulerSafety

/-! What a reconciliation does to a job whose process is dead.

A reconciliation looks at every item that the process table has at its beginning. It takes the
dead ones out, and after each it recovers the jobs that are running without a process.
-/

set_option autoImplicit false

namespace PhysicalAiStudio.Jobs

open Concurrency

def Resume.Reaping : Resume → Prop
  | .next _ => True
  | .reap | .halt => False

def Loop.Reaping : Loop → Prop
  | .reaping _ | .reconciling _ _ _ => True
  | .recover resume | .recovering _ resume | .recoveringImports _ resume => resume.Reaping
  | .polling | .listing | .scheduling _ | .importing | .importSelected _ | .importClaimed _ | .halted => False

namespace Scheduler

variable {scheduler next : Scheduler} {event : SchedulerEvent} {reserved : Reserved}

structure Reaps (reserved : Reserved) (scheduler : Scheduler) : Prop where
  reaping : scheduler.loop.Reaping
  dead : ¬(scheduler.workers reserved.process).Alive
  known : (scheduler.workers reserved.process).phase ≠ .absent
  kind : reserved.kind = (scheduler.jobs reserved.job).kind
  below : reserved.job < scheduler.jobCount
  waits : reserved ∈ scheduler.loop.todo ∨
    ∀ other ∈ scheduler.processes, ¬Clash reserved.kind.target other.kind.target

theorem Frame.reaps (frame : Frame scheduler next) (reaps : scheduler.Reaps reserved) : next.Reaps reserved where
  reaping := frame.loop ▸ reaps.reaping
  dead alive := reaps.dead ((frame.workers _).2.1 alive)
  known absent := reaps.known ((frame.workers _).2.2 absent)
  kind := reaps.kind.trans (frame.kinds _ reaps.below).symm
  below := reaps.below.trans_le frame.count
  waits := by
    rw [frame.loop, frame.processes]
    exact reaps.waits

theorem Table.free_of_removed (table : scheduler.Table) (member : reserved ∈ scheduler.processes) :
    ∀ other ∈ scheduler.processes.filter fun other => other.target ≠ reserved.target,
      ¬Clash reserved.kind.target other.kind.target := by
  intro other kept clash
  obtain ⟨inTable, different⟩ := List.mem_filter.mp kept
  obtain rfl := table.eq_of_clash member inTable clash
  simp at different

theorem Reaps.updateStatus (reaps : scheduler.Reaps reserved) (id : Nat) (status : JobStatus) :
    (scheduler.updateStatus id status).Reaps reserved := by
  refine ⟨reaps.reaping, reaps.dead, reaps.known, ?_, reaps.below, reaps.waits⟩
  have := reaps.kind
  grind -linarith [Scheduler.updateStatus]

theorem Reaps.move (reaps : scheduler.Reaps reserved) {loop : Loop} (reaping : loop.Reaping)
    (waits : reserved ∈ scheduler.loop.todo → reserved ∈ loop.todo ∨
      ∀ other ∈ scheduler.processes, ¬Clash reserved.kind.target other.kind.target) :
    ({ scheduler with loop := loop } : Scheduler).Reaps reserved :=
  ⟨reaping, reaps.dead, reaps.known, reaps.kind, reaps.below, reaps.waits.elim waits .inr⟩

theorem Reaps.goes (reaps : scheduler.Reaps reserved) {before after : Loop} (at_loop : scheduler.loop = before)
    (reaping : before.Reaping → after.Reaping) (todo : after.todo = before.todo) :
    ({ scheduler with loop := after } : Scheduler).Reaps reserved := by
  refine reaps.move (reaping (at_loop ▸ reaps.reaping)) fun waiting => .inl ?_
  rw [todo, ← at_loop]
  exact waiting

theorem Reaps.foundAlive (reaps : scheduler.Reaps reserved) {first : Reserved} {rest : List Reserved}
    (reaping : scheduler.loop = .reaping (first :: rest)) (alive : (scheduler.workers first.process).Alive) :
    ({ scheduler with loop := .reaping rest } : Scheduler).Reaps reserved := by
  refine reaps.move trivial fun waiting => .inl ?_
  rw [reaping] at waiting
  rcases List.mem_cons.mp waiting with rfl | later
  · exact absurd alive reaps.dead
  · exact later

theorem Inv.reapsDeleted (inv : scheduler.Inv) (reaps : scheduler.Reaps reserved) {first : Reserved}
    {rest : List Reserved} (reconciling : scheduler.loop = .reconciling first false rest) :
    ({ scheduler with
      processes := scheduler.processes.filter fun other => other.target ≠ first.target
      loop := .recover (.next rest) } : Scheduler).Reaps reserved := by
  have snapshot := inv.snapshot
  rw [reconciling] at snapshot
  refine ⟨trivial, reaps.dead, reaps.known, reaps.kind, reaps.below, ?_⟩
  rcases reaps.waits with waiting | free
  · rw [reconciling] at waiting
    rcases List.mem_cons.mp waiting with rfl | later
    · exact .inr (inv.free_of_removed (snapshot.subset List.mem_cons_self))
    · exact .inl later
  · exact .inr fun other kept => free other (List.mem_filter.mp kept).1

theorem Inv.reapsOn (inv : scheduler.Inv) (reaps : scheduler.Reaps reserved) (raised : event ≠ .raised)
    (restarted : event ≠ .restarted) (ended : event ≠ .reapEnded) (stepped : scheduler.LoopStep event next) :
    next.Reaps reserved := by
  -- outside the reap there is nothing to keep
  have within {loop : Loop} (at_loop : scheduler.loop = loop) : loop.Reaping := at_loop ▸ reaps.reaping
  cases stepped with
  | recoverRead at_loop | importsRead at_loop | resumed at_loop => exact reaps.goes at_loop id rfl
  | foundAlive reaping alive => exact reaps.foundAlive reaping alive
  | foundDead reaping => exact reaps.goes reaping id rfl
  | jobRecovered at_loop | importRecovered at_loop | reapFailed at_loop =>
    refine Reaps.updateStatus ?_ _ _
    exact reaps.goes at_loop id rfl
  | reapDeleted reconciling => exact inv.reapsDeleted reaps reconciling
  | stopRequested => exact ⟨reaps.reaping, reaps.dead, reaps.known, reaps.kind, reaps.below, reaps.waits⟩
  | reapEnded => exact absurd rfl ended
  | raisedHalting | raised => exact absurd rfl raised
  | restarted => exact absurd rfl restarted
  | polled found | recovered found | halted found | pendingRead found | skipped found | started _ found
  | startRaised _ found | scheduled found | noneImported found | importSelected found | importUpdated found
  | claimedByOther found | importStarted _ found | importStartRaised _ found | importDropped found | shutdown found =>
    exact (within found).elim

/-- The last reconciliation is complete, and no dataset import is between its claim and its start. -/
def Reconciled (scheduler : Scheduler) : Prop :=
  match scheduler.loop with
  | .polling => scheduler.recovered = true ∧ scheduler.stopping = false
  | .reaping _ | .reconciling _ _ _ | .listing | .scheduling _ | .importing | .importSelected _ => True
  | .recover _ | .recovering _ _ | .recoveringImports _ _ | .importClaimed _ | .halted => False

/-- The process table, the processes and the rows agree. -/
structure Consistent (scheduler : Scheduler) : Prop where
  targets : ∀ reserved ∈ scheduler.processes, reserved.target = (scheduler.jobs reserved.job).kind.target
  apart : scheduler.processes.Pairwise fun a b =>
    ¬(scheduler.jobs a.job).kind.reservation.Conflicts (scheduler.jobs b.job).kind.reservation
  /-- No two processes are alive for one job, whether they have claimed it or not. -/
  single : ∀ p q, (scheduler.workers p).Alive → (scheduler.workers q).Alive →
    (scheduler.workers p).job = (scheduler.workers q).job → p = q
  reserved : ∀ p, (scheduler.workers p).Alive → (scheduler.workers p).job ∈ scheduler.activeIds
  running : scheduler.Reconciled → ∀ id, (scheduler.jobs id).present = true →
    (scheduler.jobs id).status = .running → id ∈ scheduler.activeIds

theorem Table.single (table : scheduler.Table) {p q : Nat} (first : (scheduler.workers p).Alive)
    (second : (scheduler.workers q).Alive) (same : (scheduler.workers p).job = (scheduler.workers q).job) : p = q := by
  obtain ⟨a, inTable, rfl⟩ := table.alive p first
  obtain ⟨b, inTable', rfl⟩ := table.alive q second
  have kinds : a.kind = b.kind := by
    rw [(table.keys a inTable).2.1, (table.keys b inTable').2.1, ← (table.known a inTable).2,
      ← (table.known b inTable').2, same]
  rw [table.eq_of_clash inTable inTable' (.inl (congrArg _ kinds))]

theorem Inv.consistent (inv : scheduler.Inv) : scheduler.Consistent where
  targets reserved member := by
    rw [(inv.keys reserved member).1, (inv.keys reserved member).2.1]
  apart := by
    refine inv.apart.imp_of_mem fun {a b} first second apart conflicts => apart ?_
    rw [(inv.keys a first).2.1, (inv.keys b second).2.1]
    exact JobKind.clash_of_conflicts conflicts
  single p q := inv.single
  reserved p := inv.active
  running reconciled id has runs := by
    by_contra absent
    have orphaned : scheduler.Orphaned id := ⟨has, runs, absent⟩
    have atLoop := inv.atLoop
    unfold AtLoop at atLoop
    unfold Reconciled at reconciled
    cases loop : scheduler.loop with
    | polling =>
      simp only [loop] at atLoop reconciled
      exact atLoop reconciled.1 reconciled.2 id orphaned
    | reaping | reconciling | listing | importing =>
      simp only [loop] at atLoop
      exact atLoop id orphaned
    | scheduling | importSelected =>
      simp only [loop] at atLoop
      exact atLoop.1 id orphaned
    | recover | recovering | recoveringImports | importClaimed | halted => simp only [loop] at reconciled

theorem Reaps.ended (reaps : scheduler.Reaps reserved) (inv : scheduler.Inv)
    (keyed : reserved.target = reserved.kind.target) (reaping : scheduler.loop = .reaping []) :
    targetIsBusy reserved.target scheduler.targets = false ∧
      ((scheduler.jobs reserved.job).present = true → (scheduler.jobs reserved.job).status ≠ .running) := by
  have free := reaps.waits.resolve_left (by simp [reaping, Loop.todo])
  constructor
  · refine Bool.eq_false_iff.mpr fun busy => ?_
    obtain ⟨key, listed, clash⟩ := targetIsBusy_iff.mp busy
    obtain ⟨other, inTable, rfl⟩ := List.mem_map.mp listed
    rw [keyed, (inv.keys other inTable).1] at clash
    exact free other inTable clash
  · intro has runs
    have active := inv.consistent.running (by rw [Reconciled, reaping]; trivial) _ has runs
    obtain ⟨other, inTable, same⟩ := List.mem_map.mp active
    -- an item of the same job has the target of the dead process
    refine free other inTable (.inl ?_)
    rw [reaps.kind, (inv.keys other inTable).2.1, same]

end Scheduler

variable {history : List SchedulerEvent} {scheduler : Scheduler}

theorem scheduler_inv_reached (reached : jobScheduler.reached history = some scheduler) : scheduler.Inv :=
  System.invariant_always Scheduler.Inv.initial (fun _ _ _ inv stepped => inv.step stepped) reached

/-- A dead process is still to be looked at, or its target is free, as long as the reconciliation goes on. -/
theorem reaps_later {later older : List SchedulerEvent} {reserved : Reserved} {before now : Scheduler}
    (within : ∀ event ∈ later, event ≠ .raised ∧ event ≠ .restarted ∧ event ≠ .reapEnded)
    (led : jobScheduler.reached older = some before) (reaps : before.Reaps reserved)
    (reached : jobScheduler.reached (later ++ older) = some now) : now.Reaps reserved := by
  induction later generalizing now with
  | nil =>
    cases led.symm.trans reached
    exact reaps
  | cons event later ih =>
    obtain ⟨last, led', stepped⟩ := System.reached_cons.mp reached
    have going := ih (fun event member => within event (List.mem_cons_of_mem _ member)) led'
    have inv := scheduler_inv_reached led'
    obtain ⟨raised, restarted, ended⟩ := within event List.mem_cons_self
    rcases Scheduler.step_cases stepped with loop | process | request
    · exact inv.reapsOn going raised restarted ended loop
    · exact (Scheduler.stepProcess_frame inv.toTable process).reaps going
    · exact (Scheduler.stepRequest_frame inv.toTable request).reaps going

structure Scheduled (history : List SchedulerEvent) : Prop where
  consistent : ∀ newest older scheduler, history = newest ++ older → jobScheduler.reached older = some scheduler →
    scheduler.Consistent
  /-- A reconciliation that ends leaves a job, whose process was dead when it began, finished or waiting, and its target
  free. -/
  reconciled : ∀ newest middle older before now reserved, history = newest ++ (.reapEnded :: (middle ++ older)) →
    (∀ event ∈ middle, event ≠ .raised ∧ event ≠ .restarted ∧ event ≠ .reapEnded) →
    jobScheduler.reached older = some before → before.loop = .reaping before.processes →
    reserved ∈ before.processes → (before.workers reserved.process).phase = .dead →
    jobScheduler.reached (.reapEnded :: (middle ++ older)) = some now →
    targetIsBusy reserved.target now.targets = false ∧
      ((now.jobs reserved.job).present = true → (now.jobs reserved.job).status.Finished ∨
        (now.jobs reserved.job).status = .pending)

/-- In every run the reservations are apart, a job has one process at most, and no job that a reconciliation has looked at
runs without a process. -/
theorem jobs_scheduled (history : List SchedulerEvent) : Scheduled history := by
  refine ⟨fun newest older scheduler _ reached => (scheduler_inv_reached reached).consistent, ?_⟩
  intro newest middle older before now reserved _ within led reaping member dead reached
  have inv := scheduler_inv_reached led
  have reaps : before.Reaps reserved :=
    { reaping := by rw [reaping]; trivial
      dead := fun alive => alive.2 dead
      known := (inv.known reserved member).1
      kind := (inv.keys reserved member).2.1
      below := (inv.keys reserved member).2.2
      waits := .inl (by rw [reaping]; exact member) }
  obtain ⟨last, led', stepped⟩ := System.reached_cons.mp reached
  have reaped := reaps_later within led reaps led'
  rcases Scheduler.step_cases stepped with loop | process | request
  · cases loop with
    | reapEnded lookedAt =>
      obtain ⟨free, stopped⟩ := reaped.ended (scheduler_inv_reached led') (inv.keys reserved member).1 lookedAt
      refine ⟨free, fun has => ?_⟩
      have stopped : (last.jobs reserved.job).status ≠ .running := stopped has
      show (last.jobs reserved.job).status.Finished ∨ (last.jobs reserved.job).status = .pending
      rw [JobStatus.finished_iff]
      grind -linarith
  · cases process
  · cases request

end PhysicalAiStudio.Jobs
