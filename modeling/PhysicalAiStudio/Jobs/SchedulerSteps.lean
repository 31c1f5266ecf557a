import PhysicalAiStudio.Jobs.Scheduler

/-! What each step of the scheduler thread finds, and what it leaves. -/

set_option autoImplicit false

namespace PhysicalAiStudio.Jobs

namespace Scheduler

inductive LoopStep (scheduler : Scheduler) : SchedulerEvent → Scheduler → Prop where
  | polled (polling : scheduler.loop = .polling) (running : scheduler.stopping = false) :
      LoopStep scheduler .polled
        { scheduler with loop := if scheduler.recovered then .reaping scheduler.processes else .recover .reap }
  | recoverRead {resume : Resume} (recover : scheduler.loop = .recover resume) :
      LoopStep scheduler .recoverRead { scheduler with loop := .recovering scheduler.orphans resume }
  | jobRecovered {id : Nat} {status : JobStatus} {todo : List (Nat × JobStatus)} {resume : Resume}
      (recovering : scheduler.loop = .recovering ((id, status) :: todo) resume)
      (present : (scheduler.jobs id).present = true) :
      LoopStep scheduler .jobRecovered ({ scheduler with loop := .recovering todo resume }.updateStatus id status)
  | importsRead {resume : Resume} (recovering : scheduler.loop = .recovering [] resume) :
      LoopStep scheduler .importsRead { scheduler with loop := .recoveringImports scheduler.orphanImports resume }
  | importRecovered {id : Nat} {todo : List Nat} {resume : Resume}
      (recovering : scheduler.loop = .recoveringImports (id :: todo) resume)
      (present : (scheduler.jobs id).present = true) :
      LoopStep scheduler .importRecovered
        ({ scheduler with loop := .recoveringImports todo resume }.updateStatus id .failed)
  | recovered (recovering : scheduler.loop = .recoveringImports [] .reap) :
      LoopStep scheduler .recoverEnded { scheduler with recovered := true, loop := .reaping scheduler.processes }
  | resumed {rest : List Reserved} (recovering : scheduler.loop = .recoveringImports [] (.next rest)) :
      LoopStep scheduler .recoverEnded { scheduler with loop := .reaping rest }
  | halted (recovering : scheduler.loop = .recoveringImports [] .halt) :
      LoopStep scheduler .recoverEnded { scheduler with loop := .halted }
  | foundAlive {reserved : Reserved} {rest : List Reserved} (reaping : scheduler.loop = .reaping (reserved :: rest))
      (alive : (scheduler.workers reserved.process).Alive) :
      LoopStep scheduler .reapLooked { scheduler with loop := .reaping rest }
  | foundDead {reserved : Reserved} {rest : List Reserved} {fails : Bool}
      (reaping : scheduler.loop = .reaping (reserved :: rest)) (dead : ¬(scheduler.workers reserved.process).Alive) :
      LoopStep scheduler .reapLooked { scheduler with loop := .reconciling reserved fails rest }
  | reapFailed {reserved : Reserved} {rest : List Reserved}
      (reconciling : scheduler.loop = .reconciling reserved true rest)
      (present : (scheduler.jobs reserved.job).present = true) :
      LoopStep scheduler .reapFailed
        ({ scheduler with loop := .reconciling reserved false rest }.updateStatus reserved.job .failed)
  | reapDeleted {reserved : Reserved} {rest : List Reserved}
      (reconciling : scheduler.loop = .reconciling reserved false rest) :
      LoopStep scheduler .reapDeleted { scheduler with
        processes := scheduler.processes.filter fun other => other.target ≠ reserved.target
        loop := .recover (.next rest) }
  | reapEnded (reaping : scheduler.loop = .reaping []) :
      LoopStep scheduler .reapEnded { scheduler with loop := .listing }
  | pendingRead (listing : scheduler.loop = .listing) :
      LoopStep scheduler .pendingRead { scheduler with loop := .scheduling scheduler.pendingTrainJobs }
  | skipped {id : Nat} {todo : List Nat} (scheduling : scheduler.loop = .scheduling (id :: todo)) :
      LoopStep scheduler .skipped { scheduler with loop := .scheduling todo }
  | started (process : Nat) {id : Nat} {todo : List Nat} (scheduling : scheduler.loop = .scheduling (id :: todo))
      (idle : targetIsBusy (scheduler.jobs id).kind.target scheduler.targets = false)
      (running : scheduler.stopping = false) (absent : (scheduler.workers process).phase = .absent) :
      LoopStep scheduler (.started process) ({ scheduler with loop := .scheduling todo }.startJob id process .started)
  | startRaised (process : Nat) {id : Nat} {todo : List Nat} (scheduling : scheduler.loop = .scheduling (id :: todo))
      (idle : targetIsBusy (scheduler.jobs id).kind.target scheduler.targets = false)
      (running : scheduler.stopping = false) (absent : (scheduler.workers process).phase = .absent) :
      LoopStep scheduler (.startRaised process)
        ({ scheduler with loop := .polling, recovered := false }.startJob id process .dead)
  | scheduled (scheduling : scheduler.loop = .scheduling []) :
      LoopStep scheduler .scheduled { scheduler with loop := .importing }
  | noneImported (importing : scheduler.loop = .importing) :
      LoopStep scheduler .importRead { scheduler with loop := .polling }
  | importSelected {id : Nat} (importing : scheduler.loop = .importing) (idle : "dataset_import" ∉ scheduler.targets)
      (found : scheduler.nextImport = some id) :
      LoopStep scheduler .importRead { scheduler with loop := .importSelected id }
  | importUpdated {id : Nat} (selected : scheduler.loop = .importSelected id)
      (claimable : (scheduler.jobs id).ClaimableImport) :
      LoopStep scheduler .importUpdated ({ scheduler with loop := .importClaimed id }.updateStatus id .running)
  | claimedByOther {id : Nat} (selected : scheduler.loop = .importSelected id)
      (unclaimable : ¬(scheduler.jobs id).ClaimableImport) :
      LoopStep scheduler .importUpdated { scheduler with loop := .importClaimed id }
  | importStarted (process : Nat) {id : Nat} (claimed : scheduler.loop = .importClaimed id)
      (present : (scheduler.jobs id).present = true) (running : scheduler.stopping = false)
      (absent : (scheduler.workers process).phase = .absent) :
      LoopStep scheduler (.importStarted process) ({ scheduler with loop := .polling }.startJob id process .started)
  | importStartRaised (process : Nat) {id : Nat} (claimed : scheduler.loop = .importClaimed id)
      (present : (scheduler.jobs id).present = true) (running : scheduler.stopping = false)
      (absent : (scheduler.workers process).phase = .absent) :
      LoopStep scheduler (.importStartRaised process)
        ({ scheduler with loop := .polling, recovered := false }.startJob id process .dead)
  | importDropped {id : Nat} (claimed : scheduler.loop = .importClaimed id)
      (dropped : (scheduler.jobs id).present = false ∨ scheduler.stopping = true) :
      LoopStep scheduler .importDropped { scheduler with loop := .polling }
  | raisedHalting : LoopStep scheduler .raised { scheduler with loop := .halted }
  | raised : LoopStep scheduler .raised { scheduler with loop := .polling, recovered := false }
  | stopRequested : LoopStep scheduler .stopRequested { scheduler with stopping := true }
  | shutdown (polling : scheduler.loop = .polling) (stopping : scheduler.stopping = true) :
      LoopStep scheduler .shutdown { scheduler with
        workers := fun process => (scheduler.workers process).killed
        processes := []
        loop := .recover .halt }
  | restarted : LoopStep scheduler .restarted { scheduler with
        workers := fun process => (scheduler.workers process).killed
        processes := []
        loop := .polling
        recovered := false
        stopping := false }

variable {scheduler next : Scheduler} {event : SchedulerEvent}

theorem loopStep (stepped : scheduler.stepLoop event = some next) : scheduler.LoopStep event next := by
  revert stepped
  fun_cases stepLoop scheduler event <;> intro stepped <;> cases stepped
  · next found => exact .polled found.1 found.2
  · next recover => exact .recoverRead recover
  · next recovering present => exact .jobRecovered recovering present
  · next recovering => exact .importsRead recovering
  · next recovering present => exact .importRecovered recovering present
  · next recovering => exact .recovered recovering
  · next recovering => exact .resumed recovering
  · next recovering => exact .halted recovering
  · next reaping alive => exact .foundAlive reaping alive
  · next reaping dead _ _ _ => exact .foundDead reaping dead
  · next reconciling present => exact .reapFailed reconciling present
  · next reconciling => exact .reapDeleted reconciling
  · next reaping => exact .reapEnded reaping
  · next listing => exact .pendingRead listing
  · next scheduling _ => exact .skipped scheduling
  · next scheduling found => exact .started _ scheduling found.1 found.2.1 found.2.2
  · next scheduling found => exact .startRaised _ scheduling found.1 found.2.1 found.2.2
  · next scheduling => exact .scheduled scheduling
  · next importing _ => exact .noneImported importing
  · next importing idle _ found =>
    exact .importSelected importing (fun busy => idle (.inl (List.contains_iff_mem.mpr busy))) found
  · next importing _ _ => exact .noneImported importing
  · next selected claimable => exact .importUpdated selected claimable
  · next selected unclaimable => exact .claimedByOther selected unclaimable
  · next claimed found => exact .importStarted _ claimed found.1 found.2.1 found.2.2
  · next claimed found => exact .importStartRaised _ claimed found.1 found.2.1 found.2.2
  · next claimed dropped => exact .importDropped claimed dropped
  · exact .raisedHalting
  · exact .raisedHalting
  · exact .raisedHalting
  · exact .raised
  · exact .stopRequested
  · next found => exact .shutdown found.1 found.2
  · exact .restarted

theorem step_cases (stepped : scheduler.step event = some next) :
    scheduler.LoopStep event next ∨ scheduler.stepProcess event = some next ∨
      scheduler.stepRequest event = some next := by
  rcases Option.or_eq_some_iff.mp stepped with loop | ⟨-, stepped⟩
  · exact .inl (loopStep loop)
  · exact .inr ((Option.or_eq_some_iff.mp stepped).imp_right And.right)

end Scheduler

end PhysicalAiStudio.Jobs
