import PhysicalAiStudio.Remote.TrainerSetup

/-! No managed trainer is taken from under a job.

A setup holds the lock of the submissions until it is registered, so it never overlaps with one.
A deletion and an update only look for active jobs and go on, so a job may be saved behind their
check. While none is saved there, nor behind the read of an update or the inspection of a launch,
whoever takes the trainer away finds no job of it.
-/

set_option autoImplicit false

namespace PhysicalAiStudio.Remote

open Concurrency

/-- A deletion that has found no active job, or does not look for one. -/
def DeletePhase.Past : DeletePhase → Prop
  | .read connection => connection.ssh = false
  | .checked _ | .stopped | .untunneled => True
  | .absent | .concluded => False

def UpdatePhase.Past : UpdatePhase → Prop
  | .checked old new | .written old new | .restoring old new _ => new ≠ old
  | .synced old new => new ≠ old ∧ old.ssh = true
  | .absent | .read _ | .locked _ | .stopped _ | .concluded => False

def UpdatePhase.reading : UpdatePhase → Option TrainerConnection
  | .read old | .locked old | .checked old _ => some old
  | .absent | .written _ _ | .restoring _ _ _ | .synced _ _ | .stopped _ | .concluded => none

namespace TrainerSetup

def Free (setup : TrainerSetup) : Prop := ∀ job ∈ setup.jobs, job.connection.ssh = false

instance (setup : TrainerSetup) : Decidable setup.Free := inferInstanceAs (Decidable (∀ job ∈ setup.jobs, _))

/-- After the step every active job of the managed trainer has its trainer, with its connection and without a setup, and
the step takes no running container away from one. -/
def Protects (setup : TrainerSetup) (event : SetupEvent) : Prop :=
  ∀ next, setup.step event = some next →
    (∀ job ∈ next.jobs, job.connection.ssh = true → next.trainer = some job.connection ∧ next.install = none) ∧
    (∀ job ∈ setup.jobs, job ∈ next.jobs → job.connection.ssh = true → event ≠ .containerDied →
      setup.container ≠ none → next.container = setup.container)

/-- A job of the managed trainer is saved while the trainer is as it was read, no deletion or update is past its check,
none has another connection from its read, and no launch is between its inspection and its start; and while such a job is
active, no two launches are there at once. -/
def Apart (setup : TrainerSetup) : SetupEvent → Prop
  | .jobSaved request => ∀ connection, setup.submissions request = .prepared connection → connection.ssh = true →
    setup.trainer = some connection ∧ (∀ delete, ¬(setup.deletes delete).Past) ∧
      (∀ update, ¬(setup.updates update).Past ∧ ∀ old ∈ (setup.updates update).reading, old = connection) ∧
      ∀ launch, setup.launches launch ≠ .launching
  | .launchInspected _ => setup.container = none → setup.Free ∨ ∀ launch, setup.launches launch ≠ .launching
  | _ => True

variable {setup next : TrainerSetup} {event : SetupEvent} {request launch i : Nat} {submission : SubmissionPhase}
  {registration : SetupPhase} {deletion : DeletePhase} {update : UpdatePhase}

@[grind =]
theorem setSubmission_submissions : (setup.setSubmission request submission).submissions i =
    if i = request then submission else setup.submissions i := by
  simp only [setSubmission, Function.update_apply]

@[grind =]
theorem setSetup_setups : (setup.setSetup request registration).setups i =
    if i = request then registration else setup.setups i := by
  simp only [setSetup, Function.update_apply]

@[grind =]
theorem setDelete_deletes : (setup.setDelete request deletion).deletes i =
    if i = request then deletion else setup.deletes i := by
  simp only [setDelete, Function.update_apply]

@[grind =]
theorem setUpdate_updates : (setup.setUpdate request update).updates i =
    if i = request then update else setup.updates i := by
  simp only [setUpdate, Function.update_apply]

/-- What two setups have in common that differ in a launch only. -/
structure SameBut (setup next : TrainerSetup) : Prop where
  trainer : next.trainer = setup.trainer
  jobs : next.jobs = setup.jobs
  install : next.install = setup.install
  lock : next.lock = setup.lock
  portLock : next.portLock = setup.portLock
  submissions : next.submissions = setup.submissions
  setups : next.setups = setup.setups
  deletes : next.deletes = setup.deletes
  updates : next.updates = setup.updates

theorem cancelLaunch_same (setup : TrainerSetup) : SameBut setup setup.cancelLaunch := by
  rw [cancelLaunch]
  split <;> constructor <;> rfl

theorem cancelLaunch_container : setup.cancelLaunch.container = setup.container := by
  rw [cancelLaunch]
  split <;> rfl

structure Inv (setup : TrainerSetup) : Prop where
  jobs : ∀ job ∈ setup.jobs, job.connection.ssh = true → setup.trainer = some job.connection ∧ setup.install = none
  submissions : ∀ i, setup.submissions i ≠ .absent → setup.submissions i ≠ .concluded →
    setup.lock = some (.submission i) ∧ setup.install = none
  locked : ∀ i kind, setup.setups i = .locked kind → setup.lock = some (.setup i)
  registering : ∀ i kind, setup.setups i = .registering kind → setup.lock = some (.setup i) ∧ setup.jobs = []
  deletes : ∀ i, (setup.deletes i).Past → setup.Free
  checked : ∀ i old new, setup.updates i = .checked old new → setup.portLock = some i ∧
    (new ≠ old → old.ssh = true ∨ new.ssh = true → setup.Free)
  holding : ∀ i old, setup.updates i = .locked old → setup.portLock = some i
  written : ∀ i old new, setup.updates i = .written old new ∨ (∃ retry, setup.updates i = .restoring old new retry) →
    setup.portLock = some i ∧ (setup.trainer = some new ∨ setup.trainer = none) ∧ (new ≠ old → setup.Free)
  synced : ∀ i old new, setup.updates i = .synced old new → new ≠ old → old.ssh = true → setup.Free
  reading : ¬setup.Free → ∀ i, ∀ old ∈ (setup.updates i).reading, setup.trainer = some old

attribute [local grind] DeletePhase.Past UpdatePhase.Past Free

theorem exists_managed (taken : ¬setup.Free) : ∃ job ∈ setup.jobs, job.connection.ssh = true := by
  simpa [Free] using taken

/-- Without another connection in the row, a managed job or a setup is what it was. -/
theorem Inv.same (inv : setup.Inv) (same : SameBut setup next) : next.Inv := by
  obtain ⟨trainer, jobs, task, lock, portLock, submissions, setups, deletes, updates⟩ := same
  have free : next.Free ↔ setup.Free := by rw [Free, Free, jobs]
  constructor
  · rw [trainer, jobs, task]; exact inv.jobs
  · rw [submissions, lock, task]; exact inv.submissions
  · rw [setups, lock]; exact inv.locked
  · rw [setups, lock, jobs]; exact inv.registering
  · rw [deletes]; simpa only [free] using inv.deletes
  · rw [updates, portLock]; simpa only [free] using inv.checked
  · rw [updates, portLock]; exact inv.holding
  · rw [updates, portLock, trainer]; simpa only [free] using inv.written
  · rw [updates]; simpa only [free] using inv.synced
  · rw [updates, trainer]; simpa only [free] using inv.reading

theorem Inv.launching (inv : setup.Inv) (stepped : setup.stepLaunch event = some next) : next.Inv := by
  cases event with
  | launchBegan launch | launched launch | launchFailed launch failure =>
    simp only [stepLaunch, Option.ite_none_right_eq_some, Option.some.injEq] at stepped
    obtain ⟨-, rfl⟩ := stepped
    exact inv.same ⟨rfl, rfl, rfl, rfl, rfl, rfl, rfl, rfl, rfl⟩
  | launchInspected launch =>
    simp only [stepLaunch, Option.ite_none_right_eq_some] at stepped
    obtain ⟨-, stepped⟩ := stepped
    split at stepped <;> cases stepped <;> exact inv.same ⟨rfl, rfl, rfl, rfl, rfl, rfl, rfl, rfl, rfl⟩
  | probed | containerDied =>
    cases stepped
    exact inv.same ⟨rfl, rfl, rfl, rfl, rfl, rfl, rfl, rfl, rfl⟩
  | _ => cases stepped

theorem held_once {lock : Option LockHolder} {own holder : LockHolder} {P : Prop} (held : lock = some own)
    (other : holder ≠ own) (also : lock = some holder) : P :=
  absurd (Option.some.inj (also.symm.trans held)) other

theorem past_of {phase : UpdatePhase} (at_phase : setup.updates i = phase) (past : phase.Past) :
    (setup.updates i).Past := by
  rwa [at_phase]

theorem Inv.submits {lock : Option LockHolder} {jobs : List TrainerJob} (inv : setup.Inv)
    (others : ∀ holder, holder ≠ .submission request → setup.lock = some holder →
      lock = some holder ∧ (setup.jobs = [] → jobs = []))
    (own : submission ≠ .absent → submission ≠ .concluded → lock = some (.submission request) ∧ setup.install = none)
    (managed : ∀ job ∈ jobs, job.connection.ssh = true → setup.trainer = some job.connection ∧ setup.install = none)
    (free : (∃ i, (setup.deletes i).Past) ∨ (∃ i, (setup.updates i).Past) → setup.Free →
      ∀ job ∈ jobs, job.connection.ssh = false)
    (reading : setup.Free → (∀ job ∈ jobs, job.connection.ssh = false) ∨
      ∀ i, ∀ old ∈ (setup.updates i).reading, setup.trainer = some old) :
    Inv ({ setup with lock := lock, jobs := jobs }.setSubmission request submission) := by
  refine ⟨managed, fun i present going => ?_, fun i kind locked => ?_, fun i kind registering => ?_, fun i past => ?_,
    fun i old new checked => ⟨(inv.checked i old new checked).1, fun other looks => ?_⟩, inv.holding,
    fun i old new written => ?_, fun i old new synced other looks => ?_, fun taken => ?_⟩
  · rw [setSubmission_submissions] at present going
    split at present
    next same => subst same; exact own present (by simpa using going)
    next other =>
      rw [if_neg other] at going
      have known := inv.submissions i present going
      exact ⟨(others _ (by simpa using other) known.1).1, known.2⟩
  · exact (others _ (by simp) (inv.locked i kind locked)).1
  · obtain ⟨held, none⟩ := inv.registering i kind registering
    have kept := others _ (by simp) held
    exact ⟨kept.1, kept.2 none⟩
  · exact free (.inl ⟨i, past⟩) (inv.deletes i past)
  · exact free (.inr ⟨i, past_of checked other⟩) ((inv.checked i old new checked).2 other looks)
  · obtain ⟨held, row, frees⟩ := inv.written i old new written
    refine ⟨held, row, fun other => free (.inr ⟨i, ?_⟩) (frees other)⟩
    rcases written with written | ⟨retry, restoring⟩
    · exact past_of written other
    · exact past_of restoring other
  · exact free (.inr ⟨i, past_of synced ⟨other, looks⟩⟩) (inv.synced i old new synced other looks)
  · by_cases none : setup.Free
    · exact (reading none).resolve_left taken
    · exact inv.reading none

theorem Inv.submitting (inv : setup.Inv) (apart : setup.Apart event) (stepped : setup.stepSubmission event = some next) :
    next.Inv := by
  have known := inv.submissions
  cases event with
  | submissionLocked request =>
    simp only [stepSubmission, Option.ite_none_right_eq_some] at stepped
    obtain ⟨⟨-, unlocked⟩, stepped⟩ := stepped
    split at stepped
    next admits =>
      cases stepped
      exact inv.submits (by simp [unlocked]) (fun _ _ => ⟨rfl, admits.1⟩) inv.jobs (fun _ free => free) .inl
    next =>
      cases stepped
      exact inv.submits (fun _ _ held => ⟨held, id⟩) (by simp) inv.jobs (fun _ free => free) .inl
  | trainerRead request =>
    simp only [stepSubmission, Option.ite_none_right_eq_some] at stepped
    obtain ⟨locked, stepped⟩ := stepped
    have held := known request (by simp [locked]) (by simp [locked])
    split at stepped
    next connection row =>
      cases stepped
      exact inv.submits (fun _ _ held => ⟨held, id⟩) (fun _ _ => held) inv.jobs (fun _ free => free) .inl
    next =>
      cases stepped
      exact inv.submits (fun _ => held_once held.1) (by simp) inv.jobs (fun _ free => free) .inl
  | catalogRead request =>
    simp only [stepSubmission] at stepped
    split at stepped
    next connection preparing =>
      have held := known request (by simp [preparing]) (by simp [preparing])
      split at stepped
      next => cases stepped
      next =>
        cases stepped
        exact inv.submits (fun _ _ held => ⟨held, id⟩) (fun _ _ => held) inv.jobs (fun _ free => free) .inl
    next => cases stepped
  | jobSaved request =>
    simp only [stepSubmission] at stepped
    split at stepped
    next connection prepared =>
      cases stepped
      have held := known request (by simp [prepared]) (by simp [prepared])
      -- The new job: the setup lock keeps setups away from it, `apart` the deletions and updates.
      refine inv.submits (fun _ => held_once held.1) (by simp) (fun job member managed => ?_)
        (fun past free job member => ?_) fun free => ?_
      · rcases List.mem_cons.mp member with rfl | older
        · exact ⟨(apart connection prepared managed).1, held.2⟩
        · exact inv.jobs job older managed
      · rcases List.mem_cons.mp member with rfl | older
        · by_contra managed
          obtain ⟨-, deletes, updates, -⟩ := apart connection prepared (by simpa using managed)
          rcases past with ⟨i, past⟩ | ⟨i, past⟩
          · exact deletes i past
          · exact (updates i).1 past
        · exact free job older
      · cases managed : connection.ssh with
        | false =>
          refine .inl fun job member => ?_
          rcases List.mem_cons.mp member with rfl | older
          · exact managed
          · exact free job older
        | true =>
          obtain ⟨row, -, updates, -⟩ := apart connection prepared managed
          exact .inr fun i old read => by rw [row, (updates i).2 old read]
    next => cases stepped
  | submissionFailed request =>
    simp only [stepSubmission] at stepped
    split at stepped
    case h_4 => cases stepped
    all_goals
      cases stepped
      have held := known request (by simp [*]) (by simp [*])
      exact inv.submits (fun _ => held_once held.1) (by simp) inv.jobs (fun _ free => free) .inl
  | jobEnded job =>
    cases stepped
    -- With fewer jobs everything that asks for none is kept.
    have fewer : ∀ other ∈ setup.jobs.filter (fun other => other.id ≠ job), other ∈ setup.jobs :=
      fun other member => (List.mem_filter.mp member).1
    refine ⟨fun other member => inv.jobs other (fewer other member), known, inv.locked, fun i kind registering => ?_,
      fun i past other member => inv.deletes i past other (fewer other member), fun i old new checked => ?_, inv.holding,
      fun i old new written => ?_, fun i old new synced apart looks other member => ?_, fun taken => ?_⟩
    · obtain ⟨held, none⟩ := inv.registering i kind registering
      exact ⟨held, by simp [none]⟩
    · obtain ⟨held, free⟩ := inv.checked i old new checked
      exact ⟨held, fun apart looks other member => free apart looks other (fewer other member)⟩
    · obtain ⟨held, row, free⟩ := inv.written i old new written
      exact ⟨held, row, fun apart other member => free apart other (fewer other member)⟩
    · exact inv.synced i old new synced apart looks other (fewer other member)
    · exact inv.reading fun free => taken fun other member => free other (fewer other member)
  | _ => cases stepped

theorem Inv.registers {lock : Option LockHolder} {install : Option SetupTask} (inv : setup.Inv)
    (others : ∀ holder, holder ≠ .setup request → setup.lock = some holder → lock = some holder)
    (own : ∀ kind, registration = .locked kind ∨ registration = .registering kind → lock = some (.setup request))
    (none : ∀ kind, registration = .registering kind → setup.jobs = [])
    (begins : install = setup.install ∨ install = .none ∨
      setup.jobs = [] ∧ ∃ i, setup.lock = some (.setup i)) :
    Inv ({ setup with lock := lock, install := install }.setSetup request registration) := by
  refine ⟨fun job member managed => ?_, fun i present going => ?_, fun i kind locked => ?_,
    fun i kind registering => ?_, inv.deletes, inv.checked, inv.holding, inv.written, inv.synced, inv.reading⟩
  · have known := inv.jobs job member managed
    refine ⟨known.1, ?_⟩
    -- An installation begins without a job, and only under the lock of its setup.
    rcases begins with same | idle | ⟨empty, -⟩
    · exact same.trans known.2
    · exact idle
    · exact absurd member (by simp [setSetup, empty])
  · have known := inv.submissions i present going
    refine ⟨others _ (by simp) known.1, ?_⟩
    rcases begins with same | idle | ⟨-, holder, held⟩
    · exact same.trans known.2
    · exact idle
    · exact held_once held (by simp) known.1
  · rw [setSetup_setups] at locked
    split at locked
    next same => subst same; exact own kind (.inl locked)
    next other => exact others _ (by simpa using other) (inv.locked i kind locked)
  · rw [setSetup_setups] at registering
    split at registering
    next same => subst same; exact ⟨own kind (.inr registering), none kind registering⟩
    next other =>
      obtain ⟨held, empty⟩ := inv.registering i kind registering
      exact ⟨others _ (by simpa using other) held, empty⟩

/-- What the background task does is not seen by the requests. -/
theorem Inv.sets {install : Option SetupTask} (inv : setup.Inv) (same : SameBut setup next)
    (going : install = none ∨ setup.install ≠ none) : Inv { next with install := install } := by
  have inv := inv.same same
  rw [← same.install] at going
  refine ⟨fun job member managed => ?_, fun i present concluded => ?_, inv.locked, inv.registering, inv.deletes, inv.checked,
    inv.holding, inv.written, inv.synced, inv.reading⟩
  · have known := inv.jobs job member managed
    exact ⟨known.1, going.elim id fun going => absurd known.2 going⟩
  · have known := inv.submissions i present concluded
    exact ⟨known.1, going.elim id fun going => absurd known.2 going⟩

theorem Inv.setting (inv : setup.Inv) (stepped : setup.stepSetup event = some next) : next.Inv := by
  cases event with
  | setupRequested request kind =>
    simp only [stepSetup, Option.ite_none_right_eq_some] at stepped
    obtain ⟨-, stepped⟩ := stepped
    split at stepped
    · cases stepped
      refine inv.registers (fun _ _ held => held) (fun kind locked => ?_) (fun kind locked => ?_) (.inl rfl)
      all_goals
        split at locked <;> simp at locked
    · cases stepped
      exact inv.registers (fun _ _ held => held) (by simp) (by simp) (.inl rfl)
  | setupLocked request =>
    simp only [stepSetup] at stepped
    split at stepped
    next kind requested =>
      split at stepped
      next unlocked =>
        split at stepped
        · cases stepped
          exact inv.registers (by simp [unlocked]) (fun _ _ => rfl) (by simp) (.inl rfl)
        · cases stepped
          exact inv.registers (fun _ _ held => held) (by simp) (by simp) (.inl rfl)
      next => cases stepped
    next => cases stepped
  | setupChecked request =>
    simp only [stepSetup] at stepped
    split at stepped
    next kind locked =>
      have held := inv.locked request kind locked
      split at stepped
      next empty =>
        cases stepped
        exact inv.registers (fun _ _ held => held) (fun _ _ => held) (fun _ _ => empty) (.inl rfl)
      next =>
        cases stepped
        exact inv.registers (fun _ => held_once held) (by simp) (by simp) (.inl rfl)
    next => cases stepped
  | setupRegistered request =>
    simp only [stepSetup] at stepped
    split at stepped
    next registering =>
      cases stepped
      -- No managed job is active under the lock, so the install begins on an idle trainer.
      obtain ⟨held, empty⟩ := inv.registering request _ registering
      have same := cancelLaunch_same setup
      rw [← same.lock] at held
      rw [← same.jobs] at empty
      have canceled : Inv { setup.cancelLaunch with failure := none } :=
        (inv.same same).same ⟨rfl, rfl, rfl, rfl, rfl, rfl, rfl, rfl, rfl⟩
      exact canceled.registers (fun _ => held_once held) (by simp) (by simp) (.inr (.inr ⟨empty, request, held⟩))
    next registering =>
      cases stepped
      obtain ⟨held, empty⟩ := inv.registering request _ registering
      exact inv.registers (fun _ => held_once held) (by simp) (by simp) (.inr (.inr ⟨empty, request, held⟩))
    next => cases stepped
  | setupInspected =>
    simp only [stepSetup] at stepped
    split at stepped
    next kind working =>
      split at stepped
      · cases stepped
        have same : SameBut setup { setup with failure := none } := ⟨rfl, rfl, rfl, rfl, rfl, rfl, rfl, rfl, rfl⟩
        exact inv.sets same (.inr (by simp [working]))
      · cases stepped
        exact inv.same ⟨rfl, rfl, rfl, rfl, rfl, rfl, rfl, rfl, rfl⟩
    next => cases stepped
  | setupLaunched =>
    simp only [stepSetup] at stepped
    split at stepped
    next kind launching =>
      cases stepped
      have same : SameBut setup setup.runContainer := ⟨rfl, rfl, rfl, rfl, rfl, rfl, rfl, rfl, rfl⟩
      exact inv.sets same (.inr (by simp [launching]))
    next => cases stepped
  | hostRebooted =>
    simp only [stepSetup, Option.ite_none_right_eq_some, Option.some.injEq] at stepped
    obtain ⟨-, rfl⟩ := stepped
    exact inv.same ⟨rfl, rfl, rfl, rfl, rfl, rfl, rfl, rfl, rfl⟩
  | setupEnded failure =>
    simp only [stepSetup] at stepped
    split at stepped
    · cases stepped
    · cases stepped
      have same : SameBut setup { setup with failure := failure } := ⟨rfl, rfl, rfl, rfl, rfl, rfl, rfl, rfl, rfl⟩
      exact inv.sets same (.inl rfl)
  | _ => cases stepped

/-- A deletion moves on, and takes the row where no managed job is active. -/
theorem Inv.deletes_moved (inv : setup.Inv) (same : SameBut setup next) (past : deletion.Past → setup.Free) :
    Inv (next.setDelete request deletion) := by
  have inv := inv.same same
  have free : next.Free ↔ setup.Free := by rw [Free, Free, same.jobs]
  refine ⟨inv.jobs, inv.submissions, inv.locked, inv.registering, fun i there => ?_, inv.checked, inv.holding, inv.written,
    inv.synced, inv.reading⟩
  rw [setDelete_deletes] at there
  split at there
  · exact free.mpr (past there)
  · exact inv.deletes i there

theorem Inv.deleting (inv : setup.Inv) (stepped : setup.stepDelete event = some next) : next.Inv := by
  have same : SameBut setup setup := ⟨rfl, rfl, rfl, rfl, rfl, rfl, rfl, rfl, rfl⟩
  cases event with
  | deleteRead request =>
    simp only [stepDelete, Option.ite_none_right_eq_some] at stepped
    obtain ⟨-, stepped⟩ := stepped
    split at stepped
    next connection row =>
      cases stepped
      refine inv.deletes_moved same fun past job member => ?_
      split at past
      next =>
        -- a managed job would have a managed trainer
        by_contra managed
        have known := inv.jobs job member (by simpa using managed)
        cases row.symm.trans known.1
        exact managed past
      next => exact past.elim
    next =>
      cases stepped
      exact inv.deletes_moved same False.elim
  | deleteChecked request =>
    simp only [stepDelete] at stepped
    split at stepped
    next connection read =>
      split at stepped
      next => cases stepped; exact inv.deletes_moved same False.elim
      next unlooked =>
        cases stepped
        refine inv.deletes_moved same fun _ => ?_
        cases managed : connection.ssh with
        | false => exact inv.deletes request (by rw [read]; exact managed)
        | true =>
          have empty : setup.jobs = [] := by simpa [managed] using unlooked
          simp [Free, empty]
    next => cases stepped
  | deleteStopped request forgetLocally =>
    simp only [stepDelete] at stepped
    split at stepped
    next connection checked =>
      have free := inv.deletes request (by rw [checked]; trivial)
      have canceled := cancelLaunch_same setup
      split at stepped
      · cases stepped
        exact inv.deletes_moved ⟨canceled.trainer, canceled.jobs, canceled.install, canceled.lock, canceled.portLock,
          canceled.submissions, canceled.setups, canceled.deletes, canceled.updates⟩ fun _ => free
      · cases stepped
        exact inv.deletes_moved canceled fun _ => free
    next => cases stepped
  | deleteUntunneled request =>
    simp only [stepDelete, Option.ite_none_right_eq_some, Option.some.injEq] at stepped
    obtain ⟨stopped, rfl⟩ := stepped
    exact inv.deletes_moved same fun _ => inv.deletes request (by rw [stopped]; trivial)
  | deleteRemoved request =>
    simp only [stepDelete, Option.ite_none_right_eq_some, Option.some.injEq] at stepped
    obtain ⟨untunneled, rfl⟩ := stepped
    have free := inv.deletes request (by rw [untunneled]; trivial)
    have removed : Inv { setup with trainer := none } := by
      refine ⟨fun job member managed => ?_, inv.submissions, inv.locked, inv.registering, inv.deletes, inv.checked,
        inv.holding, fun i old new written => ?_, inv.synced, fun taken => absurd free taken⟩
      · exact absurd (free job member) (by simp [managed])
      · obtain ⟨held, -, frees⟩ := inv.written i old new written
        exact ⟨held, .inr rfl, frees⟩
    exact removed.deletes_moved ⟨rfl, rfl, rfl, rfl, rfl, rfl, rfl, rfl, rfl⟩ False.elim
  | deleteFailed request =>
    simp only [stepDelete] at stepped
    split at stepped
    case h_5 => cases stepped
    all_goals
      cases stepped
      exact inv.deletes_moved same False.elim
  | _ => cases stepped

def Knows (setup : TrainerSetup) (request : Nat) : UpdatePhase → Prop
  | .read old => ¬setup.Free → setup.trainer = some old
  | .locked old => setup.portLock = some request ∧ (¬setup.Free → setup.trainer = some old)
  | .checked old new => setup.portLock = some request ∧ (new ≠ old → old.ssh = true ∨ new.ssh = true → setup.Free) ∧
    (¬setup.Free → setup.trainer = some old)
  | .written old new | .restoring old new _ =>
    setup.portLock = some request ∧ (setup.trainer = some new ∨ setup.trainer = none) ∧ (new ≠ old → setup.Free)
  | .synced old new => new ≠ old → old.ssh = true → setup.Free
  | .absent | .stopped _ | .concluded => True

theorem Inv.knows (inv : setup.Inv) (i : Nat) : setup.Knows i (setup.updates i) := by
  have reading (taken : ¬setup.Free) := inv.reading taken i
  cases phase : setup.updates i with
  | read old => exact fun taken => reading taken old (by rw [phase]; rfl)
  | locked old => exact ⟨inv.holding i old phase, fun taken => reading taken old (by rw [phase]; rfl)⟩
  | checked old new =>
    obtain ⟨held, free⟩ := inv.checked i old new phase
    exact ⟨held, free, fun taken => reading taken old (by rw [phase]; rfl)⟩
  | written old new => exact inv.written i old new (.inl phase)
  | restoring old new retry => exact inv.written i old new (.inr ⟨retry, phase⟩)
  | synced old new => exact inv.synced i old new phase
  | absent | stopped _ | concluded => trivial

theorem Knows.reading {phase : UpdatePhase} {old : TrainerConnection} (knows : setup.Knows request phase)
    (read : old ∈ phase.reading) (taken : ¬setup.Free) : setup.trainer = some old := by
  cases phase with
  | read other => cases read; exact knows taken
  | locked other => cases read; exact knows.2 taken
  | checked other new => cases read; exact knows.2.2 taken
  | _ => cases read

theorem Inv.updates_moved {trainer : Option TrainerConnection} {portLock : Option Nat} (inv : setup.Inv)
    (managed : ∀ job ∈ setup.jobs, job.connection.ssh = true → trainer = some job.connection)
    (others : ∀ i, i ≠ request → setup.portLock = some i → portLock = some i ∧ trainer = setup.trainer)
    (own : Knows { setup with trainer := trainer, portLock := portLock } request update) :
    Inv ({ setup with trainer := trainer, portLock := portLock }.setUpdate request update) := by
  refine ⟨fun job member ssh => ⟨managed job member ssh, (inv.jobs job member ssh).2⟩, inv.submissions, inv.locked,
    inv.registering, inv.deletes, fun i old new checked => ?_, fun i old locked => ?_, fun i old new written => ?_,
    fun i old new synced => ?_, fun taken i old read => ?_⟩
  · rw [setUpdate_updates] at checked
    split at checked
    next same => subst same; rw [checked] at own; exact ⟨own.1, own.2.1⟩
    next other =>
      obtain ⟨held, free⟩ := inv.checked i old new checked
      exact ⟨(others i other held).1, free⟩
  · rw [setUpdate_updates] at locked
    split at locked
    next same => subst same; rw [locked] at own; exact own.1
    next other => exact (others i other (inv.holding i old locked)).1
  · simp only [setUpdate_updates] at written
    by_cases same : i = request
    · subst same
      simp only [↓reduceIte] at written
      rcases written with written | ⟨retry, restoring⟩
      · rw [written] at own; exact own
      · rw [restoring] at own; exact own
    · simp only [if_neg same] at written
      obtain ⟨held, row, free⟩ := inv.written i old new written
      obtain ⟨kept, unmoved⟩ := others i same held
      exact ⟨kept, by rw [← unmoved] at row; exact row, free⟩
  · rw [setUpdate_updates] at synced
    split at synced
    next same => subst same; rw [synced] at own; exact own
    next other => exact inv.synced i old new synced
  · rw [setUpdate_updates] at read
    split at read
    next => exact Knows.reading own read taken
    next other =>
      -- the row of an active job is not moved
      have busy : ¬setup.Free := taken
      obtain ⟨job, member, ssh⟩ := exists_managed busy
      have row := inv.reading busy i old read
      rw [(inv.jobs job member ssh).1] at row
      exact (managed job member ssh).trans row

theorem held_port {i : Nat} {P : Prop} (held : setup.portLock = some request) (other : i ≠ request)
    (also : setup.portLock = some i) : P :=
  absurd (Option.some.inj (also.symm.trans held)) other

/-- An update that changes neither the row nor the port lock. -/
theorem Inv.updates_phase (inv : setup.Inv) (own : setup.Knows request update) :
    (setup.setUpdate request update).Inv :=
  inv.updates_moved (fun job member managed => (inv.jobs job member managed).1) (fun _ _ held => ⟨held, rfl⟩) own

theorem Inv.updates_unlocked (inv : setup.Inv) (held : setup.portLock = some request)
    (own : Knows { setup with portLock := none } request update) :
    Inv ({ setup with portLock := none }.setUpdate request update) :=
  inv.updates_moved (fun job member managed => (inv.jobs job member managed).1) (fun _ => held_port held) own

/-- What each step of an update finds, and what it leaves. -/
inductive UpdateStep (setup : TrainerSetup) : SetupEvent → TrainerSetup → Prop where
  | read {request : Nat} {connection : TrainerConnection} (row : setup.trainer = some connection) :
      UpdateStep setup (.updateRead request)
        (setup.setUpdate request (if setup.install = none then .read connection else .concluded))
  | missing {request : Nat} : UpdateStep setup (.updateRead request) (setup.setUpdate request .concluded)
  | locked {request : Nat} {old : TrainerConnection} (read : setup.updates request = .read old)
      (unlocked : setup.portLock = none) :
      UpdateStep setup (.updateLocked request) ({ setup with portLock := some request }.setUpdate request (.locked old))
  | refused {request : Nat} {old new : TrainerConnection} (locked : setup.updates request = .locked old) :
      UpdateStep setup (.updateChecked request new) ({ setup with portLock := none }.setUpdate request .concluded)
  | checked {request : Nat} {old new : TrainerConnection} (locked : setup.updates request = .locked old)
      (looked : ¬(new ≠ old ∧ (old.ssh = true ∨ new.ssh = true) ∧ setup.jobs ≠ [])) :
      UpdateStep setup (.updateChecked request new) (setup.setUpdate request (.checked old new))
  | written {request : Nat} {old new : TrainerConnection} (checked : setup.updates request = .checked old new) :
      UpdateStep setup (.updateWritten request) ({ setup with trainer := some new }.setUpdate request (.written old new))
  | retried {request : Nat} {old new : TrainerConnection} (checked : setup.updates request = .checked old new) :
      UpdateStep setup (.updateRetried request) (setup.setUpdate request (.locked old))
  | synced {request : Nat} {old new : TrainerConnection} (written : setup.updates request = .written old new) :
      UpdateStep setup (.tunnelSynced request) ({ setup with portLock := none }.setUpdate request (.synced old new))
  | restoring {request : Nat} {old new : TrainerConnection} {retry : Bool}
      (written : setup.updates request = .written old new) :
      UpdateStep setup (.tunnelFailed request retry) (setup.setUpdate request (.restoring old new retry))
  | restored {request : Nat} {old new : TrainerConnection} {retry : Bool}
      (restoring : setup.updates request = .restoring old new retry) :
      UpdateStep setup (.updateRestored request) ({ setup with trainer := some old }.setUpdate request (.locked old))
  | reverted {request : Nat} {old new : TrainerConnection} {retry : Bool}
      (restoring : setup.updates request = .restoring old new retry) :
      UpdateStep setup (.updateRestored request)
        ({ setup with trainer := some old, portLock := none }.setUpdate request .concluded)
  | replaced {request : Nat} {old new : TrainerConnection} (synced : setup.updates request = .synced old new)
      (moved : new ≠ old ∧ old.ssh = true) :
      UpdateStep setup (.oldStopped request)
        ({ setup.cancelLaunch with container := none, failure := none }.setUpdate request (.stopped new))
  | canceled {request : Nat} {old new : TrainerConnection} (synced : setup.updates request = .synced old new)
      (moved : new ≠ old ∧ old.ssh = true) :
      UpdateStep setup (.oldStopped request) (setup.cancelLaunch.setUpdate request (.stopped new))
  | kept {request : Nat} {new : TrainerConnection} :
      UpdateStep setup (.oldStopped request) (setup.setUpdate request (.stopped new))
  | relaunched {request launch : Nat} :
      UpdateStep setup (.launchCreated request launch)
        ({ setup with
          launches := Function.update setup.launches launch .created
          tracked := some launch }.setUpdate request .concluded)
  | unlaunched {request launch : Nat} :
      UpdateStep setup (.launchCreated request launch) (setup.setUpdate request .concluded)
  | unlocked {request : Nat} (held : (∃ old, setup.updates request = .locked old) ∨
      ∃ old new, setup.updates request = .checked old new) :
      UpdateStep setup (.updateFailed request) ({ setup with portLock := none }.setUpdate request .concluded)
  | failed {request : Nat} : UpdateStep setup (.updateFailed request) (setup.setUpdate request .concluded)

theorem updateStep (stepped : setup.stepUpdate event = some next) : setup.UpdateStep event next := by
  revert stepped
  fun_cases stepUpdate setup event <;> intro stepped <;> cases stepped
  · next row => exact .read row
  · exact .missing
  · next read unlocked => exact .locked read unlocked
  · next locked _ => exact .refused locked
  · next locked looked => exact .checked locked looked
  · next checked => exact .written checked
  · next checked => exact .retried checked
  · next written => exact .synced written
  · next written => exact .restoring written
  · next restoring => exact .restored restoring
  · next restoring _ _ => exact .reverted restoring
  · next synced moved _ _ => exact .replaced synced moved
  · next synced moved _ _ => exact .canceled synced moved
  · exact .kept
  · exact .relaunched
  · exact .unlaunched
  · next locked => exact .unlocked (.inl ⟨_, locked⟩)
  · next checked => exact .unlocked (.inr ⟨_, _, checked⟩)
  · exact .failed

theorem Inv.written_row {old new : TrainerConnection} (inv : setup.Inv)
    (checked : setup.updates request = .checked old new) :
    Inv ({ setup with trainer := some new }.setUpdate request (.written old new)) := by
  have knows := inv.knows request
  rw [checked] at knows
  obtain ⟨held, free, read⟩ := knows
  have kept (taken : ¬setup.Free) : new = old ∧ setup.trainer = some old := by
    refine ⟨?_, read taken⟩
    by_contra other
    obtain ⟨job, member, ssh⟩ := exists_managed taken
    have row := (inv.jobs job member ssh).1.symm.trans (read taken)
    exact taken (free other (.inl (by cases row; exact ssh)))
  refine @Inv.updates_moved setup _ _ _ setup.portLock inv (fun job member managed => ?_) (fun _ => held_port held)
    ⟨held, .inl rfl, fun other => ?_⟩
  · obtain ⟨same, row⟩ := kept fun none => by simp [none job member] at managed
    rw [same, ← row]
    exact (inv.jobs job member managed).1
  · by_contra taken
    exact other (kept taken).1

/-- The row that is written back is that of every active job. -/
theorem Inv.restored_row {old new : TrainerConnection} {retry : Bool} (inv : setup.Inv)
    (restoring : setup.updates request = .restoring old new retry) :
    setup.portLock = some request ∧
      ∀ job ∈ setup.jobs, job.connection.ssh = true → some old = some job.connection := by
  obtain ⟨held, row, free⟩ := inv.written request old new (.inr ⟨retry, restoring⟩)
  refine ⟨held, fun job member managed => ?_⟩
  have known := (inv.jobs job member managed).1
  by_cases same : new = old
  · rcases row with row | gone
    · rw [← same, ← row, known]
    · simp [gone] at known
  · exact absurd (free same job member) (by simp [managed])

theorem Inv.old_stopped {new : TrainerConnection} (inv : setup.Inv) (same : SameBut setup next) :
    Inv (next.setUpdate request (.stopped new)) :=
  (inv.same same).updates_phase trivial

theorem Inv.updating (inv : setup.Inv) (stepped : setup.UpdateStep event next) : next.Inv := by
  have jobs (job : TrainerJob) (member : job ∈ setup.jobs) (managed : job.connection.ssh = true) :=
    (inv.jobs job member managed).1
  have knows := inv.knows
  cases stepped with
  | read row =>
    refine inv.updates_phase ?_
    split
    · exact fun _ => row
    · trivial
  | missing | unlaunched | failed => exact inv.updates_phase trivial
  | @locked request old read unlocked =>
    have known := knows request
    rw [read] at known
    exact inv.updates_moved jobs (by simp [unlocked]) ⟨rfl, known⟩
  | refused locked => exact inv.updates_unlocked (inv.holding _ _ locked) trivial
  | @checked request old new locked looked =>
    have known := knows request
    rw [locked] at known
    refine inv.updates_phase ⟨known.1, fun other looks => ?_, known.2⟩
    have empty : setup.jobs = [] := by
      by_contra jobs
      exact looked ⟨other, looks, jobs⟩
    simp [Free, empty]
  | written checked => exact inv.written_row checked
  | @retried request old new checked =>
    have known := knows request
    rw [checked] at known
    exact inv.updates_phase ⟨known.1, known.2.2⟩
  | synced written =>
    obtain ⟨held, -, free⟩ := inv.written _ _ _ (.inl written)
    exact inv.updates_unlocked held fun other _ => free other
  | restoring written => exact inv.updates_phase (inv.written _ _ _ (.inl written))
  | restored restoring =>
    obtain ⟨held, managed⟩ := inv.restored_row restoring
    exact @Inv.updates_moved setup _ _ _ setup.portLock inv managed (fun _ => held_port held) ⟨held, fun _ => rfl⟩
  | reverted restoring =>
    obtain ⟨held, managed⟩ := inv.restored_row restoring
    exact inv.updates_moved managed (fun _ => held_port held) trivial
  | replaced =>
    have same := cancelLaunch_same setup
    exact inv.old_stopped ⟨same.trainer, same.jobs, same.install, same.lock, same.portLock, same.submissions, same.setups,
      same.deletes, same.updates⟩
  | canceled => exact inv.old_stopped (cancelLaunch_same setup)
  | kept => exact inv.updates_phase trivial
  | @relaunched request launch =>
    have same : SameBut setup { setup with
        launches := Function.update setup.launches launch .created
        tracked := some launch } := ⟨rfl, rfl, rfl, rfl, rfl, rfl, rfl, rfl, rfl⟩
    exact (inv.same same).updates_phase trivial
  | unlocked held =>
    refine inv.updates_unlocked ?_ trivial
    rcases held with ⟨old, locked⟩ | ⟨old, new, checked⟩
    · exact inv.holding _ old locked
    · exact (inv.checked _ old new checked).1

theorem step_cases (stepped : setup.step event = some next) :
    setup.stepSubmission event = some next ∨ setup.stepSetup event = some next ∨ setup.stepDelete event = some next ∨
      setup.stepUpdate event = some next ∨ setup.stepLaunch event = some next := by
  rcases Option.or_eq_some_iff.mp stepped with submission | ⟨-, stepped⟩
  · exact .inl submission
  rcases Option.or_eq_some_iff.mp stepped with registered | ⟨-, stepped⟩
  · exact .inr (.inl registered)
  rcases Option.or_eq_some_iff.mp stepped with deleted | ⟨-, stepped⟩
  · exact .inr (.inr (.inl deleted))
  · exact .inr (.inr (.inr ((Option.or_eq_some_iff.mp stepped).imp_right And.right)))

theorem Inv.step (inv : setup.Inv) (apart : setup.Apart event) (stepped : setup.step event = some next) : next.Inv := by
  rcases step_cases stepped with submission | registered | deleted | updated | launched
  · exact inv.submitting apart submission
  · exact inv.setting registered
  · exact inv.deleting deleted
  · exact inv.updating (updateStep updated)
  · exact inv.launching launched

theorem Inv.initial (connection : TrainerConnection) : (trainerSetup connection).initial.Inv := by
  constructor <;> simp [trainerSetup, DeletePhase.Past, UpdatePhase.reading]

/-! ### Who starts the container -/

structure Starting (setup : TrainerSetup) : Prop where
  empty : ¬setup.Free → ∀ i, setup.launches i = .launching → setup.container = none
  alone : ¬setup.Free → ∀ i j, setup.launches i = .launching → setup.launches j = .launching → i = j

/-- What neither starts a container nor a launch of it. -/
structure Idles (setup next : TrainerSetup) : Prop where
  container : next.container = setup.container ∨ next.container = none
  launches : ∀ i, next.launches i = .launching → setup.launches i = .launching

theorem Starting.kept (starting : setup.Starting) (free : setup.Free → next.Free) (idles : Idles setup next) :
    next.Starting := by
  refine ⟨fun taken i launching => ?_, fun taken i j first second => ?_⟩
  · have empty := starting.empty (mt free taken) i (idles.launches i launching)
    exact idles.container.elim (fun same => same.trans empty) id
  · exact starting.alone (mt free taken) i j (idles.launches i first) (idles.launches j second)

theorem cancelLaunch_launches (launching : setup.cancelLaunch.launches i = .launching) :
    setup.launches i = .launching := by
  rw [cancelLaunch] at launching
  split at launching
  next launch tracked =>
    simp only [Function.update_apply] at launching
    split at launching
    · cases launching
    · exact launching
  next => exact launching

theorem endLaunch_launches (launching : (setup.endLaunch launch).launches i = .launching) :
    setup.launches i = .launching ∧ i ≠ launch := by
  simp only [endLaunch, Function.update_apply] at launching
  split at launching
  · cases launching
  next other => exact ⟨launching, other⟩

theorem stepSubmission_idles (stepped : setup.stepSubmission event = some next) :
    next.container = setup.container ∧ next.launches = setup.launches := by
  cases event <;> simp only [stepSubmission] at stepped <;> grind -linarith [setSubmission]

theorem stepSetup_jobs (stepped : setup.stepSetup event = some next) : next.jobs = setup.jobs := by
  cases event <;> simp only [stepSetup] at stepped <;>
    grind -linarith [setSetup, SameBut.jobs, cancelLaunch_same, runContainer]

/-- A setup touches the container in its task only, which is not there under a managed job. -/
theorem stepSetup_idles (stepped : setup.stepSetup event = some next) (idle : setup.install = none) :
    next.jobs = setup.jobs ∧ next.container = setup.container ∧
      ∀ i, next.launches i = .launching → setup.launches i = .launching := by
  cases event with
  | setupInspected | setupLaunched | hostRebooted => simp [stepSetup, idle] at stepped
  | setupRegistered request =>
    simp only [stepSetup] at stepped
    split at stepped
    · cases stepped
      exact ⟨(cancelLaunch_same setup).jobs, cancelLaunch_container, fun _ => cancelLaunch_launches⟩
    · cases stepped
      exact ⟨rfl, rfl, fun _ => id⟩
    · cases stepped
  | _ =>
    simp only [stepSetup] at stepped
    grind -linarith [setSetup]

theorem stepDelete_idles (stepped : setup.stepDelete event = some next) :
    next.jobs = setup.jobs ∧ Idles setup next := by
  cases event with
  | deleteStopped request forgetLocally =>
    simp only [stepDelete] at stepped
    split at stepped
    next =>
      have jobs := (cancelLaunch_same setup).jobs
      split at stepped
      · cases stepped
        exact ⟨jobs, .inr rfl, fun _ => cancelLaunch_launches⟩
      · cases stepped
        exact ⟨jobs, .inl cancelLaunch_container, fun _ => cancelLaunch_launches⟩
    next => cases stepped
  | _ =>
    have same : next.jobs = setup.jobs ∧ next.container = setup.container ∧ next.launches = setup.launches := by
      simp only [stepDelete] at stepped
      grind -linarith [setDelete]
    exact ⟨same.1, .inl same.2.1, fun i launching => same.2.2 ▸ launching⟩

theorem UpdateStep.idles (stepped : setup.UpdateStep event next) : next.jobs = setup.jobs ∧ Idles setup next := by
  cases stepped with
  -- Stopping the old container cancels its launch and may leave none running.
  | replaced => exact ⟨(cancelLaunch_same setup).jobs, .inr rfl, fun _ => cancelLaunch_launches⟩
  | canceled => exact ⟨(cancelLaunch_same setup).jobs, .inl cancelLaunch_container, fun _ => cancelLaunch_launches⟩
  | relaunched =>
    refine ⟨rfl, .inl rfl, fun i launching => ?_⟩
    simp only [setUpdate, Function.update_apply] at launching
    split at launching
    · cases launching
    · exact launching
  | _ => exact ⟨rfl, .inl rfl, fun _ => id⟩

theorem Starting.submitting (starting : setup.Starting) (apart : setup.Apart event)
    (stepped : setup.stepSubmission event = some next) : next.Starting := by
  obtain ⟨container, launches⟩ := stepSubmission_idles stepped
  have idles : Idles setup next := ⟨.inl container, fun i launching => launches ▸ launching⟩
  cases event with
  | jobSaved request =>
    simp only [stepSubmission] at stepped
    split at stepped
    next connection prepared =>
      cases stepped
      cases managed : connection.ssh with
      | false =>
        refine starting.kept (fun free job member => ?_) idles
        rcases List.mem_cons.mp member with rfl | older
        · exact managed
        · exact free job older
      | true =>
        have none := (apart connection prepared managed).2.2.2
        exact ⟨fun _ i launching => absurd launching (none i), fun _ i _ launching => absurd launching (none i)⟩
    next => cases stepped
  | jobEnded job =>
    cases stepped
    exact starting.kept (fun free other member => free other (List.mem_filter.mp member).1) idles
  | _ =>
    refine starting.kept (fun free => ?_) idles
    have jobs : next.jobs = setup.jobs := by
      simp only [stepSubmission] at stepped
      grind -linarith [setSubmission]
    rwa [Free, jobs]

theorem Starting.launching (starting : setup.Starting) (apart : setup.Apart event)
    (stepped : setup.stepLaunch event = some next) : next.Starting := by
  cases event with
  | launchBegan launch =>
    simp only [stepLaunch, Option.ite_none_right_eq_some, Option.some.injEq] at stepped
    obtain ⟨-, rfl⟩ := stepped
    refine starting.kept id ⟨.inl rfl, fun i launching => ?_⟩
    simp only [Function.update_apply] at launching
    split at launching
    · cases launching
    · exact launching
  | launchInspected launch =>
    simp only [stepLaunch, Option.ite_none_right_eq_some] at stepped
    obtain ⟨-, stepped⟩ := stepped
    split at stepped
    next empty =>
      cases stepped
      -- no other launch has found it so
      have own (taken : ¬setup.Free) (i : Nat)
          (launching : Function.update setup.launches launch .launching i = .launching) : i = launch := by
        by_contra other
        rw [Function.update_of_ne other] at launching
        exact ((apart empty).resolve_left taken) i launching
      exact ⟨fun _ _ _ => empty, fun taken i j first second => (own taken i first).trans (own taken j second).symm⟩
    next =>
      cases stepped
      exact starting.kept id ⟨.inl rfl, fun _ launching => (endLaunch_launches launching).1⟩
  | launched launch =>
    simp only [stepLaunch, Option.ite_none_right_eq_some, Option.some.injEq] at stepped
    obtain ⟨own, rfl⟩ := stepped
    have none (taken : ¬setup.Free) (i : Nat) : (setup.runContainer.endLaunch launch).launches i ≠ .launching := by
      intro launching
      obtain ⟨also, other⟩ := endLaunch_launches launching
      exact other (starting.alone taken i launch also own)
    exact ⟨fun taken i launching => absurd launching (none taken i),
      fun taken i _ launching => absurd launching (none taken i)⟩
  | launchFailed launch failure =>
    simp only [stepLaunch, Option.ite_none_right_eq_some, Option.some.injEq] at stepped
    obtain ⟨-, rfl⟩ := stepped
    refine starting.kept id ⟨.inl rfl, fun i launching => ?_⟩
    exact (endLaunch_launches launching).1
  | probed =>
    cases stepped
    exact starting.kept id ⟨.inl rfl, fun _ => id⟩
  | containerDied =>
    cases stepped
    exact starting.kept id ⟨.inr rfl, fun _ => id⟩
  | _ => cases stepped

theorem Starting.step (starting : setup.Starting) (inv : setup.Inv) (apart : setup.Apart event)
    (stepped : setup.step event = some next) : next.Starting := by
  have same (jobs : next.jobs = setup.jobs) (free : setup.Free) : next.Free := by rwa [Free, jobs]
  rcases step_cases stepped with submission | registered | deleted | updated | launched
  · exact starting.submitting apart submission
  · by_cases free : setup.Free
    · have still := same (stepSetup_jobs registered) free
      exact ⟨fun taken => absurd still taken, fun taken => absurd still taken⟩
    · obtain ⟨job, member, managed⟩ := exists_managed free
      obtain ⟨jobs, container, launches⟩ := stepSetup_idles registered (inv.jobs job member managed).2
      exact starting.kept (same jobs) ⟨.inl container, launches⟩
  · obtain ⟨jobs, idles⟩ := stepDelete_idles deleted
    exact starting.kept (same jobs) idles
  · obtain ⟨jobs, idles⟩ := (updateStep updated).idles
    exact starting.kept (same jobs) idles
  · exact starting.launching apart launched

theorem Starting.initial (connection : TrainerConnection) : (trainerSetup connection).initial.Starting where
  empty taken := absurd (fun _ member => by cases member) taken
  alone taken := absurd (fun _ member => by cases member) taken

theorem Inv.keeps_container (inv : setup.Inv) (starting : setup.Starting) (stepped : setup.step event = some next)
    (taken : ¬setup.Free) (alive : event ≠ .containerDied) (runs : setup.container ≠ none) :
    next.container = setup.container := by
  -- While a managed job is active, each step that could stop or replace the container has found that there is none.
  obtain ⟨job, member, managed⟩ := exists_managed taken
  rcases step_cases stepped with submission | registered | deleted | updated | launched
  · exact (stepSubmission_idles submission).1
  · exact (stepSetup_idles registered (inv.jobs job member managed).2).2.1
  · cases event with
    | deleteStopped request forgetLocally =>
      simp only [stepDelete] at deleted
      split at deleted
      next connection checked => exact absurd (inv.deletes request (by rw [checked]; trivial)) taken
      next => cases deleted
    | _ =>
      simp only [stepDelete] at deleted
      grind -linarith [setDelete]
  · cases updateStep updated with
    | replaced synced moved | canceled synced moved =>
      exact absurd (inv.synced _ _ _ synced moved.1 moved.2) taken
    | _ => rfl
  · cases event with
    | launched launch =>
      simp only [stepLaunch, Option.ite_none_right_eq_some] at launched
      exact absurd (starting.empty taken launch launched.1) runs
    | launchInspected launch =>
      simp only [stepLaunch, if_neg runs, Option.ite_none_right_eq_some, Option.some.injEq] at launched
      obtain ⟨-, rfl⟩ := launched
      rfl
    | containerDied => exact absurd rfl alive
    | _ =>
      simp only [stepLaunch] at launched
      grind -linarith [endLaunch]

theorem Inv.protects (inv : setup.Inv) (starting : setup.Starting) (apart : setup.Apart event) :
    setup.Protects event := by
  intro next stepped
  refine ⟨(inv.step apart stepped).jobs, fun job member _ managed alive runs => ?_⟩
  exact inv.keeps_container starting stepped (fun free => by simp [free job member] at managed) alive runs

end TrainerSetup

open TrainerSetup

/-- Where no job is saved behind the check of a deletion or an update, or behind what an update has read or a launch has
found, no managed trainer is taken from under a job. -/
theorem trainers_kept_for_jobs {connection : TrainerConnection} {history : List SetupEvent}
    (apart : (trainerSetup connection).Throughout Apart history) :
    (trainerSetup connection).Throughout Protects history := by
  have held := System.invariant_throughout (P := fun setup => setup.Inv ∧ setup.Starting)
    ⟨Inv.initial connection, Starting.initial connection⟩
    (fun _ _ _ known apart stepped => ⟨known.1.step apart stepped, known.2.step known.1 apart stepped⟩) apart
  exact held.mono fun setup event known => known.1.1.protects known.1.2 known.2

def submittedJob : List SetupEvent :=
  [.jobSaved 0, .catalogRead 0, .trainerRead 0, .submissionLocked 0, .launched 0, .launchInspected 0, .launchBegan 0]

/-- A deletion and an update to another host are refused while the job is active. -/
theorem trainer_of_active_job_kept :
    (∃ setup, (trainerSetup ⟨true, 1, 8001, 0⟩).reached
      ([.updateChecked 0 ⟨true, 2, 8001, 0⟩, .updateLocked 0, .updateRead 0, .deleteChecked 0, .deleteRead 0] ++
        submittedJob) = some setup ∧ setup.updates 0 = .concluded ∧ setup.deletes 0 = .concluded ∧ setup.jobs ≠ []) ∧
      (trainerSetup ⟨true, 1, 8001, 0⟩).Throughout Protects
        ([.updateChecked 0 ⟨true, 2, 8001, 0⟩, .updateLocked 0, .updateRead 0, .deleteChecked 0, .deleteRead 0] ++
          submittedJob) := by
  refine ⟨⟨_, rfl, rfl, rfl, by decide⟩, trainers_kept_for_jobs ?_⟩
  refine ⟨fun _ _ => trivial, fun _ _ => trivial, fun _ _ => trivial, fun _ _ => trivial, fun _ _ => trivial, ?_,
    fun _ _ => trivial, fun _ _ => trivial, fun _ _ => trivial, fun _ _ => trivial, ?_, fun _ _ => trivial, trivial⟩
  · rintro _ ⟨⟩ connection ⟨⟩ -
    refine ⟨rfl, fun _ => id, fun _ => ⟨id, fun _ none => by cases none⟩, fun launch => ?_⟩
    cases launch with
    | zero => exact fun same => by cases same
    | succ launch => exact fun same => by cases same
  · rintro _ ⟨⟩ -
    exact .inl fun _ member => by cases member

/-- A job is saved between the check of a deletion and its end. -/
theorem trainer_deleted_under_job :
    ¬ ∀ (connection : TrainerConnection) (history : List SetupEvent) (setup : TrainerSetup),
      (trainerSetup connection).reached history = some setup → (trainerSetup connection).Throughout Protects history := by
  intro every
  have throughout := every ⟨true, 1, 8001, 0⟩ [.deleteRemoved 0, .deleteUntunneled 0, .deleteStopped 0 false, .jobSaved 0,
    .catalogRead 0, .trainerRead 0, .submissionLocked 0, .deleteChecked 0, .deleteRead 0, .launched 0, .launchInspected 0,
    .launchBegan 0] _ rfl
  have kept := (throughout.1 _ rfl _ rfl).1 ⟨0, ⟨true, 1, 8001, 0⟩⟩ (by decide) rfl
  exact absurd kept.1 (by decide)

end PhysicalAiStudio.Remote
