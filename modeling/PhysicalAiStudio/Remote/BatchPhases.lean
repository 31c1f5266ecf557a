import Mathlib.Data.List.Basic
import PhysicalAiStudio.Remote.BatchTraining

/-! What becomes of a Batch job when its training run ends.

The history of a run tells which jobs were accepted, whose ids were persisted and
which were terminated. Between the acceptance of a job and the persistence of its id
only this run knows the job, so what fails there loses it.
-/

set_option autoImplicit false

namespace PhysicalAiStudio.Remote.Batch

open Interaction Interaction.Dialogue Concurrency

abbrev History := List (Reply Answer)

def accepted : Reply Answer → Option JobId
  | ⟨.submitJob, .ok jobId⟩ => some jobId
  | _ => none

def submitted (told : History) : List JobId := told.filterMap accepted

def Terminated (jobId : JobId) (told : History) : Prop :=
  (⟨.terminateJob jobId, .ok ()⟩ : Reply Answer) ∈ told

def Persisted (context : TrainingContext) (jobId : JobId) (told : History) : Prop :=
  context.remoteJobId = some jobId ∨ (⟨.onRemoteJobId jobId, .ok ()⟩ : Reply Answer) ∈ told

/-- A poll found the job succeeded, without a failed or canceled trainer status. -/
def Succeeded (jobId : JobId) (told : History) : Prop :=
  ∃ newer older job others object, told = newer ++
      ⟨.statusObject, object⟩ :: ⟨.describeJobs jobId, .ok (job :: others)⟩ :: older ∧
    job.status = .succeeded ∧ ∀ status, object = .ok status → status.status ≠ .failed ∧ status.status ≠ .canceled

def Delivered (jobId : JobId) (told : History) : Prop :=
  ∃ newer older, told = newer ++ older ∧ Succeeded jobId older ∧ (⟨.extract, .ok ()⟩ : Reply Answer) ∈ newer

def Accounted (context : TrainingContext) (jobId : JobId) (told : History) : Exit Fault Unit → Prop
  | .returned _ => Delivered jobId told
  | .raised .canceled => Terminated jobId told
  | .raised .suspended => Persisted context jobId told ∧ ¬Terminated jobId told
  | .raised _ => Persisted context jobId told ∨ Terminated jobId told
  | .waiting => True

def Kept (context : TrainingContext) (told : History) (exit : Exit Fault Unit) : Prop :=
  (submitted told).length ≤ 1 ∧ (context.remoteJobId.isSome → submitted told = []) ∧
    ∀ jobId, context.remoteJobId = some jobId ∨ jobId ∈ submitted told → Accounted context jobId told exit

/-- The clearing callback, or the termination of the job, failed. -/
def loses (jobId : JobId) : Reply Answer → Bool
  | ⟨.onAuthenticationIssue none, .error _⟩ => true
  | ⟨.terminateJob terminated, .error _⟩ => terminated = jobId
  | _ => false

/-- Nothing fails that would lose an accepted job while its id is not persisted. -/
def Careful (context : TrainingContext) (told : History) : Prop :=
  Always (fun older reply => ∀ jobId ∈ submitted older, loses jobId reply → Persisted context jobId older) told

/-! ## The phases of a run -/

def Question.neutral : Question → Bool
  | .submitJob | .terminateJob _ | .onRemoteJobId _ => false
  | _ => true

structure Fresh (context : TrainingContext) (backend : Backend) (told : History) : Prop where
  given : context.remoteJobId = none
  remote : backend.remoteJobId = none
  none_submitted : submitted told = []
  none_persisted : ∀ jobId, ¬Persisted context jobId told
  none_terminated : ∀ jobId, ¬Terminated jobId told
  careful : Careful context told

def Only (context : TrainingContext) (jobId : JobId) (told : History) : Prop :=
  context.remoteJobId = some jobId ∧ submitted told = [] ∨ context.remoteJobId = none ∧ submitted told = [jobId]

/-- Its job was accepted, and nobody else knows of it yet. -/
structure Unsaved (context : TrainingContext) (jobId : JobId) (told : History) : Prop where
  only : Only context jobId told
  unknown : ¬Persisted context jobId told
  running : ¬Terminated jobId told
  careful : Careful context told

structure Saved (context : TrainingContext) (jobId : JobId) (backend : Backend) (told : History) : Prop where
  remote : backend.remoteJobId = some jobId
  only : Only context jobId told
  persisted : Persisted context jobId told
  careful : Careful context told

def Live (context : TrainingContext) (jobId : JobId) (backend : Backend) (told : History) : Prop :=
  Saved context jobId backend told ∧ ¬Terminated jobId told

def Halted (context : TrainingContext) (jobId : JobId) (backend : Backend) (told : History) : Prop :=
  Saved context jobId backend told ∧ Terminated jobId told

/-- What is shown of every fault: the jobs are accounted for if and only if nothing lost one. -/
def Ends (context : TrainingContext) (fault : Fault) (_ : Backend) (told : History) : Prop :=
  Kept context told (.raised fault) ↔ Careful context told

def Fails (context : TrainingContext) (kept : Backend → History → Prop) (fault : Fault) (backend : Backend)
    (told : History) : Prop :=
  Ends context fault backend told ∧ ∀ error, fault = .call error → kept backend told

def Waits (context : TrainingContext) (_ : Backend) (told : History) : Prop :=
  Kept context told .waiting ↔ Careful context told

section Histories

variable {context : TrainingContext} {jobId : JobId} {backend : Backend} {told : History} {exit : Exit Fault Unit}
  {question : Question} {answer : Answer question}

theorem submitted_cons (reply : Reply Answer) (told : History) :
    submitted (reply :: told) = (accepted reply).toList ++ submitted told := by
  cases same : accepted reply <;> simp [submitted, same]

theorem accepted_neutral (neutral : question.neutral) : accepted ⟨question, answer⟩ = none := by
  cases question <;> first | rfl | cases neutral

theorem submitted_other {reply : Reply Answer} (other : accepted reply = none) :
    submitted (reply :: told) = submitted told := by
  rw [submitted_cons, other, Option.toList_none, List.nil_append]

theorem terminated_neutral (neutral : question.neutral) :
    Terminated jobId (⟨question, answer⟩ :: told) ↔ Terminated jobId told := by
  cases question <;> first | (simp [Terminated]; done) | cases neutral

theorem persisted_neutral (neutral : question.neutral) :
    Persisted context jobId (⟨question, answer⟩ :: told) ↔ Persisted context jobId told := by
  cases question <;> first | (simp [Persisted]; done) | cases neutral

theorem Persisted.older {reply : Reply Answer} (persisted : Persisted context jobId told) :
    Persisted context jobId (reply :: told) :=
  persisted.imp_right (List.mem_cons_of_mem reply)

theorem Careful.cons {reply : Reply Answer} (careful : Careful context told)
    (known : ∀ jobId ∈ submitted told, Persisted context jobId told) : Careful context (reply :: told) :=
  ⟨fun jobId listed _ => known jobId listed, careful⟩

theorem Saved.known (saved : Saved context jobId backend told) :
    ∀ other ∈ submitted told, Persisted context other told := by
  intro other listed
  obtain ⟨_, none⟩ | ⟨_, one⟩ := saved.only
  · rw [none] at listed
    cases listed
  · rw [one, List.mem_singleton] at listed
    exact listed ▸ saved.persisted

theorem Only.kept_iff (only : Only context jobId told) :
    Kept context told exit ↔ Accounted context jobId told exit := by
  have known : ∀ other, context.remoteJobId = some other ∨ other ∈ submitted told ↔ jobId = other := by
    intro other
    obtain ⟨given, none⟩ | ⟨given, one⟩ := only
    · simp [given, none]
    · simp [given, one, eq_comm]
  have counted : (submitted told).length ≤ 1 ∧ (context.remoteJobId.isSome → submitted told = []) := by
    obtain ⟨given, none⟩ | ⟨given, one⟩ := only
    · simp [none]
    · simp [given, one]
  constructor
  · exact fun kept => kept.2.2 jobId ((known jobId).mpr rfl)
  · exact fun accounted => ⟨counted.1, counted.2, fun other listed => (known other).mp listed ▸ accounted⟩

theorem Only.other (only : Only context jobId told) {reply : Reply Answer} (other : accepted reply = none) :
    Only context jobId (reply :: told) := by
  unfold Only
  rw [submitted_other other]
  exact only

theorem Fresh.kept (fresh : Fresh context backend told) (exit : Exit Fault Unit) : Kept context told exit := by
  refine ⟨by simp [fresh.none_submitted], fun _ => fresh.none_submitted, fun jobId known => ?_⟩
  simp [fresh.given, fresh.none_submitted] at known

theorem Saved.heard (saved : Saved context jobId backend told) {reply : Reply Answer} (other : accepted reply = none) :
    Saved context jobId backend (reply :: told) where
  remote := saved.remote
  only := saved.only.other other
  persisted := saved.persisted.older
  careful := saved.careful.cons saved.known

theorem Saved.noted (saved : Saved context jobId backend told) (issue : Option AwsAuthenticationIssue) :
    Saved context jobId { backend with authenticationIssue := issue } told :=
  ⟨saved.remote, saved.only, saved.persisted, saved.careful⟩

theorem Fresh.heard (fresh : Fresh context backend told) (neutral : question.neutral) :
    Fresh context backend (⟨question, answer⟩ :: told) where
  given := fresh.given
  remote := fresh.remote
  none_submitted := by rw [submitted_other (accepted_neutral neutral)]; exact fresh.none_submitted
  none_persisted jobId persisted := fresh.none_persisted jobId ((persisted_neutral neutral).mp persisted)
  none_terminated jobId terminated := fresh.none_terminated jobId ((terminated_neutral neutral).mp terminated)
  careful := fresh.careful.cons (by simp [fresh.none_submitted])

theorem Live.ends (live : Live context jobId backend told) {fault : Fault} (other : fault ≠ .canceled) :
    Ends context fault backend told := by
  have accounted : Accounted context jobId told (.raised fault) := by
    cases fault with
    | canceled => exact absurd rfl other
    | suspended => exact ⟨live.1.persisted, live.2⟩
    | call | callback | value | runtime => exact .inl live.1.persisted
  exact iff_of_true (live.1.only.kept_iff.mpr accounted) live.1.careful

/-- Once its termination was accepted, every fault but a suspension does. -/
theorem Halted.ends (halted : Halted context jobId backend told) {fault : Fault} (other : fault ≠ .suspended) :
    Ends context fault backend told := by
  have accounted : Accounted context jobId told (.raised fault) := by
    cases fault with
    | suspended => exact absurd rfl other
    | canceled => exact halted.2
    | call | callback | value | runtime => exact .inr halted.2
  exact iff_of_true (halted.1.only.kept_iff.mpr accounted) halted.1.careful

theorem Fresh.ends (fresh : Fresh context backend told) (fault : Fault) : Ends context fault backend told :=
  iff_of_true (fresh.kept _) fresh.careful

theorem Saved.waits (saved : Saved context jobId backend told) : Waits context backend told :=
  iff_of_true (saved.only.kept_iff.mpr trivial) saved.careful

theorem Fresh.waits (fresh : Fresh context backend told) : Waits context backend told :=
  iff_of_true (fresh.kept _) fresh.careful

end Histories

/-! ## Conditions that authentication keeps -/

structure Steady (context : TrainingContext) (condition : Backend → History → Prop) : Prop where
  heard : ∀ {backend told} {question : Question} (answer : Answer question), question.neutral → condition backend told →
    condition backend (⟨question, answer⟩ :: told)
  noted : ∀ {backend told} issue, condition backend told → condition { backend with authenticationIssue := issue } told
  waits : ∀ {backend told}, condition backend told → Waits context backend told
  fails : ∀ {backend told} message, condition backend told → Ends context (.callback message) backend told

section Rules

variable {context : TrainingContext} {condition kept : Backend → History → Prop} {backend : Backend} {told : History}
  {jobId : JobId} {Value : Type}

theorem steady_fresh : Steady context (Fresh context) where
  heard _ neutral fresh := fresh.heard neutral
  noted _ fresh :=
    ⟨fresh.given, fresh.remote, fresh.none_submitted, fresh.none_persisted, fresh.none_terminated, fresh.careful⟩
  waits fresh := fresh.waits
  fails message fresh := fresh.ends (.callback message)

theorem steady_live : Steady context (Live context jobId) where
  heard _ neutral live :=
    ⟨live.1.heard (accepted_neutral neutral), fun terminated => live.2 ((terminated_neutral neutral).mp terminated)⟩
  noted issue live := ⟨live.1.noted issue, live.2⟩
  waits live := live.1.waits
  fails message live := live.ends (by simp)

theorem steady_halted : Steady context (Halted context jobId) where
  heard _ neutral halted := ⟨halted.1.heard (accepted_neutral neutral), (terminated_neutral neutral).mpr halted.2⟩
  noted issue halted := ⟨halted.1.noted issue, halted.2⟩
  waits halted := halted.1.waits
  fails message halted := halted.ends (by simp)

variable (steady : Steady context condition)
include steady

theorem Steady.query {question : Question} (neutral : question.neutral) (holds : condition backend told)
    {returns : Answer question → Backend → History → Prop} {raises : Fault → Backend → History → Prop}
    (next : ∀ answer, condition backend (⟨question, answer⟩ :: told) →
      returns answer backend (⟨question, answer⟩ :: told)) :
    (query question : Run _).Meets returns raises (Waits context) backend told :=
  ⟨steady.waits holds, fun answer => next answer (steady.heard _ neutral holds)⟩

theorem Steady.reportIssue (holds : condition backend told) (issue : Option AwsAuthenticationIssue) :
    (reportIssue context issue).Meets (fun _ => condition) (Fails context kept) (Waits context) backend told := by
  unfold Batch.reportIssue
  split
  · rw [meets_bind]
    refine steady.query rfl holds fun answer holds => ?_
    cases answer with
    | ok => exact holds
    | error message => exact ⟨steady.fails message holds, by simp⟩
  · exact holds

theorem Steady.noteIssue (holds : condition backend told) (issue : AwsAuthenticationIssue) :
    (noteIssue context issue).Meets (fun _ => condition) (Fails context kept) (Waits context) backend told := by
  simp only [Batch.noteIssue, meets_bind, meets_view, meets_ite, meets_pure, meets_modify]
  exact ⟨fun _ => holds, fun _ => steady.reportIssue (steady.noted _ holds) _⟩

theorem Steady.clearIssue (holds : condition backend told) :
    (clearIssue context).Meets (fun _ => condition) (Fails context kept) (Waits context) backend told := by
  have clear : ∀ {told : History}, condition backend told →
      (Batch.reportIssue context none).Meets (fun _ => condition) (Fails context kept) (Waits context)
        { backend with authenticationIssue := none } told :=
    fun holds => steady.reportIssue (steady.noted none holds) none
  simp only [Batch.clearIssue, meets_bind, meets_view, meets_ite, meets_pure, meets_modify]
  refine ⟨fun _ => ⟨fun _ => clear holds, fun _ => holds⟩, fun _ => ?_⟩
  refine steady.query rfl holds fun answer holds => ?_
  simp only [meets_bind, meets_ite, meets_pure, meets_modify]
  exact ⟨fun _ => clear holds, fun _ => holds⟩

/-- An operation that keeps the condition when it fails, and whose result still has to pass the
report that AWS answers again. -/
theorem Steady.authenticated {checkpoint : Run Unit} {operation : Run Value}
    {returns : Value → Backend → History → Prop}
    (suspends : ∀ {backend told}, condition backend told → Ends context .suspended backend told)
    (checked : ∀ {backend told}, condition backend told →
      checkpoint.Meets (fun _ => condition) (Fails context condition) (Waits context) backend told)
    (operated : ∀ {backend told}, condition backend told →
      operation.Meets
        (fun value =>
          (Batch.clearIssue context).Meets (fun _ => returns value) (Fails context condition) (Waits context))
        (fun fault backend told => condition backend told ∧ Ends context fault backend told)
        (Waits context) backend told)
    (rounds : Nat) (holds : condition backend told) :
    (authenticated context rounds checkpoint operation).Meets returns (Fails context condition) (Waits context)
      backend told := by
  -- What holds between two attempts is the condition itself.
  refine meets_loop (fun _ => condition) (fun _ _ _ => steady.waits) (fun _ backend told holds => ?_) rounds holds
  rw [meets_bind]
  refine (checked holds).mono (fun _ backend told holds => ?_) (fun _ _ _ ended => ended)
  rw [meets_bind, meets_caught]
  refine (operated holds).mono (fun value backend told cleared => ?_) (fun fault backend told failed => ?_)
  · rw [meets_bind]
    exact cleared
  · dsimp only
    cases recognised : authenticationIssue fault with
    | none => exact ⟨failed.2, fun _ _ => failed.1⟩
    | some issue =>
        rw [meets_bind]
        refine (steady.noteIssue failed.1 issue).mono (fun _ backend told holds => ?_) (fun _ _ _ ended => ended)
        rw [meets_bind]
        refine steady.query rfl holds fun suspend holds => ?_
        rw [meets_ite]
        exact ⟨fun _ => ⟨suspends holds, by simp⟩, fun _ => holds⟩

theorem Steady.stopRequested (holds : condition backend told) :
    stopRequested.Meets (fun _ => condition) (Fails context kept) (Waits context) backend told := by
  unfold Batch.stopRequested
  rw [meets_bind]
  refine steady.query rfl holds fun stop holds => ?_
  rw [meets_ite]
  exact ⟨fun _ => holds, fun _ => steady.query rfl holds fun _ holds => holds⟩

theorem Steady.suspendRequested (holds : condition backend told) :
    suspendRequested.Meets (fun _ => condition) (Fails context kept) (Waits context) backend told := by
  unfold Batch.suspendRequested
  rw [meets_bind]
  refine steady.query rfl holds fun cancel holds => ?_
  rw [meets_ite]
  exact ⟨fun _ => holds, fun _ => steady.query rfl holds fun _ holds => holds⟩

theorem Steady.checkStop {jobId : Option JobId} {rounds : Nat}
    (suspends : ∀ {backend told}, condition backend told → Ends context .suspended backend told)
    (stops : ∀ {backend told}, condition backend told →
      (stop context rounds jobId).Meets (fun _ => condition) (Fails context kept) (Waits context) backend told)
    (holds : condition backend told) :
    (checkStop context rounds jobId).Meets (fun _ => condition) (Fails context kept) (Waits context) backend told := by
  unfold Batch.checkStop
  rw [meets_bind]
  refine (steady.stopRequested holds).mono (fun requested backend told holds => ?_) (fun _ _ _ ended => ended)
  rw [meets_ite, meets_bind]
  refine ⟨fun _ => ?_, fun _ => holds⟩
  refine (steady.suspendRequested holds).mono (fun suspend backend told holds => ?_) (fun _ _ _ ended => ended)
  rw [meets_ite]
  exact ⟨fun _ => ⟨suspends holds, by simp⟩, fun _ => stops holds⟩

omit steady

/-- A condition stays steady together with a fact that later replies cannot undo. -/
theorem Steady.and_lasting {fact : History → Prop} (steady : Steady context condition)
    (lasting : ∀ reply told, fact told → fact (reply :: told)) :
    Steady context fun backend told => condition backend told ∧ fact told where
  heard answer neutral holds := ⟨steady.heard answer neutral holds.1, lasting _ _ holds.2⟩
  noted issue holds := ⟨steady.noted issue holds.1, holds.2⟩
  waits holds := steady.waits holds.1
  fails message holds := steady.fails message holds.1

end Rules

/-! ## Stopping -/

section Stopping

variable {context : TrainingContext} {backend : Backend} {told : History} {jobId : JobId} {fact : History → Prop}

/-- A live job, and a fact that later replies cannot undo. -/
def LiveWith (context : TrainingContext) (jobId : JobId) (fact : History → Prop) (backend : Backend) (told : History) :
    Prop :=
  Live context jobId backend told ∧ fact told

variable (lasting : ∀ reply told, fact told → fact (reply :: told))
include lasting

theorem meets_terminate (live : LiveWith context jobId fact backend told) :
    (terminate jobId).Meets (fun _ => Halted context jobId)
      (fun fault backend told => LiveWith context jobId fact backend told ∧ Ends context fault backend told)
      (Waits context) backend told := by
  unfold terminate
  rw [meets_bind]
  refine ⟨live.1.1.waits, fun result => ?_⟩
  have saved : Saved context jobId backend (⟨.terminateJob jobId, result⟩ :: told) := live.1.1.heard rfl
  cases result with
  | ok => exact ⟨saved, List.mem_cons_self⟩
  | error error =>
      have still : Live context jobId backend (⟨.terminateJob jobId, .error error⟩ :: told) :=
        ⟨saved, by simpa [Terminated] using live.1.2⟩
      exact ⟨⟨still, lasting _ _ live.2⟩, still.ends (by simp)⟩

theorem meets_stop {returns : Unit → Backend → History → Prop} (rounds : Nat)
    (live : LiveWith context jobId fact backend told) :
    (stop context rounds (some jobId)).Meets returns (Fails context (LiveWith context jobId fact)) (Waits context)
      backend told := by
  unfold stop
  rw [meets_bind]
  have accepting : ∀ {backend told}, LiveWith context jobId fact backend told →
      (terminate jobId).Meets
        (fun _ => (clearIssue context).Meets (fun _ => Halted context jobId)
          (Fails context (LiveWith context jobId fact)) (Waits context))
        (fun fault backend told => LiveWith context jobId fact backend told ∧ Ends context fault backend told)
        (Waits context) backend told := fun live =>
    (meets_terminate lasting live).mono (fun _ _ _ halted => steady_halted.clearIssue halted)
      (fun _ _ _ failed => failed)
  have stopped : (authenticated context rounds (pure ()) (terminate jobId)).Meets
      (fun _ => Halted context jobId) (Fails context (LiveWith context jobId fact)) (Waits context) backend told :=
    (steady_live.and_lasting lasting).authenticated (fun live => live.1.ends (by simp))
      (fun live => (meets_pure ()).mpr live) accepting rounds live
  exact stopped.mono (fun _ _ _ halted => ⟨halted.ends (by simp), by simp⟩) (fun _ _ _ ended => ended)

omit lasting

/-- What the checks of a run need at one of its points: the job the context knows there, and
that stopping there ends well. -/
structure Phase (context : TrainingContext) (rounds : Nat) (jobId : Option JobId)
    (condition : Backend → History → Prop) : Prop extends Steady context condition where
  suspends : ∀ {backend told}, condition backend told → Ends context .suspended backend told
  remote : ∀ {backend told}, condition backend told → backend.remoteJobId = jobId
  errs : ∀ {backend told} error, condition backend told → Ends context (.call error) backend told
  stops : ∀ {backend told}, condition backend told →
    (stop context rounds jobId).Meets (fun _ => condition) (Fails context condition) (Waits context) backend told

theorem phase_fresh (context : TrainingContext) (rounds : Nat) : Phase context rounds none (Fresh context) where
  toSteady := steady_fresh
  suspends fresh := fresh.ends .suspended
  remote fresh := fresh.remote
  errs error fresh := fresh.ends (.call error)
  stops fresh := ⟨fresh.ends .canceled, by simp⟩

theorem phase_live (lasting : ∀ reply told, fact told → fact (reply :: told)) (rounds : Nat) :
    Phase context rounds (some jobId) (LiveWith context jobId fact) where
  toSteady := steady_live.and_lasting lasting
  suspends live := live.1.ends (by simp)
  remote live := live.1.1.remote
  errs error live := live.1.ends (by simp)
  stops live := meets_stop lasting rounds live

variable {condition : Backend → History → Prop} {rounds : Nat} {known : Option JobId} {Value : Type}

theorem Phase.check (phase : Phase context rounds known condition) (holds : condition backend told) :
    (checkStop context rounds known).Meets (fun _ => condition) (Fails context condition) (Waits context)
      backend told :=
  phase.checkStop phase.suspends phase.stops holds

theorem Phase.withAuthentication (phase : Phase context rounds known condition) {operation : Run Value}
    {returns : Value → Backend → History → Prop}
    (operated : ∀ {backend told}, condition backend told →
      operation.Meets
        (fun value => (clearIssue context).Meets (fun _ => returns value) (Fails context condition) (Waits context))
        (fun fault backend told => condition backend told ∧ Ends context fault backend told)
        (Waits context) backend told)
    (holds : condition backend told) :
    (withAuthentication context rounds operation).Meets returns (Fails context condition) (Waits context)
      backend told := by
  refine phase.authenticated phase.suspends (fun {backend told} holds => ?_) operated rounds holds
  rw [meets_bind, meets_view, phase.remote holds]
  exact phase.check holds

/-- An operation whose result no neutral answer touches. -/
theorem Phase.operation (phase : Phase context rounds known condition) {operation : Run Value}
    {returns : Value → Backend → History → Prop} (steady : ∀ value, Steady context (returns value))
    (operated : ∀ {backend told}, condition backend told →
      operation.Meets returns (fun fault backend told => condition backend told ∧ Ends context fault backend told)
        (Waits context) backend told)
    (holds : condition backend told) :
    (Batch.withAuthentication context rounds operation).Meets returns (Fails context condition) (Waits context)
      backend told :=
  phase.withAuthentication
    (fun holds => (operated holds).mono (fun value _ _ returned => (steady value).clearIssue returned)
      (fun _ _ _ failed => failed))
    holds

end Stopping

end PhysicalAiStudio.Remote.Batch
