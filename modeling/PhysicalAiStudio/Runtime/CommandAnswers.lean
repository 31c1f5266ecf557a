import PhysicalAiStudio.Runtime.CommandWorker

/-! Which ack a `wait` returns.

The tables of the command worker are keyed by request ids that clients choose. While
no id is in the hands of two requests at once, the entries of an id belong to its last
submission, from the submission until a `wait` for it returns the ack.
-/

set_option autoImplicit false

namespace PhysicalAiStudio.Runtime.CommandThread

open Concurrency

section Positions

variable {α : Type} {items : List α} {position at' : Nat} {item new : α}

theorem getElem?_concat_iff :
    (items ++ [new])[position]? = some item ↔
      items[position]? = some item ∨ position = items.length ∧ new = item := by
  rw [List.getElem?_append]
  split
  · next inside => simp [Nat.ne_of_lt inside]
  · next outside =>
    rw [List.getElem?_eq_none (Nat.le_of_not_lt outside)]
    cases past : position - items.length with
    | zero => simp [Nat.le_antisymm (Nat.sub_eq_zero_iff_le.mp past) (Nat.le_of_not_lt outside)]
    | succ n => simp; omega

theorem getElem?_set_iff :
    (items.set at' new)[position]? = some item ↔
      at' = position ∧ position < items.length ∧ new = item ∨ at' ≠ position ∧ items[position]? = some item := by
  rw [List.getElem?_set]
  split
  · next same => split <;> simp_all
  · next other => simp [other]

end Positions

namespace CommandWorker

def requestOf (worker : CommandWorker) (submission : Nat) : Option String :=
  (worker.jobs[submission]?).bind Job.requestId

def IsLast (worker : CommandWorker) (requestId : String) (submission : Nat) : Prop :=
  worker.requestOf submission = some requestId ∧
    ∀ later, submission < later → worker.requestOf later ≠ some requestId

def Taken (worker : CommandWorker) (submission : Nat) : Prop :=
  ∃ (position : Nat) (wait : Wait), worker.waits[position]? = some wait ∧ wait.submission = submission ∧
    wait.phase.isAnswered = true

def Outstanding (worker : CommandWorker) (submission : Nat) : Prop :=
  (∃ job, .job submission job ∈ worker.queue) ∨ worker.thread.number = some submission

def Landed (worker : CommandWorker) (submission : Nat) : Prop :=
  worker.isSet submission = true ∨ worker.thread = .recorded (some submission)

/-- What the tables hold while every id is in the hands of one request at a time. -/
structure Keyed (worker : CommandWorker) : Prop where
  queued : ∀ number job, .job number job ∈ worker.queue → worker.jobs[number]? = some job
  running : ∀ number job, worker.thread = .running number job → worker.jobs[number]? = some job
  acked : ∀ number requestId ack, worker.thread = .acked number requestId ack →
    worker.requestOf number = some requestId ∧ ⟨number, ack⟩ ∈ worker.acks
  distinct : ∀ number job, worker.thread.number = some number → .job number job ∉ worker.queue
  event : ∀ requestId event, worker.events requestId = some event → worker.IsLast requestId event
  last : ∀ requestId submission, worker.IsLast requestId submission →
    worker.events requestId = some submission ∨ worker.Taken submission
  outstanding : ∀ requestId submission, worker.Outstanding submission →
    worker.requestOf submission = some requestId → worker.IsLast requestId submission
  done : ∀ submission, worker.Landed submission ∨ worker.Taken submission →
    submission < worker.jobs.length ∧ ¬ worker.Outstanding submission
  result : ∀ requestId submission, worker.Landed submission → worker.IsLast requestId submission →
    (∃ ack, worker.results requestId = some ⟨submission, ack⟩) ∨ worker.Taken submission
  known : ∀ requestId recorded, worker.results requestId = some recorded → recorded ∈ worker.acks
  waited : ∀ (position : Nat) (wait : Wait), worker.waits[position]? = some wait →
    worker.requestOf wait.submission = some wait.requestId
  waiting : ∀ (position : Nat) (wait : Wait), worker.waits[position]? = some wait → wait.phase.inProgress = true →
    worker.IsLast wait.requestId wait.submission ∧ ¬ worker.Taken wait.submission ∧
      (∀ event, wait.phase = .blocked event → event = wait.submission) ∧
      (wait.phase = .woken → worker.isSet wait.submission = true)
  single : ∀ (one two : Nat) (first second : Wait), worker.waits[one]? = some first → worker.waits[two]? = some second →
    first.phase.inProgress = true → second.phase.inProgress = true → first.requestId = second.requestId → one = two
  answers : worker.Answers

variable {worker next : CommandWorker} {event : WorkerEvent}

theorem requestOf_lt {submission : Nat} {requestId : String} (asked : worker.requestOf submission = some requestId) :
    submission < worker.jobs.length := by
  obtain ⟨job, found, -⟩ := Option.bind_eq_some_iff.mp asked
  exact (List.getElem?_eq_some_iff.mp found).1

theorem IsLast.unique {requestId : String} {one two : Nat} (first : worker.IsLast requestId one)
    (second : worker.IsLast requestId two) : one = two := by
  rcases Nat.lt_trichotomy one two with less | same | more
  · exact absurd second.1 (first.2 two less)
  · exact same
  · exact absurd first.1 (second.2 one more)

theorem exists_last {requestId : String} {submission : Nat} (asked : worker.requestOf submission = some requestId)
    (none : ∀ later ∈ worker.jobs.drop (submission + 1), later.requestId ≠ some requestId) :
    worker.IsLast requestId submission := by
  refine ⟨asked, fun later after same => ?_⟩
  obtain ⟨job, found, id⟩ := Option.bind_eq_some_iff.mp same
  refine none job ?_ id
  have bound := (List.getElem?_eq_some_iff.mp found).1
  have at' : (worker.jobs.drop (submission + 1))[later - (submission + 1)]? = some job := by
    rw [List.getElem?_drop, Nat.add_sub_cancel' after]
    exact found
  exact List.mem_of_getElem? at'

/-! ### A submission -/

section Submit

variable {job : Job} {requestId : String} {submission : Nat}

theorem submit_spec (accepted : worker.submit job = .ok next) :
    next.jobs = worker.jobs ++ [job] ∧ next.queue = worker.queue ++ [.job worker.jobs.length job] ∧
      (∀ requestId, next.events requestId =
        if job.requestId = some requestId then some worker.jobs.length else worker.events requestId) ∧
      (next.thread = worker.thread ∨ worker.thread = .unstarted ∧ next.thread = .idle) ∧
      next.results = worker.results ∧ next.isSet = worker.isSet ∧ next.waits = worker.waits ∧
      next.acks = worker.acks := by
  unfold submit at accepted
  split at accepted <;> cases accepted
  refine ⟨rfl, rfl, fun requestId => ?_, ?_, rfl, rfl, rfl, rfl⟩
  · dsimp only
    cases asked : job.requestId with
    | none => simp
    | some id => simp [Function.update_apply, eq_comm]
  · dsimp only
    split
    · exact .inr ⟨‹_›, rfl⟩
    · exact .inl rfl

theorem requestOf_concat (jobs : next.jobs = worker.jobs ++ [job]) :
    next.requestOf submission = some requestId ↔
      worker.requestOf submission = some requestId ∨
        submission = worker.jobs.length ∧ job.requestId = some requestId := by
  simp only [requestOf, Option.bind_eq_some_iff, jobs, getElem?_concat_iff]
  constructor
  · rintro ⟨found, old | ⟨same, rfl⟩, id⟩
    · exact .inl ⟨found, old, id⟩
    · exact .inr ⟨same, id⟩
  · rintro (⟨found, old, id⟩ | ⟨same, id⟩)
    · exact ⟨found, .inl old, id⟩
    · exact ⟨job, .inr ⟨same, rfl⟩, id⟩

theorem isLast_concat (jobs : next.jobs = worker.jobs ++ [job]) :
    next.IsLast requestId submission ↔
      submission = worker.jobs.length ∧ job.requestId = some requestId ∨
        job.requestId ≠ some requestId ∧ worker.IsLast requestId submission := by
  constructor
  · rintro ⟨asked, none⟩
    rcases (requestOf_concat jobs).mp asked with old | new
    · refine .inr ⟨fun same => ?_, old, fun later after asked => none later after ((requestOf_concat jobs).mpr (.inl asked))⟩
      exact none _ (requestOf_lt old) ((requestOf_concat jobs).mpr (.inr ⟨rfl, same⟩))
    · exact .inl new
  · rintro (⟨rfl, same⟩ | ⟨other, asked, none⟩)
    · refine ⟨(requestOf_concat jobs).mpr (.inr ⟨rfl, same⟩), fun later after asked => ?_⟩
      rcases (requestOf_concat jobs).mp asked with old | ⟨rfl, -⟩
      · exact Nat.lt_asymm after (requestOf_lt old)
      · exact Nat.lt_irrefl _ after
    · refine ⟨(requestOf_concat jobs).mpr (.inl asked), fun later after again => ?_⟩
      rcases (requestOf_concat jobs).mp again with old | ⟨-, same⟩
      · exact none later after old
      · exact other same

theorem Keyed.not_unused (keyed : worker.Keyed) (outstanding : worker.Outstanding submission)
    (asked : worker.requestOf submission = some requestId) : ¬ worker.Unused requestId := by
  rintro ⟨queue, thread, -⟩
  obtain ⟨found, here, id⟩ := Option.bind_eq_some_iff.mp asked
  rcases outstanding with ⟨queued, member⟩ | current
  · cases (keyed.queued _ _ member).symm.trans here
    exact queue _ member id
  · cases at' : worker.thread with
    | running number job =>
      rw [at'] at current thread
      cases current
      cases (keyed.running _ _ at').symm.trans here
      exact thread id
    | acked number other ack =>
      rw [at'] at current thread
      cases current
      exact thread ((keyed.acked _ _ _ at').1.symm.trans asked)
    | unstarted | idle | recorded | finished | died =>
      rw [at'] at current
      cases current

theorem Keyed.submit (keyed : worker.Keyed) (separate : Separate worker (.submitted job))
    (accepted : worker.submit job = .ok next) : next.Keyed := by
  obtain ⟨jobs, queue, events, thread, results, isSet, waits, acks⟩ := submit_spec accepted
  have running : ∀ number job, next.thread = .running number job → worker.thread = .running number job := by
    rcases thread with same | ⟨-, idle⟩
    · exact fun _ _ running => same ▸ running
    · exact fun _ _ running => by cases idle.symm.trans running
  have acked : ∀ number requestId ack, next.thread = .acked number requestId ack →
      worker.thread = .acked number requestId ack := by
    rcases thread with same | ⟨-, idle⟩
    · exact fun _ _ _ acked => same ▸ acked
    · exact fun _ _ _ acked => by cases idle.symm.trans acked
  have number : next.thread.number = worker.thread.number := by
    rcases thread with same | ⟨unstarted, idle⟩
    · rw [same]
    · rw [unstarted, idle]; rfl
  have landed : ∀ submission, next.Landed submission → worker.Landed submission := by
    intro submission landed
    refine landed.imp (fun set => isSet ▸ set) fun recorded => ?_
    rcases thread with same | ⟨-, idle⟩
    · exact same ▸ recorded
    · cases idle.symm.trans recorded
  have taken : ∀ submission, next.Taken submission ↔ worker.Taken submission := by
    intro submission
    simp only [Taken, waits]
  have jobOf : ∀ number found, worker.jobs[number]? = some found → next.jobs[number]? = some found :=
    fun number found here => by rw [jobs, getElem?_concat_iff]; exact .inl here
  have outstanding : ∀ submission, next.Outstanding submission →
      worker.Outstanding submission ∨ submission = worker.jobs.length := by
    rintro submission (⟨queued, member⟩ | current)
    · rcases List.mem_append.mp (queue ▸ member) with old | new
      · exact .inl (.inl ⟨queued, old⟩)
      · cases List.mem_singleton.mp new
        exact .inr rfl
    · exact .inl (.inr (number ▸ current))
  -- A new job is last for its request id, and `separate` says that nothing was still owed under that id.
  refine {
    queued := fun number queued member => ?_
    running := fun n found here => jobOf n found (keyed.running n found (running n found here))
    acked := fun n requestId ack here => ?_
    distinct := fun n found current member => ?_
    event := fun requestId event here => ?_
    last := fun requestId submission last => ?_
    outstanding := fun requestId submission out asked => ?_
    done := fun submission done => ?_
    result := fun requestId submission land last => ?_
    known := fun requestId recorded here => acks ▸ keyed.known requestId recorded (results ▸ here)
    waited := fun position wait here => ?_
    waiting := fun position wait here progress => ?_
    single := fun one two first second atOne atTwo => keyed.single one two first second (waits ▸ atOne) (waits ▸ atTwo)
    answers := fun wait member => ?_ }
  · rcases List.mem_append.mp (queue ▸ member) with old | new
    · exact jobOf number queued (keyed.queued number queued old)
    · cases List.mem_singleton.mp new
      rw [jobs, getElem?_concat_iff]
      exact .inr ⟨rfl, rfl⟩
  · obtain ⟨asked, member⟩ := keyed.acked n requestId ack (acked n requestId ack here)
    exact ⟨(requestOf_concat jobs).mpr (.inl asked), acks ▸ member⟩
  · rw [number] at current
    rcases List.mem_append.mp (queue ▸ member) with old | new
    · exact keyed.distinct n found current old
    · cases List.mem_singleton.mp new
      cases at' : worker.thread with
      | running number job =>
        rw [at'] at current
        cases current
        exact Nat.lt_irrefl _ (List.getElem?_eq_some_iff.mp (keyed.running _ _ at')).1
      | acked number other ack =>
        rw [at'] at current
        cases current
        exact Nat.lt_irrefl _ (requestOf_lt (keyed.acked _ _ _ at').1)
      | unstarted | idle | recorded | finished | died =>
        rw [at'] at current
        cases current
  · rw [events] at here
    split at here
    · next same => exact (isLast_concat jobs).mpr (.inl ⟨(Option.some.inj here).symm, same⟩)
    · next other => exact (isLast_concat jobs).mpr (.inr ⟨other, keyed.event requestId event here⟩)
  · rw [events, taken]
    rcases (isLast_concat jobs).mp last with ⟨rfl, same⟩ | ⟨other, last⟩
    · exact .inl (if_pos same)
    · rw [if_neg other]
      exact keyed.last requestId submission last
  · rcases (requestOf_concat jobs).mp asked with old | new
    · rcases outstanding submission out with out | rfl
      · have free : job.requestId ≠ some requestId := fun same =>
          keyed.not_unused out old (separate requestId same)
        exact (isLast_concat jobs).mpr (.inr ⟨free, keyed.outstanding requestId submission out old⟩)
      · exact absurd (requestOf_lt old) (Nat.lt_irrefl _)
    · exact (isLast_concat jobs).mpr (.inl new)
  · obtain ⟨bound, settled⟩ := keyed.done submission (done.imp (landed submission) (taken submission).mp)
    refine ⟨by rw [jobs, List.length_append]; exact Nat.lt_add_right _ bound, fun out => ?_⟩
    rcases outstanding submission out with out | rfl
    · exact settled out
    · exact Nat.lt_irrefl _ bound
  · rw [results, taken]
    rcases (isLast_concat jobs).mp last with ⟨rfl, -⟩ | ⟨-, last⟩
    · exact absurd (keyed.done _ (.inl (landed _ land))).1 (Nat.lt_irrefl _)
    · exact keyed.result requestId submission (landed submission land) last
  · exact (requestOf_concat jobs).mpr (.inl (keyed.waited position wait (waits ▸ here)))
  · obtain ⟨last, untaken, blocked, woken⟩ := keyed.waiting position wait (waits ▸ here) progress
    have free : job.requestId ≠ some wait.requestId := fun same => by
      have waitOver := (separate wait.requestId same).2.2 wait (List.mem_of_getElem? (waits ▸ here)) rfl
      rw [waitOver] at progress
      cases progress
    exact ⟨(isLast_concat jobs).mpr (.inr ⟨free, last⟩), fun took => untaken ((taken _).mp took), blocked,
      fun woke => isSet ▸ woken woke⟩
  · obtain ⟨found, answered⟩ := keyed.answers wait (waits ▸ member)
    exact ⟨found, fun recorded phase => ⟨(answered recorded phase).1, acks ▸ (answered recorded phase).2⟩⟩

end Submit

/-! ### Waiting -/

section Waiting

variable {position submission timeout : Nat} {requestId : String} {wait : Wait} {phase : WaitPhase}

theorem Keyed.waitBegan (keyed : worker.Keyed) (asked : worker.requestOf submission = some requestId)
    (awaitable : worker.Awaitable submission requestId) :
    Keyed { worker with
      waits := worker.waits ++ [⟨submission, requestId, timeout, worker.lookUp requestId⟩] } := by
  have last : worker.IsLast requestId submission := exists_last asked awaitable.1
  -- A wait that had its answer already would not be begun again.
  have untaken : ¬ worker.Taken submission := by
    rintro ⟨position, wait, here, same, answered⟩
    rw [(awaitable.2 wait (List.mem_of_getElem? here)).2 same] at answered
    cases answered
  have blocked : worker.lookUp requestId = .blocked submission := by
    rw [lookUp, (keyed.last requestId submission last).resolve_right untaken]
  rw [blocked]
  have taken : ∀ other, Taken { worker with
      waits := worker.waits ++ [⟨submission, requestId, timeout, .blocked submission⟩] } other ↔
        worker.Taken other := by
    intro other
    constructor
    · rintro ⟨position, wait, here, same, answered⟩
      rcases getElem?_concat_iff.mp here with old | ⟨-, rfl⟩
      · exact ⟨position, wait, old, same, answered⟩
      · cases answered
    · rintro ⟨position, wait, here, rest⟩
      exact ⟨position, wait, getElem?_concat_iff.mpr (.inl here), rest⟩
  exact {
    keyed with
    last := fun id other isLast => by rw [taken]; exact keyed.last id other isLast
    done := fun other done => keyed.done other (done.imp id (taken other).mp)
    result := fun id other landed isLast => by rw [taken]; exact keyed.result id other landed isLast
    waited := fun position wait here => by
      rcases getElem?_concat_iff.mp here with old | ⟨-, rfl⟩
      · exact keyed.waited position wait old
      · exact asked
    waiting := fun position wait here progress => by
      rcases getElem?_concat_iff.mp here with old | ⟨-, rfl⟩
      · obtain ⟨isLast, free, rest⟩ := keyed.waiting position wait old progress
        exact ⟨isLast, fun took => free ((taken _).mp took), rest⟩
      · exact ⟨last, fun took => untaken ((taken _).mp took), fun event same => (WaitPhase.blocked.inj same).symm,
          fun woke => by cases woke⟩
    single := fun one two first second atOne atTwo progress others same => by
      have waitsOver : ∀ (position : Nat) (wait : Wait), worker.waits[position]? = some wait →
          wait.requestId = requestId → ¬ wait.phase.inProgress = true := fun position wait here id progress => by
        rw [(awaitable.2 wait (List.mem_of_getElem? here)).1 id] at progress
        cases progress
      rcases getElem?_concat_iff.mp atOne with old | ⟨here, rfl⟩ <;>
        rcases getElem?_concat_iff.mp atTwo with older | ⟨there, rfl⟩
      · exact keyed.single one two first second old older progress others same
      · exact absurd progress (waitsOver one first old same)
      · exact absurd others (waitsOver two second older same.symm)
      · exact here.trans there.symm
    answers := fun wait member => by
      rcases List.mem_append.mp member with old | new
      · exact keyed.answers wait old
      · cases List.mem_singleton.mp new
        exact ⟨by simp, fun recorded phase => by cases phase⟩ }

theorem taken_set (here : worker.waits[position]? = some wait) (progress : wait.phase.inProgress = true)
    (waits : next.waits = worker.waits.set position { wait with phase := phase }) (other : Nat) :
    next.Taken other ↔ worker.Taken other ∨ wait.submission = other ∧ phase.isAnswered = true := by
  simp only [Taken, waits]
  constructor
  · rintro ⟨at', found, there, same, answered⟩
    rcases getElem?_set_iff.mp there with ⟨-, -, rfl⟩ | ⟨-, old⟩
    · exact .inr ⟨same, answered⟩
    · exact .inl ⟨at', found, old, same, answered⟩
  · rintro (⟨at', found, there, same, answered⟩ | ⟨same, answered⟩)
    · refine ⟨at', found, getElem?_set_iff.mpr (.inr ⟨fun same' => ?_, there⟩), same, answered⟩
      rw [← same', here] at there
      cases there
      cases at' : wait.phase <;> simp [at', WaitPhase.inProgress, WaitPhase.isAnswered] at progress answered
    · exact ⟨position, _, getElem?_set_iff.mpr (.inl ⟨rfl, (List.getElem?_eq_some_iff.mp here).1, rfl⟩), same, answered⟩

theorem Keyed.setPhase (keyed : worker.Keyed) (here : worker.waits[position]? = some wait)
    (progress : wait.phase.inProgress = true)
    (moved : (∃ ack, phase = .timedOut ack) ∨ phase = .woken ∧ worker.isSet wait.submission = true) :
    (worker.setPhase position wait phase).Keyed := by
  have taken : ∀ other, (worker.setPhase position wait phase).Taken other ↔ worker.Taken other := by
    intro other
    rw [taken_set here progress rfl]
    refine or_iff_left fun answered => ?_
    rcases moved with ⟨ack, rfl⟩ | ⟨rfl, -⟩ <;> cases answered.2
  exact {
    keyed with
    last := fun id other isLast => by rw [taken]; exact keyed.last id other isLast
    done := fun other done => keyed.done other (done.imp id (taken other).mp)
    result := fun id other landed isLast => by rw [taken]; exact keyed.result id other landed isLast
    waited := fun at' found there => by
      rcases getElem?_set_iff.mp there with ⟨-, -, rfl⟩ | ⟨-, old⟩
      · exact keyed.waited position wait here
      · exact keyed.waited at' found old
    waiting := fun at' found there moving => by
      rcases getElem?_set_iff.mp there with ⟨-, -, rfl⟩ | ⟨-, old⟩
      · obtain ⟨isLast, free, -, -⟩ := keyed.waiting position wait here progress
        refine ⟨isLast, fun took => free ((taken _).mp took), fun event blocked => ?_, fun _ => ?_⟩
        · rcases moved with ⟨ack, rfl⟩ | ⟨rfl, -⟩ <;> cases blocked
        · rcases moved with ⟨ack, rfl⟩ | ⟨-, set⟩
          · cases moving
          · exact set
      · obtain ⟨isLast, free, rest⟩ := keyed.waiting at' found old moving
        exact ⟨isLast, fun took => free ((taken _).mp took), rest⟩
    single := fun one two first second atOne atTwo moving others same => by
      rcases getElem?_set_iff.mp atOne with ⟨sameOne, -, rfl⟩ | ⟨-, old⟩ <;>
        rcases getElem?_set_iff.mp atTwo with ⟨sameTwo, -, rfl⟩ | ⟨-, older⟩
      · exact sameOne.symm.trans sameTwo
      · exact sameOne ▸ keyed.single position two wait second here older progress others same
      · exact sameTwo ▸ keyed.single one position first wait old here moving progress same
      · exact keyed.single one two first second old older moving others same
    answers := fun found member => by
      rcases List.mem_or_eq_of_mem_set member with old | rfl
      · exact keyed.answers found old
      · rcases moved with ⟨ack, rfl⟩ | ⟨rfl, -⟩ <;> exact ⟨by simp, fun recorded same => by cases same⟩ }

theorem Keyed.waitReturned (keyed : worker.Keyed) (here : worker.waits[position]? = some wait)
    (woken : wait.phase = .woken) :
    ((worker.popResult wait.requestId).2.setPhase position wait (worker.popResult wait.requestId).1).Keyed := by
  have progress : wait.phase.inProgress = true := by rw [woken]; rfl
  obtain ⟨isLast, free, -, set⟩ := keyed.waiting position wait here progress
  obtain ⟨ack, result⟩ := (keyed.result _ _ (.inl (set woken)) isLast).resolve_right free
  have pop : worker.popResult wait.requestId =
      (.answered ⟨wait.submission, ack⟩, { worker with
        events := Function.update worker.events wait.requestId none
        results := Function.update worker.results wait.requestId none }) := by
    rw [popResult, result]
  rw [pop]
  have taken : ∀ other, Taken (CommandWorker.setPhase position wait (.answered ⟨wait.submission, ack⟩) { worker with
      events := Function.update worker.events wait.requestId none
      results := Function.update worker.results wait.requestId none }) other ↔
        worker.Taken other ∨ wait.submission = other := by
    intro other
    rw [taken_set here progress rfl]
    exact or_congr_right (and_iff_left rfl)
  -- No other wait for this id is in progress, so popping its result takes nothing from anyone.
  have unique : ∀ (at' : Nat) (found : Wait), at' ≠ position → worker.waits[at']? = some found →
      found.phase.inProgress = true → found.requestId ≠ wait.requestId := fun at' found other there moving same =>
    other (keyed.single at' position found wait there here moving progress same)
  exact {
    keyed with
    event := fun id event found => by
      simp only [CommandWorker.setPhase, Function.update_apply] at found
      split at found
      · cases found
      · exact keyed.event id event found
    last := fun id other last => by
      rw [taken]
      simp only [CommandWorker.setPhase, Function.update_apply]
      split
      · next same => exact .inr (.inr (IsLast.unique (same ▸ isLast) last))
      · exact (keyed.last id other last).imp_right .inl
    done := fun other done => by
      rcases done with landed | took
      · exact keyed.done other (.inl landed)
      · rcases (taken other).mp took with old | rfl
        · exact keyed.done other (.inr old)
        · exact keyed.done wait.submission (.inl (.inl (set woken)))
    result := fun id other landed last => by
      rw [taken]
      simp only [CommandWorker.setPhase, Function.update_apply]
      split
      · next same => exact .inr (.inr (IsLast.unique (same ▸ isLast) last))
      · exact (keyed.result id other landed last).imp_right .inl
    known := fun id recorded found => by
      simp only [CommandWorker.setPhase, Function.update_apply] at found
      split at found
      · cases found
      · exact keyed.known id recorded found
    waited := fun at' found there => by
      rcases getElem?_set_iff.mp there with ⟨-, -, rfl⟩ | ⟨-, old⟩
      · exact keyed.waited position wait here
      · exact keyed.waited at' found old
    waiting := fun at' found there moving => by
      rcases getElem?_set_iff.mp there with ⟨-, -, rfl⟩ | ⟨other, old⟩
      · cases moving
      · obtain ⟨last, untaken, rest⟩ := keyed.waiting at' found old moving
        refine ⟨last, fun took => ?_, rest⟩
        rcases (taken _).mp took with old' | same
        · exact untaken old'
        · -- Two waits for one submission are for one id.
          have id := keyed.waited at' found old
          rw [← same, keyed.waited position wait here] at id
          exact unique at' found (Ne.symm other) old moving (Option.some.inj id).symm
    single := fun one two first second atOne atTwo moving others same => by
      rcases getElem?_set_iff.mp atOne with ⟨-, -, rfl⟩ | ⟨-, old⟩
      · cases moving
      · rcases getElem?_set_iff.mp atTwo with ⟨-, -, rfl⟩ | ⟨-, older⟩
        · cases others
        · exact keyed.single one two first second old older moving others same
    answers := fun found member => by
      rcases List.mem_or_eq_of_mem_set member with old | rfl
      · exact keyed.answers found old
      · refine ⟨by simp, fun recorded same => ?_⟩
        cases same
        exact ⟨rfl, keyed.known _ _ result⟩ }

end Waiting

/-! ### The thread and shutdowns -/

theorem Keyed.requeue {queue : List Entry} {closed : Bool} {shutdowns : List Shutdown} (keyed : worker.Keyed)
    (subset : ∀ number job, .job number job ∈ queue → .job number job ∈ worker.queue) :
    Keyed { worker with queue := queue, closed := closed, shutdowns := shutdowns } := by
  have outstanding : ∀ submission, Outstanding { worker with
      queue := queue, closed := closed, shutdowns := shutdowns } submission → worker.Outstanding submission :=
    fun submission => Or.imp_left fun ⟨job, member⟩ => ⟨job, subset submission job member⟩
  exact {
    keyed with
    queued := fun number job member => keyed.queued number job (subset number job member)
    distinct := fun number job current member => keyed.distinct number job current (subset number job member)
    outstanding := fun id submission out => keyed.outstanding id submission (outstanding submission out)
    done := fun submission done =>
      ⟨(keyed.done submission done).1, fun out => (keyed.done submission done).2 (outstanding submission out)⟩ }

theorem Keyed.takeJob {number : Nat} {job : Job} {rest : List Entry} (keyed : worker.Keyed) (fifo : worker.Fifo)
    (idle : worker.thread = .idle) (queued : worker.queue = .job number job :: rest) :
    Keyed { worker with thread := .running number job, queue := rest } := by
  -- The numbers in the queue are the submissions, each once.
  have fresh : number ∉ rest.filterMap Entry.number := by
    have accounted := fifo.accounted
    rw [idle, queued] at accounted
    have nodup := accounted ▸ List.nodup_range (n := worker.jobs.length)
    have tail := nodup.of_append_right
    exact (List.nodup_cons.mp tail).1
  have member : Entry.job number job ∈ worker.queue := queued ▸ List.mem_cons_self
  have outstanding : ∀ submission, Outstanding { worker with thread := .running number job, queue := rest } submission →
      worker.Outstanding submission := by
    rintro submission (⟨job', inside⟩ | current)
    · exact .inl ⟨job', queued ▸ List.mem_cons_of_mem _ inside⟩
    · cases current
      exact .inl ⟨job, member⟩
  have landed : ∀ submission, Landed { worker with thread := .running number job, queue := rest } submission →
      worker.Landed submission := fun submission => Or.imp_right fun recorded => by cases recorded
  exact {
    keyed with
    queued := fun n job' inside => keyed.queued n job' (queued ▸ List.mem_cons_of_mem _ inside)
    running := fun n job' same => by cases same; exact keyed.queued number job member
    acked := fun n id ack same => by cases same
    distinct := fun n job' same inside => by
      cases same
      exact fresh (List.mem_filterMap.mpr ⟨_, inside, rfl⟩)
    outstanding := fun id submission out => keyed.outstanding id submission (outstanding submission out)
    done := fun submission done =>
      have before := keyed.done submission (done.imp_left (landed submission))
      ⟨before.1, fun out => before.2 (outstanding submission out)⟩
    result := fun id submission land => keyed.result id submission (landed submission land) }

theorem Keyed.takeShutdown {rest : List Entry} (keyed : worker.Keyed)
    (queued : worker.queue = .shutdown :: rest) : Keyed { worker with thread := .finished, queue := rest } := by
  have outstanding : ∀ submission, Outstanding { worker with thread := .finished, queue := rest } submission →
      worker.Outstanding submission := by
    rintro submission (⟨job', inside⟩ | current)
    · exact .inl ⟨job', queued ▸ List.mem_cons_of_mem _ inside⟩
    · cases current
  have landed : ∀ submission, Landed { worker with thread := .finished, queue := rest } submission →
      worker.Landed submission := fun submission => Or.imp_right fun recorded => by cases recorded
  exact {
    keyed with
    queued := fun n job' inside => keyed.queued n job' (queued ▸ List.mem_cons_of_mem _ inside)
    running := fun n job' same => by cases same
    acked := fun n id ack same => by cases same
    distinct := fun n job' same => by cases same
    outstanding := fun id submission out => keyed.outstanding id submission (outstanding submission out)
    done := fun submission done =>
      have before := keyed.done submission (done.imp_left (landed submission))
      ⟨before.1, fun out => before.2 (outstanding submission out)⟩
    result := fun id submission land => keyed.result id submission (landed submission land) }

theorem Keyed.finish {number : Nat} {job : Job} {outcome : Outcome} (keyed : worker.Keyed)
    (running : worker.thread = .running number job) : (worker.finish number job outcome).Keyed := by
  have here := keyed.running number job running
  -- The thread dies of what is no `Exception`, goes on, or has an ack to record.
  have threadCases : (worker.finish number job outcome).thread = .died ∨
      (worker.finish number job outcome).thread = .idle ∨
      ∃ requestId ack, job.requestId = some requestId ∧ job.ack outcome = some ack ∧
        (worker.finish number job outcome).thread = .acked number requestId ack := by
    unfold CommandWorker.finish
    cases ended : job.ack outcome with
    | none => exact .inl rfl
    | some ack =>
      cases asked : job.requestId with
      | none => exact .inr (.inl rfl)
      | some requestId => exact .inr (.inr ⟨requestId, ack, rfl, rfl, rfl⟩)
  have grown : ∀ recorded ∈ worker.acks, recorded ∈ (worker.finish number job outcome).acks :=
    fun recorded member => List.mem_append_left _ member
  have numbered : ∀ n, (worker.finish number job outcome).thread.number = some n → n = number := by
    intro n same
    rcases threadCases with died | idle | ⟨requestId, ack, -, -, acked⟩
    · rw [died] at same; cases same
    · rw [idle] at same; cases same
    · rw [acked] at same; exact (Option.some.inj same).symm
  have current : worker.thread.number = some number := by rw [running]; rfl
  have outstanding : ∀ submission, (worker.finish number job outcome).Outstanding submission →
      worker.Outstanding submission :=
    fun submission => Or.imp_right fun same => numbered submission same ▸ current
  have landed : ∀ submission, (worker.finish number job outcome).Landed submission → worker.Landed submission :=
    fun submission => Or.imp_right fun recorded => by
      rcases threadCases with died | idle | ⟨requestId, ack, -, -, acked⟩
      · cases died.symm.trans recorded
      · cases idle.symm.trans recorded
      · cases acked.symm.trans recorded
  exact {
    keyed with
    running := fun n job' same => by
      rcases threadCases with died | idle | ⟨requestId, ack, -, -, acked⟩
      · cases died.symm.trans same
      · cases idle.symm.trans same
      · cases acked.symm.trans same
    acked := fun n id ack same => by
      rcases threadCases with died | idle | ⟨requestId, found, asked, ended, acked⟩
      · cases died.symm.trans same
      · cases idle.symm.trans same
      · cases acked.symm.trans same
        refine ⟨Option.bind_eq_some_iff.mpr ⟨job, here, asked⟩, ?_⟩
        simp [CommandWorker.finish, ended]
    distinct := fun n job' same => keyed.distinct n job' (numbered n same ▸ current)
    outstanding := fun id submission out => keyed.outstanding id submission (outstanding submission out)
    done := fun submission done =>
      have before := keyed.done submission (done.imp_left (landed submission))
      ⟨before.1, fun out => before.2 (outstanding submission out)⟩
    result := fun id submission land => keyed.result id submission (landed submission land)
    known := fun id recorded found => grown recorded (keyed.known id recorded found)
    answers := fun wait member => ⟨(keyed.answers wait member).1, fun recorded phase =>
      ⟨((keyed.answers wait member).2 recorded phase).1, grown recorded ((keyed.answers wait member).2 recorded phase).2⟩⟩ }

theorem Keyed.record {number : Nat} {requestId : String} {ack : AckData} (keyed : worker.Keyed)
    (acked : worker.thread = .acked number requestId ack) : (worker.record number requestId ack).Keyed := by
  obtain ⟨asked, member⟩ := keyed.acked number requestId ack acked
  have current : worker.thread.number = some number := by rw [acked]; rfl
  have isLast : worker.IsLast requestId number := keyed.outstanding requestId number (.inr current) asked
  -- The event under the id is that of this very job: it was the last submission for it, and no wait took it away.
  have found : worker.events requestId = some number :=
    (keyed.last requestId number isLast).resolve_right fun took => (keyed.done number (.inr took)).2 (.inr current)
  have landed : ∀ submission, (worker.record number requestId ack).Landed submission →
      worker.isSet submission = true ∨ submission = number := fun submission => Or.imp_right fun recorded => by
    rw [CommandWorker.record, found] at recorded
    cases recorded
    rfl
  exact {
    keyed with
    running := fun n job same => by cases same
    acked := fun n id other same => by cases same
    distinct := fun n job same => by cases same
    outstanding := fun id submission out => keyed.outstanding id submission (out.imp_right fun same => by cases same)
    done := fun submission done => by
      rcases done with land | took
      · rcases landed submission land with set | rfl
        · have before := keyed.done submission (.inl (.inl set))
          exact ⟨before.1, fun out => before.2 (out.imp_right fun same => by cases same)⟩
        · refine ⟨requestOf_lt asked, fun out => ?_⟩
          rcases out with ⟨job, inside⟩ | same
          · exact keyed.distinct _ job current inside
          · cases same
      · have before := keyed.done submission (.inr took)
        exact ⟨before.1, fun out => before.2 (out.imp_right fun same => by cases same)⟩
    result := fun id submission land last => by
      simp only [CommandWorker.record, Function.update_apply]
      split
      · next same =>
        have unique : submission = number := IsLast.unique last (same ▸ isLast)
        exact .inl ⟨ack, by rw [unique]⟩
      · next other =>
        rcases landed submission land with set | rfl
        · exact keyed.result id submission (.inl set) last
        · exact absurd (Option.some.inj (last.1.symm.trans asked)) other
    known := fun id recorded here => by
      simp only [CommandWorker.record, Function.update_apply] at here
      split at here
      · cases here; exact member
      · exact keyed.known id recorded here }

theorem Keyed.signal {event : Option Nat} (keyed : worker.Keyed) (recorded : worker.thread = .recorded event) :
    (worker.signal event).Keyed := by
  have set : ∀ submission, (worker.signal event).isSet submission = true ↔
      worker.isSet submission = true ∨ event = some submission := by
    intro submission
    unfold CommandWorker.signal
    cases event with
    | none => simp
    | some number => by_cases same : submission = number <;> simp [same, Ne.symm]
  have landed : ∀ submission, (worker.signal event).Landed submission → worker.Landed submission := by
    rintro submission (isSet | same)
    · rcases (set submission).mp isSet with old | rfl
      · exact .inl old
      · exact .inr recorded
    · cases same
  exact {
    keyed with
    running := fun n job same => by cases same
    acked := fun n id other same => by cases same
    distinct := fun n job same => by cases same
    outstanding := fun id submission out => keyed.outstanding id submission (out.imp_right fun same => by cases same)
    done := fun submission done =>
      have before := keyed.done submission (done.imp_left (landed submission))
      ⟨before.1, fun out => before.2 (out.imp_right fun same => by cases same)⟩
    result := fun id submission land => keyed.result id submission (landed submission land)
    waiting := fun position wait here progress =>
      have before := keyed.waiting position wait here progress
      ⟨before.1, before.2.1, before.2.2.1, fun woke => (set _).mpr (.inl (before.2.2.2 woke))⟩ }

theorem Keyed.step (keyed : worker.Keyed) (fifo : worker.Fifo) (separate : Separate worker event)
    (step : worker.step event = some next) : next.Keyed := by
  cases event with
  | submitted job =>
    simp only [CommandWorker.step] at step
    split at step
    · next submitted => cases step; exact keyed.submit separate submitted
    · cases step; exact keyed
  | waitBegan submission timeout =>
    simp only [CommandWorker.step] at step
    split at step
    · next requestId asked => cases step; exact keyed.waitBegan asked (separate requestId asked)
    · cases step
  | waitTimedOut position =>
    simp only [CommandWorker.step] at step
    split at step
    · split at step
      · cases step
      · next here _ => cases step; exact keyed.setPhase here rfl (.inl ⟨_, rfl⟩)
    · cases step
  | waitWoke position =>
    simp only [CommandWorker.step] at step
    split at step
    · split at step
      · next here set =>
        cases step
        -- A blocked wait holds the event of its own submission.
        have own := (keyed.waiting _ _ here rfl).2.2.1 _ rfl
        exact keyed.setPhase here rfl (.inr ⟨rfl, own ▸ set⟩)
      · cases step
    · cases step
  | waitReturned position =>
    simp only [CommandWorker.step] at step
    split at step
    · next here => cases step; exact keyed.waitReturned here rfl
    · cases step
  | shutdownBegan =>
    cases step
    refine keyed.requeue fun number job member => ?_
    split at member
    · rcases List.mem_append.mp member with old | new
      · exact old
      · cases List.mem_singleton.mp new
    · exact member
  | shutdownReturned position =>
    simp only [CommandWorker.step] at step
    split at step
    · cases step; exact keyed.requeue fun _ _ member => member
    · cases step
  | took =>
    simp only [CommandWorker.step] at step
    split at step
    · cases step; exact keyed.takeJob fifo ‹_› ‹_›
    · cases step; exact keyed.takeShutdown ‹_›
    · cases step
  | executed outcome =>
    simp only [CommandWorker.step] at step
    split at step
    · cases step; exact keyed.finish ‹_›
    · cases step
  | recorded =>
    simp only [CommandWorker.step] at step
    split at step
    · cases step; exact keyed.record ‹_›
    · cases step
  | signalled =>
    simp only [CommandWorker.step] at step
    split at step
    · cases step; exact keyed.signal ‹_›
    · cases step

theorem keyed_initial : commandWorker.initial.Keyed := by
  refine ⟨?_, ?_, ?_, ?_, ?_, ?_, ?_, ?_, ?_, ?_, ?_, ?_, ?_, ?_⟩ <;>
    simp [commandWorker, IsLast, Taken, Outstanding, Landed, requestOf, Answers, Worker.number]

end CommandWorker

/-- In every run whose jobs end with a return or an `Exception`, jobs are executed once and in order, all of them
before a `shutdown` returns true and none after; if moreover a request id is in the hands of one request at a time,
every `wait` that returns an ack returns the one of its own submission, and none raises. -/
theorem commands_settle {history : List WorkerEvent} {worker : CommandWorker}
    (reached : commandWorker.reached history = some worker) :
    (commandWorker.Throughout Survives history →
      worker.Drains ∧ commandWorker.Throughout NotAfterShutdown history) ∧
    (commandWorker.Throughout Separate history → worker.Answers) := by
  constructor
  · intro survives
    have alive : worker.thread ≠ .died :=
      System.invariant (P := fun worker => worker.thread ≠ .died) (by simp [commandWorker])
        (fun _ _ _ alive survives step => CommandWorker.not_died survives alive step) survives reached
    exact ⟨(CommandWorker.reached_fifo reached).drains alive, CommandWorker.never_after_shutdown reached⟩
  · intro separate
    have both : worker.Fifo ∧ worker.Keyed :=
      System.invariant (P := fun worker => worker.Fifo ∧ worker.Keyed)
        ⟨CommandWorker.reached_fifo System.reached_nil, CommandWorker.keyed_initial⟩
        (fun _ _ _ both separate step => ⟨both.1.step step, both.2.step both.1 separate step⟩) separate reached
    exact both.2.answers

/-- A request waits for its job, and the session shuts down afterwards. -/
def waitedSave : List WorkerEvent :=
  [.shutdownReturned 0, .took, .shutdownBegan, .waitReturned 0, .waitWoke 0, .signalled, .recorded,
    .executed .returned, .took, .waitBegan 0 30, .submitted ⟨"save_episode", some "save-1"⟩]

theorem waited_save_settles :
    ∃ worker, commandWorker.reached waitedSave = some worker ∧ worker.Drains ∧
      commandWorker.Throughout NotAfterShutdown waitedSave ∧ worker.Answers :=
  have settle := @commands_settle waitedSave _ rfl
  ⟨_, rfl, (settle.1 (by decide)).1, (settle.1 (by decide)).2, settle.2 (by decide)⟩

/-- A request is sent again after its `wait` timed out behind a long job: the second `wait` returns the ack of the
first job while its own is still queued. -/
def resentSave : List WorkerEvent :=
  [.waitReturned 1, .waitWoke 1, .signalled, .recorded, .executed .returned, .took, .waitBegan 1 30,
    .submitted ⟨"save_episode", some "save-1"⟩, .waitTimedOut 0, .waitBegan 0 30,
    .submitted ⟨"save_episode", some "save-1"⟩]

theorem resent_save_gets_old_ack :
    ¬ ∀ (history : List WorkerEvent) (worker : CommandWorker), commandWorker.reached history = some worker →
      worker.Drains ∧ commandWorker.Throughout NotAfterShutdown history ∧ worker.Answers := by
  intro every
  have answers := (every resentSave _ rfl).2.2
  have waits : (commandWorker.reached resentSave).map CommandWorker.waits =
      some [⟨0, "save-1", 30, .timedOut (CommandWorker.timeoutAck "save-1" 30)⟩,
        ⟨1, "save-1", 30, .answered ⟨0, ⟨"save-1", true, none⟩⟩⟩] := by decide
  have member : (⟨1, "save-1", 30, .answered ⟨0, ⟨"save-1", true, none⟩⟩⟩ : Wait) ∈
      ((commandWorker.reached resentSave).map CommandWorker.waits).getD [] := by
    rw [waits]
    decide
  exact absurd ((answers _ member).2 _ rfl).1 (by decide)

end PhysicalAiStudio.Runtime.CommandThread
