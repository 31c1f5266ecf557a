import PhysicalAiStudio.Concurrency.Program
import Mathlib.Data.List.Nodup
import Mathlib.Data.List.Perm.Basic

/-! Rely-guarantee reasoning for pools of threads.

A protocol says what each thread may do to the memory in one action. A program
is safe when every action it can reach is one its own thread may take, whatever
the other threads do in between. The rules below compute the safety of a program
from its text, so a proof never mentions a schedule; `Pool.run_valid` then turns
safe programs into facts about every schedule.
-/

set_option autoImplicit false

namespace PhysicalAiStudio.Concurrency

/-- `Step` lists the actions allowed to a thread, `Inv` holds between actions,
`Entry` holds when a job starts, and `roster` recovers the jobs started so far
from the memory. -/
structure Protocol (Job Key Memory : Type) where
  key : Job → Key
  roster : Memory → List Job
  Step : Key → Memory → Memory → Prop
  Inv : Memory → Prop
  Entry : Job → Memory → Prop

namespace Protocol

variable {Job Key Fault Memory Value Other : Type} (protocol : Protocol Job Key Memory)

def Foreign (own : Key) (m n : Memory) : Prop :=
  protocol.Inv m ∧ ∃ other, other ≠ own ∧ protocol.Step other m n

def Interference (own : Key) : Memory → Memory → Prop :=
  Relation.ReflTransGen (protocol.Foreign own)

variable {protocol} in
theorem Interference.stable {own : Key} {P : Memory → Prop}
    (foreign : ∀ m n, protocol.Foreign own m n → P m → P n) {m n : Memory}
    (interference : protocol.Interference own m n) (holds : P m) : P n := by
  induction interference with
  | refl => exact holds
  | tail _ step ih => exact foreign _ _ step ih

/-- The new jobs are exactly those the memory gained, under keys not used before. -/
structure Starts (jobs : List Job) (m n : Memory) : Prop where
  recorded : protocol.roster n = jobs ++ protocol.roster m
  distinct : (jobs.map protocol.key).Nodup
  fresh : ∀ job ∈ jobs, protocol.key job ∉ (protocol.roster m).map protocol.key
  entry : ∀ job ∈ jobs, protocol.Entry job n

/-- Every action of the program is allowed, and its exit satisfies the postcondition
of a return or of a fault. -/
def Safe (own : Key) (post : Value → Memory → Prop) (fault : Fault → Memory → Prop) :
    Program Job Fault Memory Value → Memory → Prop
  | .done value, m => post value m
  | .raised reason, m => fault reason m
  | .atomic effect starts rest, m => ∀ n, protocol.Interference own m n → protocol.Inv n →
      (effect n = n ∨ protocol.Step own n (effect n)) ∧ protocol.Starts (starts n) n (effect n) ∧
        Safe own post fault (rest n) (effect n)

variable {protocol} {own : Key} {post : Value → Memory → Prop} {fault : Fault → Memory → Prop}

theorem Safe.mono {post' : Value → Memory → Prop} {fault' : Fault → Memory → Prop}
    (onValue : ∀ value m, post value m → post' value m)
    (onFault : ∀ reason m, fault reason m → fault' reason m)
    {program : Program Job Fault Memory Value} {m : Memory}
    (safe : protocol.Safe own post fault program m) : protocol.Safe own post' fault' program m := by
  induction program generalizing m with
  | done value => exact onValue value m safe
  | raised reason => exact onFault reason m safe
  | atomic effect starts rest ih =>
    intro n interference inv
    obtain ⟨step, started, next⟩ := safe n interference inv
    exact ⟨step, started, ih n next⟩

/-- Safety survives interference once the exits do. -/
theorem Safe.stable
    (onValue : ∀ value m n, protocol.Interference own m n → post value m → post value n)
    (onFault : ∀ reason m n, protocol.Interference own m n → fault reason m → fault reason n)
    {program : Program Job Fault Memory Value} {m n : Memory}
    (interference : protocol.Interference own m n)
    (safe : protocol.Safe own post fault program m) : protocol.Safe own post fault program n := by
  cases program with
  | done value => exact onValue value m n interference safe
  | raised reason => exact onFault reason m n interference safe
  | atomic effect starts rest => exact fun o further => safe o (interference.trans further)

/-! ## The rules, one for each way to build a program -/

@[simp] theorem safe_pure (value : Value) (m : Memory) :
    protocol.Safe own post fault (pure value : Program Job Fault Memory Value) m ↔ post value m := Iff.rfl

@[simp] theorem safe_raise (reason : Fault) (m : Memory) :
    protocol.Safe own post fault (Program.raise reason : Program Job Fault Memory Value) m ↔ fault reason m := Iff.rfl

theorem safe_atomic (effect : Memory → Memory) (starts : Memory → List Job)
    (rest : Memory → Program Job Fault Memory Value) (m : Memory) :
    protocol.Safe own post fault (.atomic effect starts rest) m ↔
      ∀ n, protocol.Interference own m n → protocol.Inv n →
        (effect n = n ∨ protocol.Step own n (effect n)) ∧ protocol.Starts (starts n) n (effect n) ∧
          protocol.Safe own post fault (rest n) (effect n) := Iff.rfl

@[simp] theorem safe_bind (program : Program Job Fault Memory Other)
    (next : Other → Program Job Fault Memory Value) (m : Memory) :
    protocol.Safe own post fault (program >>= next) m ↔
      protocol.Safe own (fun value n => protocol.Safe own post fault (next value) n) fault program m := by
  change protocol.Safe own post fault (program.bind next) m ↔ _
  induction program generalizing m with
  | done value => rfl
  | raised reason => rfl
  | atomic effect starts rest ih => simp only [Program.bind, safe_atomic, ih]

@[simp] theorem safe_start (action : Memory → Value × Memory) (jobs : Memory → List Job) (m : Memory) :
    protocol.Safe own post fault (Program.start action jobs : Program Job Fault Memory Value) m ↔
      ∀ n, protocol.Interference own m n → protocol.Inv n →
        ((action n).2 = n ∨ protocol.Step own n (action n).2) ∧
          protocol.Starts (jobs n) n (action n).2 ∧ post (action n).1 (action n).2 := Iff.rfl

theorem starts_nil (m n : Memory) : protocol.Starts [] m n ↔ protocol.roster n = protocol.roster m :=
  ⟨fun starts => starts.recorded, fun same => ⟨same, by simp, by simp, by simp⟩⟩

@[simp] theorem safe_act (action : Memory → Value × Memory) (m : Memory) :
    protocol.Safe own post fault (Program.act action : Program Job Fault Memory Value) m ↔
      ∀ n, protocol.Interference own m n → protocol.Inv n →
        ((action n).2 = n ∨ protocol.Step own n (action n).2) ∧
          protocol.roster (action n).2 = protocol.roster n ∧ post (action n).1 (action n).2 := by
  change (∀ n, _ → _ → _ ∧ protocol.Starts [] n (action n).2 ∧ post (action n).1 (action n).2) ↔ _
  simp only [starts_nil]

@[simp] theorem safe_read (view : Memory → Value) (m : Memory) :
    protocol.Safe own post fault (Program.read view : Program Job Fault Memory Value) m ↔
      ∀ n, protocol.Interference own m n → protocol.Inv n → post (view n) n := by
  simp [Program.read]

@[simp] theorem safe_modify {post : Unit → Memory → Prop} (change : Memory → Memory) (m : Memory) :
    protocol.Safe own post fault (Program.modify change : Program Job Fault Memory Unit) m ↔
      ∀ n, protocol.Interference own m n → protocol.Inv n →
        (change n = n ∨ protocol.Step own n (change n)) ∧
          protocol.roster (change n) = protocol.roster n ∧ post () (change n) := by
  simp [Program.modify]

@[simp] theorem safe_check {post : Unit → Memory → Prop} (reason : Option Fault) (m : Memory) :
    protocol.Safe own post fault (Program.check reason : Program Job Fault Memory Unit) m ↔
      (reason = none → post () m) ∧ ∀ x, reason = some x → fault x m := by
  cases reason with
  | none =>
    change post () m ↔ _
    simp
  | some x =>
    change fault x m ↔ _
    simp

@[simp] theorem safe_attempt (handler : Fault → Program Job Fault Memory Value)
    (program : Program Job Fault Memory Value) (m : Memory) :
    protocol.Safe own post fault (program.attempt handler) m ↔
      protocol.Safe own post (fun reason n => protocol.Safe own post fault (handler reason) n) program m := by
  induction program generalizing m with
  | done value => rfl
  | raised reason => rfl
  | atomic effect starts rest ih => simp only [Program.attempt, safe_atomic, ih]

@[simp] theorem safe_ensuring (cleanup : Program Job Fault Memory Unit)
    (program : Program Job Fault Memory Value) (m : Memory) :
    protocol.Safe own post fault (Program.ensuring cleanup program) m ↔
      protocol.Safe own
        (fun value n => protocol.Safe own (fun _ o => post value o) fault cleanup n)
        (fun reason n => protocol.Safe own (fun _ o => fault reason o) fault cleanup n) program m := by
  induction program generalizing m with
  | done value => exact safe_bind cleanup (fun _ => .done value) m
  | raised reason => exact safe_bind cleanup (fun _ => .raised reason) m
  | atomic effect starts rest ih => simp only [Program.ensuring, safe_atomic, ih]

/-! ## From safe programs to every schedule -/

section Soundness

variable (protocol) (code : Job → Program Job Fault Memory Unit) (final : Key → Memory → Prop)

/-- What has to be proved of a protocol and of the code of its jobs. `final` is what
a thread has achieved once it has finished. -/
structure Sound : Prop where
  preserved : ∀ key m n, protocol.Step key m n → protocol.Inv m → protocol.Inv n
  lasting : ∀ key m n, protocol.Foreign key m n → final key m → final key n
  safe : ∀ job m, protocol.Entry job m → protocol.Inv m →
    protocol.Safe (protocol.key job) (fun _ => final (protocol.key job))
      (fun _ => final (protocol.key job)) (code job) m

structure Valid (pool : Pool Job Fault Memory) : Prop where
  inv : protocol.Inv pool.memory
  roster : (pool.threads.map (·.job)).Perm (protocol.roster pool.memory)
  distinct : ((protocol.roster pool.memory).map protocol.key).Nodup
  safe : ∀ thread ∈ pool.threads, protocol.Safe (protocol.key thread.job)
    (fun _ => final (protocol.key thread.job)) (fun _ => final (protocol.key thread.job))
    thread.rest pool.memory

end Soundness

section Run

variable {code : Job → Program Job Fault Memory Unit} {final : Key → Memory → Prop}

theorem Valid.position_eq {pool : Pool Job Fault Memory} (valid : protocol.Valid final pool)
    {first second : Nat} {one other : Thread Job Fault Memory}
    (atFirst : pool.threads[first]? = some one) (atSecond : pool.threads[second]? = some other)
    (same : protocol.key one.job = protocol.key other.job) : first = second := by
  have distinct : ((pool.threads.map (·.job)).map protocol.key).Nodup :=
    (valid.roster.map protocol.key).nodup_iff.mpr valid.distinct
  have bound := (List.getElem?_eq_some_iff.mp atFirst).1
  refine (List.getElem?_inj (by simpa using bound) distinct).mp ?_
  simp [atFirst, atSecond, same]

theorem Starts.distinct_keys {jobs : List Job} {m n : Memory} (starts : protocol.Starts jobs m n)
    (distinct : ((protocol.roster m).map protocol.key).Nodup) :
    ((protocol.roster n).map protocol.key).Nodup := by
  rw [starts.recorded, List.map_append]
  refine starts.distinct.append distinct fun key started => ?_
  obtain ⟨job, member, rfl⟩ := List.mem_map.mp started
  exact starts.fresh job member

/-- One scheduling step keeps the pool valid, and changes the memory only as the
thread that moved is allowed to. -/
theorem Valid.step (sound : protocol.Sound code final) {pool : Pool Job Fault Memory}
    (valid : protocol.Valid final pool) (position : Nat) :
    protocol.Valid final (pool.step code position) ∧
      ((pool.step code position).memory = pool.memory ∨
        ∃ thread, pool.threads[position]? = some thread ∧
          protocol.Step (protocol.key thread.job) pool.memory (pool.step code position).memory) := by
  unfold Pool.step
  split
  case h_2 => exact ⟨valid, .inl rfl⟩
  case h_1 job effect starts rest selected =>
    have member := List.mem_of_getElem? selected
    -- What the running thread guarantees, from any memory with the invariant.
    obtain ⟨change, started, next⟩ := valid.safe _ member pool.memory .refl valid.inv
    have inv : protocol.Inv (effect pool.memory) := by
      rcases change with same | step
      · exact same.symm ▸ valid.inv
      · exact sound.preserved _ _ _ step valid.inv
    refine ⟨⟨inv, ?_, started.distinct_keys valid.distinct, ?_⟩, change.imp id fun step => ⟨_, selected, step⟩⟩
    · have unchanged : (pool.threads.set position ⟨job, rest pool.memory⟩).map (·.job) =
          pool.threads.map (·.job) := by
        obtain ⟨bound, here⟩ := List.getElem?_eq_some_iff.mp selected
        have bound : position < (pool.threads.map (·.job)).length := by simpa using bound
        have same : job = (pool.threads.map (·.job))[position] := by simp [here]
        rw [List.map_set, same, List.set_getElem_self]
      simp only [List.map_append, unchanged, List.map_map, Function.comp_def, List.map_id', started.recorded]
      exact (List.perm_append_comm).trans (valid.roster.append_left _)
    · intro thread inside
      rcases List.mem_append.mp inside with old | new
      · obtain ⟨i, at_i⟩ := List.mem_iff_getElem?.mp old
        rw [List.getElem?_set] at at_i
        split at at_i
        · split at at_i
          · cases at_i; exact next
          · cases at_i
        case isFalse elsewhere =>
          -- A thread with another key may rely on what the step did.
          have other : protocol.key job ≠ protocol.key thread.job := fun same =>
            elsewhere (valid.position_eq selected at_i same)
          have interference : protocol.Interference (protocol.key thread.job) pool.memory (effect pool.memory) := by
            rcases change with same | step
            · rw [same]; exact .refl
            · exact .single ⟨valid.inv, _, other, step⟩
          exact (valid.safe thread (List.mem_of_getElem? at_i)).stable
            (fun _ _ _ between => between.stable (sound.lasting _))
            (fun _ _ _ between => between.stable (sound.lasting _)) interference
      · obtain ⟨fresh, isNew, rfl⟩ := List.mem_map.mp new
        exact sound.safe fresh _ (started.entry fresh isNew) inv

theorem Valid.run (sound : protocol.Sound code final) {pool : Pool Job Fault Memory}
    (valid : protocol.Valid final pool) (schedule : List Nat) :
    protocol.Valid final (pool.run code schedule) := by
  induction schedule generalizing pool with
  | nil => exact valid
  | cons position rest ih => exact ih (valid.step sound position).1

/-- What every allowed action preserves holds after every schedule. -/
theorem Valid.run_invariant (sound : protocol.Sound code final) {pool : Pool Job Fault Memory}
    (valid : protocol.Valid final pool) (P : Memory → Prop)
    (preserved : ∀ key m n, protocol.Step key m n → protocol.Inv m → P m → P n)
    (initial : P pool.memory) (schedule : List Nat) : P (pool.run code schedule).memory := by
  induction schedule generalizing pool with
  | nil => exact initial
  | cons position rest ih =>
    obtain ⟨next, change⟩ := valid.step sound position
    refine ih next ?_
    rcases change with same | ⟨thread, -, step⟩
    · exact same ▸ initial
    · exact preserved _ _ _ step valid.inv initial

theorem Valid.finished {pool : Pool Job Fault Memory} (valid : protocol.Valid final pool)
    {thread : Thread Job Fault Memory} (member : thread ∈ pool.threads)
    (finished : thread.rest.finished) : final (protocol.key thread.job) pool.memory := by
  have safe := valid.safe thread member
  obtain ⟨job, rest⟩ := thread
  cases rest with
  | done value => exact safe
  | raised reason => exact safe
  | atomic effect starts rest => cases finished

end Run

end Protocol

end PhysicalAiStudio.Concurrency
