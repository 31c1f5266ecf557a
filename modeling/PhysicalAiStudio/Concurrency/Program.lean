import Mathlib.Logic.Relation

/-! Threads over shared memory.

A thread is a program: a tree of atomic actions on the shared memory, where the
rest of the program may depend on what an action read. A program can raise a
fault, which a surrounding `attempt` catches, and an action can start daemon
threads. A scheduler runs the threads of a pool one action at a time in an
arbitrary order, so a statement about every schedule covers every interleaving.

Nothing here says which memory accesses are atomic. A model chooses its actions
so that each one is a lock section or touches at most one unprotected location.
-/

set_option autoImplicit false

namespace PhysicalAiStudio.Concurrency

/-- The rest of a thread. An action maps the memory, names the jobs it starts,
and selects what follows from the memory it found. -/
inductive Program (Job Fault Memory Value : Type) where
  | done : Value → Program Job Fault Memory Value
  | raised : Fault → Program Job Fault Memory Value
  | atomic : (Memory → Memory) → (Memory → List Job) →
      (Memory → Program Job Fault Memory Value) → Program Job Fault Memory Value

namespace Program

variable {Job Fault Memory Value Other : Type}

def bind : Program Job Fault Memory Value → (Value → Program Job Fault Memory Other) →
    Program Job Fault Memory Other
  | .done value, next => next value
  | .raised fault, _ => .raised fault
  | .atomic effect starts rest, next => .atomic effect starts fun m => (rest m).bind next

instance : Monad (Program Job Fault Memory) where
  pure := .done
  bind := bind

def act (action : Memory → Value × Memory) : Program Job Fault Memory Value :=
  .atomic (fun m => (action m).2) (fun _ => []) fun m => .done (action m).1

def start (action : Memory → Value × Memory) (jobs : Memory → List Job) :
    Program Job Fault Memory Value :=
  .atomic (fun m => (action m).2) jobs fun m => .done (action m).1

def read (view : Memory → Value) : Program Job Fault Memory Value :=
  act fun m => (view m, m)

def modify (change : Memory → Memory) : Program Job Fault Memory Unit :=
  act fun m => ((), change m)

def raise (fault : Fault) : Program Job Fault Memory Value := .raised fault

def check : Option Fault → Program Job Fault Memory Unit
  | none => .done ()
  | some fault => .raised fault

/-- `try`/`except`: the handler replaces the fault of the body. -/
def attempt (handler : Fault → Program Job Fault Memory Value) :
    Program Job Fault Memory Value → Program Job Fault Memory Value
  | .done value => .done value
  | .raised fault => handler fault
  | .atomic effect starts rest => .atomic effect starts fun m => attempt handler (rest m)

/-- `finally`: run the cleanup on every exit of the body and keep its outcome. -/
def ensuring (cleanup : Program Job Fault Memory Unit) :
    Program Job Fault Memory Value → Program Job Fault Memory Value
  | .done value => cleanup.bind fun _ => .done value
  | .raised fault => cleanup.bind fun _ => .raised fault
  | .atomic effect starts rest => .atomic effect starts fun m => ensuring cleanup (rest m)

/-- A thread that has no action left, by returning or by an uncaught fault. -/
def finished : Program Job Fault Memory Value → Bool
  | .atomic _ _ _ => false
  | _ => true

end Program

variable {Job Fault Memory : Type}

structure Thread (Job Fault Memory : Type) where
  job : Job
  rest : Program Job Fault Memory Unit

structure Pool (Job Fault Memory : Type) where
  memory : Memory
  threads : List (Thread Job Fault Memory)

/-- Let the thread at a position take its next action. A position without a
thread, or with a finished one, leaves the pool as it is. -/
def Pool.step (code : Job → Program Job Fault Memory Unit) (pool : Pool Job Fault Memory)
    (position : Nat) : Pool Job Fault Memory :=
  match pool.threads[position]? with
  | some ⟨job, .atomic effect starts rest⟩ =>
      { memory := effect pool.memory
        threads := pool.threads.set position ⟨job, rest pool.memory⟩ ++
          (starts pool.memory).map fun started => ⟨started, code started⟩ }
  | _ => pool

def Pool.run (code : Job → Program Job Fault Memory Unit) (pool : Pool Job Fault Memory)
    (schedule : List Nat) : Pool Job Fault Memory :=
  schedule.foldl (Pool.step code) pool

end PhysicalAiStudio.Concurrency
