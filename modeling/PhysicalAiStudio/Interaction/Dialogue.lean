import PhysicalAiStudio.Concurrency.History

/-! Programs that ask their surroundings.

A dialogue asks one question after the other and goes on with the answers, over a
state of its own. No answer is excluded, so a statement about every script of
replies covers every behaviour of the surroundings. A loop is followed for a given
number of rounds; a dialogue cut there counts as one that still waits.
-/

set_option autoImplicit false

namespace PhysicalAiStudio.Interaction

inductive Dialogue (State : Type) {Question : Type} (Answer : Question → Type) (Fault Value : Type) where
  | done : Value → Dialogue State Answer Fault Value
  | raised : Fault → Dialogue State Answer Fault Value
  | unfinished
  | ask : (question : Question) → (Answer question → Dialogue State Answer Fault Value) →
      Dialogue State Answer Fault Value
  | read : (State → Dialogue State Answer Fault Value) → Dialogue State Answer Fault Value
  | write : State → Dialogue State Answer Fault Value → Dialogue State Answer Fault Value

structure Reply {Question : Type} (Answer : Question → Type) where
  question : Question
  answer : Answer question

inductive Exit (Fault Value : Type) where
  | returned (value : Value)
  | raised (fault : Fault)
  | waiting
  deriving DecidableEq

namespace Dialogue

variable {State Question Fault Value Other Local : Type} {Answer : Question → Type}

def bind : Dialogue State Answer Fault Value → (Value → Dialogue State Answer Fault Other) →
    Dialogue State Answer Fault Other
  | .done value, next => next value
  | .raised fault, _ => .raised fault
  | .unfinished, _ => .unfinished
  | .ask question rest, next => .ask question fun answer => (rest answer).bind next
  | .read rest, next => .read fun state => (rest state).bind next
  | .write state rest, next => .write state (rest.bind next)

instance : Monad (Dialogue State Answer Fault) where
  pure := .done
  bind := bind

def raise (fault : Fault) : Dialogue State Answer Fault Value := .raised fault

def query (question : Question) : Dialogue State Answer Fault (Answer question) :=
  .ask question .done

def view : Dialogue State Answer Fault State := .read .done

def modify (change : State → State) : Dialogue State Answer Fault Unit :=
  .read fun state => .write (change state) (.done ())

def unwrap : Except Fault Value → Dialogue State Answer Fault Value
  | .ok value => .done value
  | .error fault => .raised fault

/-- `try`/`except`: the fault of the body becomes a value. -/
def caught : Dialogue State Answer Fault Value → Dialogue State Answer Fault (Except Fault Value)
  | .done value => .done (.ok value)
  | .raised fault => .done (.error fault)
  | .unfinished => .unfinished
  | .ask question rest => .ask question fun answer => (rest answer).caught
  | .read rest => .read fun state => (rest state).caught
  | .write state rest => .write state rest.caught

/-- `while True`: a round ends with what the next one starts from, or with the value to return. -/
def loop (body : Local → Dialogue State Answer Fault (Local ⊕ Value)) :
    Nat → Local → Dialogue State Answer Fault Value
  | 0, _ => .unfinished
  | rounds + 1, start => (body start).bind (Sum.elim (loop body rounds) .done)

def play [DecidableEq Question] :
    Dialogue State Answer Fault Value → State → List (Reply Answer) → Option (Exit Fault Value × State)
  | .done value, state, script => if script.isEmpty then some (.returned value, state) else none
  | .raised fault, state, script => if script.isEmpty then some (.raised fault, state) else none
  | .unfinished, state, script => if script.isEmpty then some (.waiting, state) else none
  | .ask _ _, state, [] => some (.waiting, state)
  | .ask question rest, state, reply :: script =>
      if same : reply.question = question then (rest (same ▸ reply.answer)).play state script else none
  | .read rest, state, script => (rest state).play state script
  | .write state rest, _, script => rest.play state script

/-! ## What a dialogue achieves, whatever it is told -/

/-- The postconditions of a return and of a fault, and a condition on every pause between.
The replies so far are listed newest first. -/
def Meets (returns : Value → State → List (Reply Answer) → Prop)
    (raises : Fault → State → List (Reply Answer) → Prop) (pauses : State → List (Reply Answer) → Prop) :
    Dialogue State Answer Fault Value → State → List (Reply Answer) → Prop
  | .done value, state, told => returns value state told
  | .raised fault, state, told => raises fault state told
  | .unfinished, state, told => pauses state told
  | .ask question rest, state, told =>
      pauses state told ∧ ∀ answer, Meets returns raises pauses (rest answer) state (⟨question, answer⟩ :: told)
  | .read rest, state, told => Meets returns raises pauses (rest state) state told
  | .write state rest, _, told => Meets returns raises pauses rest state told

variable {returns returns' : Value → State → List (Reply Answer) → Prop}
  {raises raises' : Fault → State → List (Reply Answer) → Prop} {pauses : State → List (Reply Answer) → Prop}
  {state final : State} {told script : List (Reply Answer)}

def Achieved (returns : Value → State → List (Reply Answer) → Prop)
    (raises : Fault → State → List (Reply Answer) → Prop) (pauses : State → List (Reply Answer) → Prop)
    (state : State) (told : List (Reply Answer)) : Exit Fault Value → Prop
  | .returned value => returns value state told
  | .raised fault => raises fault state told
  | .waiting => pauses state told

/-- Every run of a dialogue that meets its conditions ends in them. -/
theorem Meets.achieved [DecidableEq Question] {program : Dialogue State Answer Fault Value} {exit : Exit Fault Value}
    (meets : program.Meets returns raises pauses state told) (ran : program.play state script = some (exit, final)) :
    Achieved returns raises pauses final (script.reverse ++ told) exit := by
  induction program generalizing state told script with
  | done value =>
    cases script with
    | nil => cases ran; exact meets
    | cons reply script => cases ran
  | raised fault =>
    cases script with
    | nil => cases ran; exact meets
    | cons reply script => cases ran
  | unfinished =>
    cases script with
    | nil => cases ran; exact meets
    | cons reply script => cases ran
  | ask question rest ih =>
    cases script with
    | nil => cases ran; exact meets.1
    | cons reply script =>
      simp only [play] at ran
      split at ran
      · rename_i same
        cases same
        rw [List.reverse_cons, List.append_assoc]
        exact ih reply.answer (meets.2 reply.answer) ran
      · cases ran
  | read rest ih => exact ih state meets ran
  | write next rest ih => exact ih meets ran

theorem Meets.mono {program : Dialogue State Answer Fault Value}
    (onReturn : ∀ value state told, returns value state told → returns' value state told)
    (onRaise : ∀ fault state told, raises fault state told → raises' fault state told)
    (meets : program.Meets returns raises pauses state told) : program.Meets returns' raises' pauses state told := by
  induction program generalizing state told with
  | done value => exact onReturn value state told meets
  | raised fault => exact onRaise fault state told meets
  | unfinished => exact meets
  | ask question rest ih => exact ⟨meets.1, fun answer => ih answer (meets.2 answer)⟩
  | read rest ih => exact ih state meets
  | write next rest ih => exact ih meets

/-! ## The rules, one for each way to build a dialogue -/

@[simp] theorem meets_pure (value : Value) :
    Meets returns raises pauses (pure value : Dialogue State Answer Fault Value) state told ↔
      returns value state told := Iff.rfl

@[simp] theorem meets_raise (fault : Fault) :
    Meets returns raises pauses (raise fault : Dialogue State Answer Fault Value) state told ↔
      raises fault state told := Iff.rfl

@[simp] theorem meets_bind (program : Dialogue State Answer Fault Other)
    (next : Other → Dialogue State Answer Fault Value) :
    Meets returns raises pauses (program >>= next) state told ↔
      program.Meets (fun value => Meets returns raises pauses (next value)) raises pauses state told := by
  change Meets returns raises pauses (program.bind next) state told ↔ _
  induction program generalizing state told with
  | done value => exact Iff.rfl
  | raised fault => exact Iff.rfl
  | unfinished => exact Iff.rfl
  | ask question rest ih => simp only [bind, Meets, ih]
  | read rest ih => simp only [bind, Meets, ih]
  | write state rest ih => simp only [bind, Meets, ih]

@[simp] theorem meets_query {question : Question} {returns : Answer question → State → List (Reply Answer) → Prop} :
    Meets returns raises pauses (query question : Dialogue State Answer Fault _) state told ↔
      pauses state told ∧ ∀ answer, returns answer state (⟨question, answer⟩ :: told) := Iff.rfl

@[simp] theorem meets_view {returns : State → State → List (Reply Answer) → Prop} :
    Meets returns raises pauses (view : Dialogue State Answer Fault State) state told ↔
      returns state state told := Iff.rfl

@[simp] theorem meets_modify (change : State → State) {returns : Unit → State → List (Reply Answer) → Prop} :
    Meets returns raises pauses (modify change : Dialogue State Answer Fault Unit) state told ↔
      returns () (change state) told := Iff.rfl

@[simp] theorem meets_unwrap (result : Except Fault Value) :
    Meets returns raises pauses (unwrap result : Dialogue State Answer Fault Value) state told ↔
      (∀ value, result = .ok value → returns value state told) ∧
        ∀ fault, result = .error fault → raises fault state told := by
  cases result <;> simp [unwrap, Meets]

@[simp] theorem meets_caught (program : Dialogue State Answer Fault Value)
    {returns : Except Fault Value → State → List (Reply Answer) → Prop} :
    Meets returns raises pauses program.caught state told ↔
      program.Meets (fun value => returns (.ok value)) (fun fault => returns (.error fault)) pauses state told := by
  induction program generalizing state told with
  | done value => exact Iff.rfl
  | raised fault => exact Iff.rfl
  | unfinished => exact Iff.rfl
  | ask question rest ih => simp only [caught, Meets, ih]
  | read rest ih => simp only [caught, Meets, ih]
  | write state rest ih => simp only [caught, Meets, ih]

@[simp] theorem meets_ite (condition : Prop) [Decidable condition] (first second : Dialogue State Answer Fault Value) :
    Meets returns raises pauses (if condition then first else second) state told ↔
      (condition → first.Meets returns raises pauses state told) ∧
        (¬condition → second.Meets returns raises pauses state told) := by
  by_cases condition <;> simp [*]

theorem meets_loop {body : Local → Dialogue State Answer Fault (Local ⊕ Value)}
    (invariant : Local → State → List (Reply Answer) → Prop)
    (between : ∀ start state told, invariant start state told → pauses state told)
    (round : ∀ start state told, invariant start state told →
      Meets (Sum.elim invariant returns) raises pauses (body start) state told)
    (rounds : Nat) {start : Local} (holds : invariant start state told) :
    Meets returns raises pauses (loop body rounds start) state told := by
  induction rounds generalizing start state told with
  | zero => exact between start state told holds
  | succ rounds ih =>
    have first := round start state told holds
    refine (meets_bind (body start) (Sum.elim (loop body rounds) .done)).mpr ?_
    refine first.mono (fun outcome state told ended => ?_) (fun _ _ _ raised => raised)
    cases outcome with
    | inl next => exact ih ended
    | inr value => exact ended

end Dialogue

end PhysicalAiStudio.Interaction
