import PhysicalAiStudio.Interaction.Dialogue

/-! What holds of a transcript: the replies a dialogue got, newest first.

A rule relates a reply to the ones before it. A fact that lasts stays true while replies come in.
-/

set_option autoImplicit false

namespace PhysicalAiStudio.Interaction

variable {Question : Type} {Answer : Question → Type}

def Always (rule : Reply Answer → List (Reply Answer) → Prop) : List (Reply Answer) → Prop
  | [] => True
  | reply :: earlier => rule reply earlier ∧ Always rule earlier

/-- What stays true while replies come in. -/
structure Lasting (fact : List (Reply Answer) → Prop) : Prop where
  cons : ∀ reply told, fact told → fact (reply :: told)

theorem Lasting.and {fact other : List (Reply Answer) → Prop} (lasting : Lasting fact) (also : Lasting other) :
    Lasting fun told => fact told ∧ other told :=
  ⟨fun reply told both => ⟨lasting.cons reply told both.1, also.cons reply told both.2⟩⟩

theorem Lasting.or {fact other : List (Reply Answer) → Prop} (lasting : Lasting fact) (also : Lasting other) :
    Lasting fun told => fact told ∨ other told :=
  ⟨fun reply told either => either.imp (lasting.cons reply told) (also.cons reply told)⟩

theorem meets_asked {State Fault Value : Type} {question : Question} {next : Answer question → Dialogue State Answer Fault Value}
    {returns : Value → State → List (Reply Answer) → Prop} {raises : Fault → State → List (Reply Answer) → Prop}
    {pauses : State → List (Reply Answer) → Prop} {state : State} {told : List (Reply Answer)} (pause : pauses state told)
    (goes : ∀ answer, (next answer).Meets returns raises pauses state (⟨question, answer⟩ :: told)) :
    (Dialogue.query question >>= next).Meets returns raises pauses state told := by
  rw [Dialogue.meets_bind]
  exact ⟨pause, goes⟩

end PhysicalAiStudio.Interaction
