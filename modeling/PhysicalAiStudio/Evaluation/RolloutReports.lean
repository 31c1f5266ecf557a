import PhysicalAiStudio.Evaluation.Rollout
import Mathlib.Data.Fin.VecNotation

/-! What the report of a rollout for one sub-environment depends on. -/

set_option autoImplicit false

namespace PhysicalAiStudio.Evaluation

variable {B : Nat}

/-! ### Rows up to the first done -/

theorem untilDone_of_undone {rows : List Row} (undone : ∀ row ∈ rows, row.done = false) : untilDone rows = rows := by
  induction rows with
  | nil => rfl
  | cons row rest ih =>
    have first : row.done = false := undone row List.mem_cons_self
    have later := ih fun other member => undone other (List.mem_cons_of_mem row member)
    simp [untilDone, first, later]

theorem untilDone_done {rows : List Row} (undone : ∀ row ∈ untilDone rows, row.done = false) :
    ∀ row ∈ rows, row.done = false := by
  induction rows with
  | nil => exact undone
  | cons row rest ih =>
    unfold untilDone at undone
    by_cases done : row.done = true
    · rw [if_pos done] at undone
      exact absurd (undone row List.mem_cons_self) (by simp [done])
    · rw [if_neg done] at undone
      intro other member
      rcases List.mem_cons.mp member with here | there
      · subst here
        exact undone other List.mem_cons_self
      · exact ih (fun listed present => undone listed (List.mem_cons_of_mem row present)) other there

theorem untilDone_append {rows : List Row} {row : Row} (member : row ∈ rows) (done : row.done = true) (more : List Row) :
    untilDone (untilDone rows ++ more) = untilDone rows := by
  induction rows with
  | nil => cases member
  | cons first rest ih =>
    by_cases stops : first.done = true
    · simp [untilDone, stops]
    · have later : row ∈ rest := by
        rcases List.mem_cons.mp member with here | there
        · exact absurd (here ▸ done) stops
        · exact there
      simp [untilDone, stops, ih later]

theorem untilDone_prefix (rows : List Row) : untilDone rows <+: rows := by
  induction rows with
  | nil => exact List.prefix_rfl
  | cons row rest ih =>
    unfold untilDone
    by_cases done : row.done = true
    · rw [if_pos done]
      exact ⟨rest, rfl⟩
    · rw [if_neg done]
      exact (List.prefix_cons_inj row).mpr ih

/-! ### The report of some rows -/

def reportOf : List Row → Option Report
  | [] => none
  | first :: rest => some {
      sumReward := ((first :: rest).map Row.reward).sum
      maxReward := rest.foldl (fun most row => max most row.reward) first.reward
      success := some ((first :: rest).any fun row => row.success.getD false) }

namespace Session
variable (session : Session B)

theorem loop_data (left : Nat) (st : LoopState session) (i : Fin B) :
    (session.loop left st).data.rewards = st.data.rewards ++ (session.answers left st).map StepOutput.reward ∧
      (session.loop left st).successMask i =
        (st.successMask i || ((session.answers left st).map fun output => output.row i).any fun row =>
          row.success.getD false) := by
  induction left generalizing st with
  | zero => simp [loop, answers]
  | succ left ih =>
    unfold loop answers
    by_cases done : ∀ i, st.doneMask i = true
    · simp [if_pos done]
    · obtain ⟨rewards, mask⟩ := ih (session.turn st)
      rw [if_neg done, if_neg done, rewards, mask]
      constructor
      · simp [turn, EpisodeData.addStep, processStepOutputs]
      · have flag : (extractSuccess (session.answer st).2.2.info).elim false (fun success => success i) =
            (((session.answer st).2.2.row i).success.getD false) := by
          cases flags : extractSuccess (session.answer st).2.2.info <;> simp [StepOutput.row, flags]
        simp only [turn, processStepOutputs, flag, List.map_cons, List.any_cons, Bool.or_assoc]

theorem report_eq (i : Fin B) : session.report i = reportOf (session.rows i) := by
  obtain ⟨rewards, mask⟩ := session.loop_data session.getMaxSteps.toNat session.setupRollout i
  have startData : session.setupRollout.data.rewards = [] := rfl
  have startMask : session.setupRollout.successMask i = false := rfl
  rw [startData, List.nil_append] at rewards
  rw [startMask, Bool.false_or] at mask
  simp only [report, rollout, runRolloutLoop, finalizeRollout, rewards, rows]
  cases answered : session.answers session.getMaxSteps.toNat session.setupRollout with
  | nil => rfl
  | cons first rest =>
    rw [answered] at mask
    simp [reportOf, RolloutResult.report, mask, List.foldl_map, StepOutput.row, Function.comp_def]

theorem answers_single (i : Fin B) (only : ∀ j, j = i) (left : Nat) (st : LoopState session) :
    untilDone ((session.answers left st).map fun output => output.row i) =
      (session.answers left st).map fun output => output.row i := by
  induction left generalizing st with
  | zero => rfl
  | succ left ih =>
    unfold answers
    by_cases stopped : ∀ i, st.doneMask i = true
    · simp [if_pos stopped, untilDone]
    · rw [if_neg stopped, List.map_cons, untilDone]
      by_cases done : ((session.answer st).2.2.row i).done = true
      · have all : ∀ j, (session.turn st).doneMask j = true := by
          intro j
          rw [only j]
          simp only [turn, processStepOutputs, Bool.or_eq_true]
          right
          simpa [Row.done, StepOutput.row] using done
        have ended : session.answers left (session.turn st) = [] := by
          cases left with
          | zero => rfl
          | succ left => rw [answers, if_pos all]
        rw [if_pos done, ended, List.map_nil]
      · rw [if_neg done, ih]

end Session

/-! ### Another rollout with the same first steps -/

def pays (reward : ℚ) : StepOutput B := ⟨fun _ => reward, fun _ => false, fun _ => false, .single fun _ => none⟩

def scripted (script : List (StepOutput B)) : Session B where
  S := List (StepOutput B)
  P := Unit
  O := Unit
  A := Unit
  gym := {
    maxEpisodeSteps := fun _ => none
    reset := fun st _ _ => (st, ())
    step := fun st _ => (st.tail, (), st.headD (pays 0)) }
  policy := { reset := id, selectAction := fun agent _ => (agent, ()) }
  env := script
  agent := ()
  seed := none
  maxSteps := some script.length
  rolloutIdx := 0

theorem scripted_answers {script : List (StepOutput B)} {j : Fin B}
    (running : ∀ output ∈ script, (processStepOutputs output).done j = false) {whole : List (StepOutput B)}
    (st : LoopState (scripted whole)) (atScript : st.env = script) (undone : st.doneMask j = false) :
    (scripted whole).answers script.length st = script := by
  induction script generalizing st with
  | nil => rfl
  | cons output rest ih =>
    have going : ¬∀ i, st.doneMask i = true := fun all => absurd (all j) (by simp [undone])
    have answered : (scripted whole).answer st = (rest, (), output) :=
      congrArg (fun env : List (StepOutput B) => (env.tail, (), env.headD (pays 0))) atScript
    rw [List.length_cons, Session.answers, if_neg going, answered]
    have tail := ih (fun later member => running later (List.mem_cons_of_mem output member))
      ((scripted whole).turn st) (congrArg Prod.fst answered) (by
        simp only [Session.turn, answered, undone, Bool.false_or]
        exact running output List.mem_cons_self)
    rw [tail]

def StepOutput.alone (output : StepOutput B) (i : Fin B) : StepOutput B :=
  { output with
    terminated := fun j => if j = i then output.terminated i else false
    truncated := fun j => if j = i then output.truncated i else false }

theorem StepOutput.alone_row (output : StepOutput B) (i : Fin B) : (output.alone i).row i = output.row i := by
  simp [alone, row]

theorem StepOutput.alone_running (output : StepOutput B) {i j : Fin B} (apart : j ≠ i) :
    (processStepOutputs (output.alone i)).done j = false := by
  simp [alone, processStepOutputs, apart]

theorem prolonged (session : Session B) {i j : Fin B} (apart : j ≠ i) {rows : List Row}
    (first : rows <+: session.rows i) (reward : ℚ) :
    ∃ other : Session B, other.rows i = rows ++ [⟨reward, false, false, none⟩] := by
  obtain ⟨rest, split⟩ := first
  let answers := session.answers session.getMaxSteps.toNat session.setupRollout
  have rowsEq : session.rows i = answers.map fun output => output.row i := rfl
  have taken : rows = (answers.take rows.length).map fun output => output.row i := by
    rw [List.map_take, ← rowsEq, ← split, List.take_left]
  let script := (answers.take rows.length).map (fun output => output.alone i) ++ [pays reward]
  have running : ∀ output ∈ script, (processStepOutputs output).done j = false := by
    intro output member
    rcases List.mem_append.mp member with early | final
    · obtain ⟨original, _, rfl⟩ := List.mem_map.mp early
      exact original.alone_running apart
    · cases List.mem_singleton.mp final
      rfl
  refine ⟨scripted script, ?_⟩
  have answered := scripted_answers running (scripted script).setupRollout rfl rfl
  have steps : (scripted script).getMaxSteps.toNat = script.length := by simp [Session.getMaxSteps, scripted]
  rw [Session.rows, steps, answered, List.map_append, List.map_map]
  conv_rhs => rw [taken]
  congr 1
  apply List.map_congr_left
  intro output _
  exact output.alone_row i

/-- What a rollout reports for a sub-environment is determined by its steps up to the first done exactly when the
sub-environment is alone or is never done in the rollout. -/
theorem report_determined_iff (session : Session B) (i : Fin B) :
    (∀ other : Session B, untilDone (other.rows i) = untilDone (session.rows i) → other.report i = session.report i) ↔
      B = 1 ∨ ∀ row ∈ session.rows i, row.done = false := by
  constructor
  · intro determined
    by_contra neither
    obtain ⟨several, finishes⟩ := not_or.mp neither
    simp only [not_forall, Bool.not_eq_false] at finishes
    obtain ⟨row, member, done⟩ := finishes
    have another : ∃ j : Fin B, j ≠ i := by
      have positive := i.isLt
      by_cases zero : i.val = 0
      · exact ⟨⟨1, by omega⟩, fun same => by simp [Fin.ext_iff, zero] at same⟩
      · exact ⟨⟨0, by omega⟩, fun same => zero (by simp [← same])⟩
    obtain ⟨j, apart⟩ := another
    have reported := session.report_eq i
    cases taken : session.rows i with
    | nil =>
      rw [taken] at member
      cases member
    | cons first rest =>
      rw [taken, reportOf] at reported
      -- One more step, whose reward makes up for all others and one more.
      obtain ⟨reward, makesUp⟩ : ∃ reward : ℚ, reward =
          ((first :: rest).map Row.reward).sum - ((untilDone (first :: rest)).map Row.reward).sum + 1 := ⟨_, rfl⟩
      have begun : untilDone (session.rows i) <+: session.rows i := untilDone_prefix _
      obtain ⟨other, rows⟩ := prolonged session apart begun reward
      have agrees : untilDone (other.rows i) = untilDone (session.rows i) := by
        rw [rows]
        exact untilDone_append member done _
      have same := determined other agrees
      rw [reported, other.report_eq, rows, taken] at same
      have sums : ((untilDone (first :: rest) ++ [(⟨reward, false, false, none⟩ : Row)]).map Row.reward).sum =
          ((first :: rest).map Row.reward).sum := by
        cases head : untilDone (first :: rest) ++ [(⟨reward, false, false, none⟩ : Row)] with
        | nil => simp at head
        | cons a l =>
          rw [head, reportOf] at same
          exact congrArg Report.sumReward (Option.some.inj same)
      rw [List.map_append, List.sum_append] at sums
      rw [List.map_singleton, List.sum_singleton] at sums
      linarith
  · intro condition other agrees
    have whole : untilDone (session.rows i) = session.rows i ∧ untilDone (other.rows i) = other.rows i := by
      rcases condition with alone | undone
      · have only : ∀ j : Fin B, j = i := by
          intro j
          apply Fin.ext
          omega
        exact ⟨session.answers_single i only _ _, other.answers_single i only _ _⟩
      · have kept := untilDone_of_undone undone
        have undoneOther : ∀ row ∈ other.rows i, row.done = false := by
          apply untilDone_done
          rw [agrees, kept]
          exact undone
        exact ⟨kept, untilDone_of_undone undoneOther⟩
    rw [whole.1, whole.2] at agrees
    rw [other.report_eq, session.report_eq, agrees]

/-- One step in which the first of two sub-environments is done, and the second is where `second` says so. -/
def firstDone (reward : ℚ) (second : Bool) : StepOutput 2 where
  reward _ := reward
  terminated := ![true, second]
  truncated _ := false
  info := .single fun _ => none

/-- The second of two sub-environments runs on, and the reward of the first after its done is counted. -/
theorem reward_after_done_counted :
    untilDone ((scripted [firstDone 1 true]).rows 0) = untilDone ((scripted [firstDone 1 false, firstDone 5 true]).rows 0) ∧
      (scripted [firstDone 1 true]).report 0 = some ⟨1, 1, some false⟩ ∧
      (scripted [firstDone 1 false, firstDone 5 true]).report 0 = some ⟨6, 5, some false⟩ := by
  refine ⟨rfl, by decide +kernel, by decide +kernel⟩

end PhysicalAiStudio.Evaluation
