import PhysicalAiStudio.Strings.Text
import Mathlib.Algebra.Order.Ring.Rat
import Mathlib.Data.Fintype.Basic

/-! Rollouts of a policy in a vectorized environment: `eval/rollout/functional.py` and `metric.py`.

The environment and the policy are machines of their own. Rewards are exact numbers. Observations,
frames and actions are passed on and not looked into.
-/

set_option autoImplicit false

namespace PhysicalAiStudio.Evaluation
open Strings

/-! ### One step of the environment -/

inductive InfoValue (B : Nat) where
  | flag (value : Bool)
  | flags (values : Fin B → Bool)

/-- The info of a step: one dictionary for the batch, or one for each sub-environment. -/
inductive Info (B : Nat) where
  | single (info : Text → Option (InfoValue B))
  | perEnv (infos : Fin B → Text → Option Bool)

structure StepOutput (B : Nat) where
  reward : Fin B → ℚ
  terminated : Fin B → Bool
  truncated : Fin B → Bool
  info : Info B

structure StepResult (B : Nat) where
  reward : Fin B → ℚ
  done : Fin B → Bool
  success : Option (Fin B → Bool)

variable {B : Nat}

def successKeys : List Text := ["is_success".toList, "success".toList, "task_success".toList]

def extractSuccess : Info B → Option (Fin B → Bool)
  | .perEnv infos =>
    -- One sub-environment without a flag leaves the batch without flags.
    if ∀ i, (successKeys.findSome? (infos i)).isSome then some fun i => (successKeys.findSome? (infos i)).getD false
    else none
  | .single info =>
    match successKeys.findSome? info with
    | none => none
    | some (.flag value) => some fun _ => value
    | some (.flags values) => some values

def processStepOutputs (output : StepOutput B) : StepResult B where
  reward := output.reward
  done i := output.terminated i || output.truncated i
  success := extractSuccess output.info

/-! ### The loop -/

structure EpisodeData (A : Type) (B : Nat) where
  actions : List A := []
  rewards : List (Fin B → ℚ) := []
  successes : List (Fin B → Bool) := []
  dones : List (Fin B → Bool) := []

def EpisodeData.addStep {A : Type} (data : EpisodeData A B) (action : A) (result : StepResult B) : EpisodeData A B where
  actions := data.actions ++ [action]
  rewards := data.rewards ++ [result.reward]
  dones := data.dones ++ [result.done]
  successes := data.successes ++ result.success.toList

/-- An environment by the state it keeps; `step` takes the action as the loop hands it over. -/
structure Gym (S O A : Type) (B : Nat) where
  maxEpisodeSteps : S → Option Int
  reset : S → Option Int → Nat → S × O
  step : S → A → S × O × StepOutput B

structure Policy (P O A : Type) where
  reset : P → P
  selectAction : P → O → P × A

/-- Everything one call of `rollout` is given. -/
structure Session (B : Nat) where
  S : Type
  P : Type
  O : Type
  A : Type
  gym : Gym S O A B
  policy : Policy P O A
  env : S
  agent : P
  seed : Option Int
  maxSteps : Option Int
  rolloutIdx : Nat

structure LoopState (session : Session B) where
  env : session.S
  agent : session.P
  observation : session.O
  doneMask : Fin B → Bool := fun _ => false
  successMask : Fin B → Bool := fun _ => false
  data : EpisodeData session.A B := {}
  step : Nat := 0

namespace Session
variable (session : Session B)

def getMaxSteps : Int := session.maxSteps.getD ((session.gym.maxEpisodeSteps session.env).getD 1000)

def setupRollout : LoopState session :=
  let reset := session.gym.reset session.env session.seed session.rolloutIdx
  { env := reset.1, agent := session.policy.reset session.agent, observation := reset.2 }

def select (st : LoopState session) : session.P × session.A := session.policy.selectAction st.agent st.observation

def answer (st : LoopState session) : session.S × session.O × StepOutput B :=
  session.gym.step st.env (session.select st).2

def turn (st : LoopState session) : LoopState session :=
  let chosen := session.select st
  let answered := session.answer st
  let result := processStepOutputs answered.2.2
  { env := answered.1
    agent := chosen.1
    observation := answered.2.1
    successMask := fun i => st.successMask i || (result.success.elim false fun success => success i)
    doneMask := fun i => st.doneMask i || result.done i
    data := st.data.addStep chosen.2 result
    step := st.step + 1 }

def loop : Nat → LoopState session → LoopState session
  | 0, st => st
  | left + 1, st => if ∀ i, st.doneMask i = true then st else loop left (session.turn st)

def runRolloutLoop (maxSteps : Int) (st : LoopState session) : EpisodeData session.A B × Nat :=
  let final := session.loop maxSteps.toNat st
  ({ final.data with successes := final.data.successes ++ [final.successMask] }, final.step)

end Session

/-! ### The result -/

structure RolloutResult (B : Nat) where
  episodeLength : Nat
  sumReward : Fin B → ℚ
  maxReward : Fin B → ℚ
  success : Option (Fin B → Bool)

/-- `finalize_rollout`; nothing can be stacked where no step was taken. -/
def finalizeRollout {A : Type} (data : EpisodeData A B) (step : Nat) : Option (RolloutResult B) :=
  match data.rewards with
  | [] => none
  | first :: rest => some {
      episodeLength := step
      sumReward := fun i => ((first :: rest).map fun reward => reward i).sum
      maxReward := fun i => rest.foldl (fun most reward => max most (reward i)) (first i)
      success := data.successes.getLast? }

def Session.rollout (session : Session B) : Option (RolloutResult B) :=
  let ran := session.runRolloutLoop session.getMaxSteps session.setupRollout
  finalizeRollout ran.1 ran.2

/-! ### What a rollout reports for one sub-environment -/

structure Report where
  sumReward : ℚ
  maxReward : ℚ
  success : Option Bool
  deriving DecidableEq

def RolloutResult.report (result : RolloutResult B) (i : Fin B) : Report where
  sumReward := result.sumReward i
  maxReward := result.maxReward i
  success := result.success.map fun success => success i

def Session.report (session : Session B) (i : Fin B) : Option Report := session.rollout.map fun result => result.report i

/-- A step as one sub-environment sees it. -/
structure Row where
  reward : ℚ
  terminated : Bool
  truncated : Bool
  success : Option Bool

def Row.done (row : Row) : Bool := row.terminated || row.truncated

def StepOutput.row (output : StepOutput B) (i : Fin B) : Row where
  reward := output.reward i
  terminated := output.terminated i
  truncated := output.truncated i
  success := (extractSuccess output.info).map fun success => success i

/-- The steps up to and including the first done. -/
def untilDone : List Row → List Row
  | [] => []
  | row :: rest => if row.done then [row] else row :: untilDone rest

namespace Session
variable (session : Session B)

def answers : Nat → LoopState session → List (StepOutput B)
  | 0, _ => []
  | left + 1, st =>
    if ∀ i, st.doneMask i = true then [] else (session.answer st).2.2 :: answers left (session.turn st)

/-- All steps that a rollout takes in one sub-environment. -/
def rows (i : Fin B) : List Row :=
  (session.answers session.getMaxSteps.toNat session.setupRollout).map fun output => output.row i

end Session

/-! ### The metric -/

structure RolloutMetric where
  sumRewards : ℚ := 0
  maxRewards : ℚ := 0
  episodeLengths : Nat := 0
  numEpisodes : Nat := 0
  numSuccesses : Nat := 0
  allSumRewards : List ℚ := []
  allMaxRewards : List ℚ := []
  allEpisodeLengths : List Nat := []
  allSuccesses : List Bool := []

def RolloutMetric.update (metric : RolloutMetric) (result : RolloutResult B) : RolloutMetric where
  sumRewards := metric.sumRewards + (List.ofFn result.sumReward).sum
  maxRewards := metric.maxRewards + (List.ofFn result.maxReward).sum
  episodeLengths := metric.episodeLengths + result.episodeLength * B
  numEpisodes := metric.numEpisodes + B
  numSuccesses := metric.numSuccesses + result.success.elim 0 fun success => (List.ofFn success).count true
  allSumRewards := metric.allSumRewards ++ List.ofFn result.sumReward
  allMaxRewards := metric.allMaxRewards ++ List.ofFn result.maxReward
  allEpisodeLengths := metric.allEpisodeLengths ++ List.replicate B result.episodeLength
  allSuccesses := metric.allSuccesses ++ result.success.elim [] List.ofFn

theorem RolloutMetric.update_entries (metric : RolloutMetric) (result : RolloutResult B) (i : Fin B) :
    (metric.update result).allSumRewards[metric.allSumRewards.length + i]? = some (result.report i).sumReward ∧
      (metric.update result).allMaxRewards[metric.allMaxRewards.length + i]? = some (result.report i).maxReward ∧
      (result.success.isSome →
        (metric.update result).allSuccesses[metric.allSuccesses.length + i]? = (result.report i).success) := by
  refine ⟨?_, ?_, ?_⟩
  · simp [update, RolloutResult.report]
  · simp [update, RolloutResult.report]
  · intro flagged
    obtain ⟨success, flagged⟩ := Option.isSome_iff_exists.mp flagged
    simp [update, RolloutResult.report, flagged]

end PhysicalAiStudio.Evaluation
