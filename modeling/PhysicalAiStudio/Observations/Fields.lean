import PhysicalAiStudio.Strings.Text

/-! The fields of an observation: `Observation` of `data/observation.py`. -/

set_option autoImplicit false

namespace PhysicalAiStudio.Observations
open Strings

inductive FieldName where
  | action | task | state | images
  | prevChunkLeftOver | inferenceDelay | maxGuidanceWeight | executionHorizon
  | nextReward | nextSuccess | episodeIndex | frameIndex | index | taskIndex | timestamp
  | info | extra
  deriving DecidableEq, Repr

namespace FieldName

def all : List FieldName :=
  [.action, .task, .state, .images, .prevChunkLeftOver, .inferenceDelay, .maxGuidanceWeight, .executionHorizon,
    .nextReward, .nextSuccess, .episodeIndex, .frameIndex, .index, .taskIndex, .timestamp, .info, .extra]

def name : FieldName → Text
  | .action => "action".toList
  | .task => "task".toList
  | .state => "state".toList
  | .images => "images".toList
  | .prevChunkLeftOver => "prev_chunk_left_over".toList
  | .inferenceDelay => "inference_delay".toList
  | .maxGuidanceWeight => "max_guidance_weight".toList
  | .executionHorizon => "execution_horizon".toList
  | .nextReward => "next_reward".toList
  | .nextSuccess => "next_success".toList
  | .episodeIndex => "episode_index".toList
  | .frameIndex => "frame_index".toList
  | .index => "index".toList
  | .taskIndex => "task_index".toList
  | .timestamp => "timestamp".toList
  | .info => "info".toList
  | .extra => "extra".toList

def ofName (key : Text) : Option FieldName := all.find? fun field => field.name = key

theorem mem_all (field : FieldName) : field ∈ all := by
  cases field <;> decide

theorem all_nodup : all.Nodup := by decide

theorem name_injective : Function.Injective name := by
  intro first second same
  have listed : ∀ one ∈ all, ∀ other ∈ all, one.name = other.name → one = other := by decide
  exact listed first (mem_all first) second (mem_all second) same

/-- No name has a dot, and none starts with an underscore. -/
theorem name_plain (field : FieldName) : '.' ∉ field.name ∧ field.name.head? ≠ some '_' := by
  cases field <;> decide

theorem ofName_name (field : FieldName) : ofName field.name = some field := by
  cases field <;> decide

theorem ofName_eq_some {key : Text} {field : FieldName} : ofName key = some field ↔ key = field.name := by
  constructor
  · intro found
    have passed := List.find?_some found
    exact (of_decide_eq_true passed).symm
  · intro same
    rw [same, ofName_name]

end FieldName

end PhysicalAiStudio.Observations
