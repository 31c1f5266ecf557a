import PhysicalAiStudio.Collections.WriteLog
import PhysicalAiStudio.Observations.FlatDict

/-! Observations and dictionaries in LeRobot's naming: `data/lerobot/converters.py`. -/

set_option autoImplicit false

namespace PhysicalAiStudio.Observations.LeRobot
open Collections Strings

variable {α : Type}

abbrev Item (α : Type) := Dict Text (Value α)

/-- The parts of an observation that are collected from several keys. -/
inductive Part where
  | images | state | action | task
  deriving DecidableEq

namespace Part

def baseKey : Part → Text
  | .images => "observation.image".toList
  | .state => "observation.state".toList
  | .action => "action".toList
  | .task => "task".toList

def prefixes : Part → List Text
  | .images => ["observation.images.".toList, "observation.image.".toList]
  | .state => ["observation.state.".toList]
  | .action => ["action.".toList]
  | .task => ["task.".toList]

def field : Part → FieldName
  | .images => .images
  | .state => .state
  | .action => .action
  | .task => .task

/-- The prefix under which the entries of a dictionary are stored; a state is stored as one value. -/
def subPrefix : Part → Option Text
  | .images => some "observation.images.".toList
  | .state => none
  | .action => some "action.".toList
  | .task => some "task.".toList

end Part

def metadata : List FieldName := [.episodeIndex, .frameIndex, .index, .taskIndex, .timestamp]

/-! ### From LeRobot's naming -/

def collectBase (item : Item α) (part : Part) : Item α :=
  match item.get? part.baseKey with
  | some value => (∅ : Item α).set part.baseKey value
  | none => ∅

def collectEntry (part : Part) (found : Item α) (entry : Text × Value α) : Item α :=
  match part.prefixes.find? fun pfx => decide (pfx <+: entry.1) with
  | some pfx => found.set (entry.1.drop pfx.length) entry.2
  | none => found

def collected (item : Item α) (part : Part) : Item α :=
  item.items.foldl (collectEntry part) (collectBase item part)

/-- A key that `_collect_field` uses for a part. -/
def Part.owns (part : Part) (key : Text) : Bool :=
  decide (key = part.baseKey) || part.prefixes.any fun pfx => decide (pfx <+: key)

/-- `_collect_field`: nothing, a single value, or a dictionary. -/
def collectField (item : Item α) (part : Part) : Value α :=
  match (collected item part).items with
  | [] => .none
  | [(key, value)] => if key = part.baseKey then value else .dict [(key, value)]
  | entries => .dict entries

inductive ConversionError where
  | missingRequiredKey (key : Text)
  | noObservation
  | noAction

def reserved (key : Text) : Bool :=
  decide (key ∈ metadata.map FieldName.name) || [Part.images, .state, .action, .task].any fun part => part.owns key

def observationOf (item : Item α) : FieldName → Value α
  | .images =>
      match collectField item .images with
      | .none => .dict []
      | images => images
  | .state => collectField item .state
  | .action => collectField item .action
  | .task => collectField item .task
  | .extra => .dict (item.items.filter fun entry => !reserved entry.1)
  -- No stored key belongs to these.
  | .prevChunkLeftOver | .inferenceDelay | .maxGuidanceWeight | .executionHorizon | .nextReward | .nextSuccess
  | .info => .none
  | field => (item.get? field.name).getD .none

def convertLerobotDictToObservation (item : Item α) : Except ConversionError (FieldName → Value α) :=
  match metadata.find? fun field => decide (field.name ∉ item) with
  | some field => .error (.missingRequiredKey field.name)
  | none =>
      if !(item.keys.any fun key => decide ("observation".toList <+: key)) then .error .noObservation
      else if !(item.keys.any fun key => decide ("action".toList <+: key)) then .error .noAction
      else .ok (observationOf item)

/-! ### To LeRobot's naming -/

def partEntries (part : Part) (value : Value α) : List (Text × Value α) :=
  match value, part.subPrefix with
  | .none, _ => []
  | .dict entries, some pfx => entries.map fun entry => (pfx ++ entry.1, entry.2)
  | value, _ => [(part.baseKey, value)]

def metadataEntries (value : FieldName → Value α) : List (Text × Value α) :=
  metadata.map fun field => (field.name, value field)

def storedEntries (value : FieldName → Value α) : List (Text × Value α) :=
  partEntries .images (value .images) ++ partEntries .state (value .state) ++ partEntries .action (value .action) ++
    partEntries .task (value .task) ++ metadataEntries value

/-- What `update` takes over of the extra fields; it raises where they are no dictionary. -/
def extraEntries : Value α → Option (List (Text × Value α))
  | .none => some []
  | .dict entries => some entries
  | _ => none

def convertObservationToLerobotDict (value : FieldName → Value α) : Option (Item α) :=
  (extraEntries (value .extra)).map fun extra => ((∅ : Item α).setAll (storedEntries value)).setAll extra

def isList (listed : α → Bool) : Value α → Bool
  | .plain x => listed x
  | .keys _ => true
  | _ => false

def flattenCollatedField (listed : α → Bool) (key : Text) (value : Value α) : List (Text × Value α) :=
  match FieldName.ofName key with
  | some .images => partEntries .images value
  | some .state => partEntries .state value
  | some .action => partEntries .action value
  -- A batch has a list of tasks, which is not a tensor and is left out.
  | some .task => if isList listed value then [] else partEntries .task value
  | some .extra =>
      match value with
      | .dict entries => entries
      | _ => []
  | some .episodeIndex | some .frameIndex | some .index | some .taskIndex | some .timestamp => [(key, value)]
  | _ => []

def flattenCollatedDictToLerobot (listed : α → Bool) (collatedDict : Item α) : Item α :=
  (∅ : Item α).setAll (collatedDict.items.flatMap fun entry => flattenCollatedField listed entry.1 entry.2)

/-! ### Either -/

inductive Batch (α : Type) where
  | observation (value : FieldName → Value α)
  | dict (item : Item α)

def toLerobotDict (listed : α → Bool) : Batch α → Option (Item α)
  | .observation value => convertObservationToLerobotDict value
  | .dict item =>
      if item.keys.any fun key => decide ("observation.".toList <+: key) then some item
      else if "images".toList ∈ item ∨ "state".toList ∈ item then some (flattenCollatedDictToLerobot listed item)
      else some item

def toObservation : Batch α → Except ConversionError (FieldName → Value α)
  | .observation value => .ok value
  | .dict item => convertLerobotDictToObservation item

def nestedDict (value : FieldName → Value α) : Item α :=
  (∅ : Item α).setAll (FieldName.all.map fun field => (field.name, value field))

end PhysicalAiStudio.Observations.LeRobot
