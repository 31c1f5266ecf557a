import Mathlib.Algebra.Ring.Nat
import Mathlib.Data.List.Induction
import Mathlib.Data.List.Nodup
import PhysicalAiStudio.Policies.VtcBuffer

/-! Which action a video policy takes at a step of an episode.

The deques refine the history of the episode: a window shows the frames that many steps back,
and the first frame before the beginning. The queue refines the rule that a chunk is followed
for as many steps as it has.
-/

set_option autoImplicit false

namespace PhysicalAiStudio.Policies.Vtc

open Collections

variable {Key Frame Other Action : Type}

/-- An episode: its frames at every step, one for each view, of the same views throughout.

Where windows are made, the frames have tensors, and these can be stacked. -/
structure Episode (policy : Rldx1 Key Frame Other Action) where
  keys : List Key
  frame : Nat → Key → Frame
  other : Nat → Other
  tensor : Nat → Key → Frame
  stacked : Nat → Key → Frame
  some_key : keys ≠ []
  nodup : keys.Nodup
  single : ∀ step, ∀ key ∈ keys, policy.isMultiframe (frame step key) = false
  converts : 1 < policy.videoLength → ∀ step, ∀ key ∈ keys,
    policy.asFrameTensor (frame step key) = some (tensor step key)
  stackable : 1 < policy.videoLength → ∀ step, ∀ key ∈ keys,
    policy.stack (policy.offsets.map fun back => tensor (step - back) key) = some (stacked step key)

variable {policy : Rldx1 Key Frame Other Action} (episode : Episode policy)

namespace Episode

def batch (step : Nat) : Batch Key Frame Other := ⟨episode.keys.map fun key => (key, episode.frame step key), episode.other step⟩

/-- What the model is to see at a step: each view shows the frames that many steps back, and the first one before. -/
def windowed (step : Nat) : Batch Key Frame Other :=
  if policy.videoLength ≤ 1 then episode.batch step
  else
    { views := episode.keys.map fun key => (key, episode.stacked step key)
      other := episode.other step }

def chunk (step : Nat) : List Action := policy.getAction (episode.windowed step)

theorem passes_batch (step : Nat) : policy.passes (episode.batch step) = false := by
  unfold Rldx1.passes batch
  cases keys : episode.keys with
  | nil => exact absurd keys episode.some_key
  | cons key rest => exact episode.single step key (by rw [keys]; exact List.mem_cons_self)

theorem keys_batch (step : Nat) : (episode.batch step).views.map Prod.fst = episode.keys := by
  rw [Episode.batch, List.map_map]
  exact List.map_id _

structure Shows (step : Nat) (key : Key) (ring : Deque Frame) : Prop where
  maxlen : ring.maxlen = policy.windowSize
  items : ring.items = keepLast policy.windowSize
    (List.replicate policy.windowSize (episode.tensor 0 key) ++
      (List.range step).map fun index => episode.tensor (index + 1) key)

variable {episode} {step : Nat} {key : Key} {ring : Deque Frame}

theorem Shows.length (shows : episode.Shows step key ring) : ring.items.length = policy.windowSize := by
  rw [shows.items, length_keepLast, List.length_append, List.length_replicate]
  omega

theorem Shows.getElem? (shows : episode.Shows step key ring) {back : Nat} (near : back < policy.windowSize) :
    ring.items[ring.items.length - 1 - back]? = some (episode.tensor (step - back) key) := by
  rw [shows.length, shows.items, keepLast, List.length_append, List.length_replicate, List.length_map, List.length_range,
    List.getElem?_drop]
  by_cases first : step ≤ back
  · rw [List.getElem?_append_left (by rw [List.length_replicate]; omega), List.getElem?_replicate_of_lt (by omega),
      Nat.sub_eq_zero_of_le first]
  · have index : policy.windowSize + step - policy.windowSize + (policy.windowSize - 1 - back) - policy.windowSize =
        step - back - 1 := by omega
    rw [List.getElem?_append_right (by rw [List.length_replicate]; omega), List.length_replicate, index, List.getElem?_map,
      List.getElem?_range (by omega), Option.map_some]
    congr 2
    omega

theorem offsets_lt {back : Nat} (known : back ∈ policy.offsets) : back < policy.windowSize := by
  obtain ⟨index, _, rfl⟩ := List.mem_map.mp known
  have bound : (policy.videoLength - 1 - index) * policy.videoStride ≤ (policy.videoLength - 1) * policy.videoStride :=
    Nat.mul_le_mul_right _ (Nat.sub_le _ _)
  unfold Rldx1.windowSize
  omega

theorem mapM_eq_some {Element Value : Type} {elements : List Element} {read : Element → Option Value} {value : Element → Value}
    (every : ∀ element ∈ elements, read element = some (value element)) : elements.mapM read = some (elements.map value) := by
  induction elements with
  | nil => rfl
  | cons element elements ih =>
    rw [List.mapM_cons, every element List.mem_cons_self, ih fun other known => every other (List.mem_cons_of_mem _ known)]
    rfl

theorem Shows.window (shows : episode.Shows step key ring) (windows : 1 < policy.videoLength) (known : key ∈ episode.keys) :
    policy.window ring = some (episode.stacked step key) := by
  rw [Rldx1.window, mapM_eq_some fun back known => shows.getElem? (offsets_lt known), Option.bind_some,
    episode.stackable windows step key known]

theorem shows_first (key : Key) :
    episode.Shows 0 key (policy.push (Deque.empty policy.windowSize) (episode.tensor 0 key)) := by
  rw [Rldx1.push, if_pos (Deque.items_empty _)]
  exact ⟨Deque.maxlen_extend _ _, by rw [Deque.items_extend, List.range_zero, List.map_nil, List.append_nil]; rfl⟩

/-- A later frame pushes the oldest one out. -/
theorem Shows.next (shows : episode.Shows step key ring) :
    episode.Shows (step + 1) key (policy.push ring (episode.tensor (step + 1) key)) := by
  have filled : ring.items ≠ [] := by
    intro empty
    have length := shows.length
    rw [empty] at length
    unfold Rldx1.windowSize at length
    cases length
  rw [Rldx1.push, if_neg filled]
  refine ⟨shows.maxlen, ?_⟩
  rw [Deque.items_append, shows.maxlen, shows.items, keepLast_append, List.append_assoc, List.range_succ, List.map_append]
  rfl

end Episode

/-! ### Before a step -/

section Steps

variable {policy : Rldx1 Key Frame Other Action} {episode : Episode policy} {step : Nat}

def Recorded (episode : Episode policy) (history : Option (History Key Frame)) : Nat → Prop
  | 0 => history = none
  | step + 1 =>
    if policy.videoLength ≤ 1 then history = none
    else ∃ ring, history = some ⟨episode.keys, ring⟩ ∧ ∀ key ∈ episode.keys, episode.Shows step key (ring key)

theorem recorded_plain (plain : policy.videoLength ≤ 1) (history : Option (History Key Frame)) :
    Recorded episode history step ↔ history = none := by
  cases step with
  | zero => exact Iff.rfl
  | succ step => rw [Recorded, if_pos plain]

theorem recorded_succ (windows : ¬policy.videoLength ≤ 1) (history : Option (History Key Frame)) :
    Recorded episode history (step + 1) ↔
      ∃ ring, history = some ⟨episode.keys, ring⟩ ∧ ∀ key ∈ episode.keys, episode.Shows step key (ring key) := by
  rw [Recorded, if_neg windows]

def steps (policy : Rldx1 Key Frame Other Action) (length : Nat) : Nat := min policy.nActionSteps length

structure Before (episode : Episode policy) (length step : Nat) (rollout : Rollout Key Frame Action) : Prop where
  recorded : Recorded episode rollout.history step
  maxlen : rollout.queue.maxlen = policy.nActionSteps
  items : rollout.queue.items =
    if step % steps policy length = 0 then []
    else ((episode.chunk (step - step % steps policy length)).take policy.nActionSteps).drop (step % steps policy length)

theorem before_reset (episode : Episode policy) (length : Nat) {rollout : Rollout Key Frame Action}
    (maxlen : rollout.queue.maxlen = policy.nActionSteps) : Before episode length 0 rollout.reset where
  recorded := rfl
  maxlen := maxlen
  items := by rw [Nat.zero_mod, if_pos rfl]; rfl

theorem before_next {length : Nat} {next : Rollout Key Frame Action} (recorded : Recorded episode next.history (step + 1))
    (maxlen : next.queue.maxlen = policy.nActionSteps) (chunks : ∀ batch, (policy.getAction batch).length = length)
    (some_step : 0 < steps policy length)
    (left : next.queue.items =
      ((episode.chunk (step - step % steps policy length)).take policy.nActionSteps).drop (step % steps policy length + 1)) :
    Before episode length (step + 1) next := by
  refine ⟨recorded, maxlen, ?_⟩
  have bound := Nat.mod_lt step some_step
  have split := Nat.add_mod step 1 (steps policy length)
  by_cases last : step % steps policy length + 1 = steps policy length
  · have zero : (step + 1) % steps policy length = 0 := by
      rw [← Nat.mod_add_mod, last, Nat.mod_self]
    rw [if_pos zero, left, List.drop_eq_nil_of_le]
    rw [List.length_take, Episode.chunk, chunks, last]
    exact Nat.le_refl _
  · have more : (step + 1) % steps policy length = step % steps policy length + 1 := by
      rw [← Nat.mod_add_mod, Nat.mod_eq_of_lt (by omega)]
    rw [more, if_neg (by omega), left]
    congr 3
    omega

end Steps

/-! ### Recording -/

variable [DecidableEq Key]

theorem recordViews_keys (policy : Rldx1 Key Frame Other Action) (views : List (Key × Frame)) (history : History Key Frame) :
    (policy.recordViews views history).1.keys = history.keys := by
  induction views generalizing history with
  | nil => rfl
  | cons view views ih =>
    obtain ⟨key, frame⟩ := view
    rw [Rldx1.recordViews]
    split
    · split
      · rfl
      · exact ih _
    · rfl

theorem recordViews_eq (policy : Rldx1 Key Frame Other Action) {keys : List Key} (nodup : keys.Nodup)
    {frame tensor : Key → Frame} (converts : ∀ key ∈ keys, policy.asFrameTensor (frame key) = some (tensor key))
    (history : History Key Frame) (known : ∀ key ∈ keys, key ∈ history.keys) :
    policy.recordViews (keys.map fun key => (key, frame key)) history =
      (⟨history.keys, fun key => if key ∈ keys then policy.push (history.ring key) (tensor key) else history.ring key⟩,
        true) := by
  induction keys generalizing history with
  | nil => simp [Rldx1.recordViews]
  | cons key keys ih =>
    obtain ⟨fresh, nodup⟩ := List.nodup_cons.mp nodup
    rw [List.map_cons, Rldx1.recordViews, if_pos (known key List.mem_cons_self), converts key List.mem_cons_self]
    dsimp only
    rw [ih nodup (fun other member => converts other (List.mem_cons_of_mem _ member))
        { history with ring := Function.update history.ring key (policy.push (history.ring key) (tensor key)) }
        fun other member => known other (List.mem_cons_of_mem _ member)]
    congr 2
    funext other
    dsimp only
    by_cases same : other = key
    · subst same
      rw [if_neg fresh, if_pos List.mem_cons_self, Function.update_self]
    · rw [Function.update_of_ne same]
      by_cases member : other ∈ keys
      · rw [if_pos member, if_pos (List.mem_cons_of_mem _ member)]
      · rw [if_neg member, if_neg (by rw [List.mem_cons, not_or]; exact ⟨same, member⟩)]

section Steps

variable {policy : Rldx1 Key Frame Other Action} {episode : Episode policy} {step : Nat}

theorem Recorded.record {history : Option (History Key Frame)} (recorded : Recorded episode history step) :
    ∃ next, policy.record history (episode.batch step) = (next, true) ∧ Recorded episode next (step + 1) := by
  rw [Rldx1.record, episode.passes_batch]
  by_cases plain : policy.videoLength ≤ 1
  · rw [if_pos plain]
    rw [recorded_plain plain] at recorded
    exact ⟨history, rfl, (recorded_plain plain _).mpr recorded⟩
  · rw [if_neg plain, if_neg Bool.false_ne_true, episode.keys_batch]
    have converts := episode.converts (Nat.lt_of_not_le plain)
    cases step with
    | zero =>
      rw [Recorded] at recorded
      subst recorded
      rw [Rldx1.ensureHistory, Option.getD_none, Episode.batch,
        recordViews_eq policy episode.nodup (converts 0) _ fun key known => known]
      refine ⟨_, rfl, (recorded_succ plain _).mpr ⟨_, rfl, fun key known => ?_⟩⟩
      rw [if_pos known]
      exact Episode.shows_first key
    | succ step =>
      obtain ⟨ring, rfl, shows⟩ := (recorded_succ plain _).mp recorded
      rw [Rldx1.ensureHistory, Option.getD_some, Episode.batch,
        recordViews_eq policy episode.nodup (converts (step + 1)) _ fun key known => known]
      refine ⟨_, rfl, (recorded_succ plain _).mpr ⟨_, rfl, fun key known => ?_⟩⟩
      rw [if_pos known]
      exact (shows key known).next

theorem Recorded.prepare {history : Option (History Key Frame)} (recorded : Recorded episode history (step + 1)) :
    policy.isWarmingUp history = false ∧ policy.prepare history (episode.batch step) = (history, some (episode.windowed step)) := by
  unfold Rldx1.prepare Episode.windowed
  rw [episode.passes_batch]
  by_cases plain : policy.videoLength ≤ 1
  · rw [recorded_plain plain] at recorded
    subst recorded
    rw [if_pos plain, if_pos plain]
    exact ⟨rfl, rfl⟩
  · obtain ⟨ring, rfl, shows⟩ := (recorded_succ plain _).mp recorded
    rw [if_neg plain, if_neg plain, if_neg Bool.false_ne_true]
    constructor
    · rw [Rldx1.isWarmingUp, List.any_eq_false]
      intro key known
      rw [(shows key known).length, decide_eq_true_eq]
      exact Nat.lt_irrefl _
    · have known : ((episode.batch step).views.all fun view => decide (view.1 ∈ episode.keys)) = true := by
        rw [List.all_eq_true]
        intro view member
        obtain ⟨key, inside, rfl⟩ := List.mem_map.mp member
        exact decide_eq_true inside
      simp only [known, if_true, Option.bind_some, Prod.mk.injEq, true_and]
      rw [Rldx1.applyWindow, Episode.batch, List.mapM_map, Episode.mapM_eq_some fun key inside => ?_, Option.map_some]
      dsimp only [Function.comp_def]
      rw [if_pos inside, (shows key inside).window (Nat.lt_of_not_le plain) inside, Option.map_some]

/-! ### A step -/

variable {length : Nat} {rollout : Rollout Key Frame Action}

theorem selectAction_eq {batch : Batch Key Frame Other} {history : Option (History Key Frame)}
    (recorded : policy.record rollout.history batch = (history, true)) (warm : policy.isWarmingUp history = false) :
    policy.selectAction rollout batch = policy.selectQueued { rollout with history } batch := by
  unfold Rldx1.selectAction
  rw [recorded]
  dsimp only
  rw [warm, if_neg Bool.false_ne_true]

theorem selectQueued_queued {batch : Batch Key Frame Other} {history : Option (History Key Frame)} {queue left : Deque Action}
    {action : Action} (popped : queue.popleft = some (action, left)) :
    policy.selectQueued ⟨history, queue⟩ batch = (⟨history, left⟩, .action action) := by
  unfold Rldx1.selectQueued
  rw [popped]

theorem selectQueued_predicted {batch input : Batch Key Frame Other} {history prepared : Option (History Key Frame)}
    {queue left : Deque Action} {action : Action} (empty : queue.popleft = none)
    (windows : policy.prepare history batch = (prepared, some input))
    (queued : policy.queueActions queue (policy.getAction input) = some (action, left)) :
    policy.selectQueued ⟨history, queue⟩ batch = (⟨prepared, left⟩, .action action) := by
  unfold Rldx1.selectQueued Rldx1.predictActionChunk
  dsimp only
  rw [empty, windows]
  dsimp only [Option.map_some]
  rw [queued]

theorem drop_take_eq_cons {Element : Type} {elements : List Element} {index count : Nat}
    (within : index < min count elements.length) :
    ∃ element, (elements.take count).drop index = element :: (elements.take count).drop (index + 1) ∧
      elements[index]? = some element := by
  have inside : index < (elements.take count).length := by rwa [List.length_take]
  refine ⟨(elements.take count)[index], List.drop_eq_getElem_cons inside, ?_⟩
  rw [← List.getElem?_eq_getElem inside, List.getElem?_take_of_lt (Nat.lt_of_lt_of_le within (Nat.min_le_left _ _))]

theorem Before.selectAction (before : Before episode length step rollout)
    (chunks : ∀ batch, (policy.getAction batch).length = length) (some_step : 0 < steps policy length) :
    ∃ action next, policy.selectAction rollout (episode.batch step) = (next, .action action) ∧
      (episode.chunk (step - step % steps policy length))[step % steps policy length]? = some action ∧
      Before episode length (step + 1) next := by
  obtain ⟨history, recorded, after⟩ := before.recorded.record
  obtain ⟨warm, prepared⟩ := after.prepare
  rw [selectAction_eq recorded warm]
  have bound := Nat.mod_lt step some_step
  have long : (episode.chunk (step - step % steps policy length)).length = length := chunks _
  obtain ⟨action, cons, chosen⟩ := drop_take_eq_cons
    (show step % steps policy length <
      min policy.nActionSteps (episode.chunk (step - step % steps policy length)).length by rwa [long])
  by_cases first : step % steps policy length = 0
  · -- a new chunk
    have empty : rollout.queue.items = [] := by rw [before.items, if_pos first]
    have items : (rollout.queue.extend ((episode.chunk (step - step % steps policy length)).take policy.nActionSteps)).items =
        ((episode.chunk (step - step % steps policy length)).take policy.nActionSteps).drop (step % steps policy length) := by
      rw [Deque.items_extend, empty, before.maxlen, List.nil_append, keepLast_of_le (List.length_take_le _ _), first,
        List.drop_zero]
    obtain ⟨queue, popped, rest, maxlen⟩ := Deque.popleft_cons (items.trans cons)
    have same : step - step % steps policy length = step := by omega
    have queued : policy.queueActions rollout.queue (episode.chunk step) = some (action, queue) := by
      rw [Rldx1.queueActions, ← popped, same]
    rw [selectQueued_predicted (Deque.popleft_nil empty) prepared queued]
    refine ⟨_, _, rfl, chosen, before_next after ?_ chunks some_step rest⟩
    rw [maxlen, Deque.maxlen_extend, before.maxlen]
  · -- the next action of the chunk
    have items := before.items
    rw [if_neg first] at items
    obtain ⟨queue, popped, rest, maxlen⟩ := Deque.popleft_cons (items.trans cons)
    rw [selectQueued_queued popped]
    exact ⟨_, _, rfl, chosen, before_next after (maxlen.trans before.maxlen) chunks some_step rest⟩

end Steps

/-! ### Whole runs -/

variable {policy : Rldx1 Key Frame Other Action}

theorem after_concat (policy : Rldx1 Key Frame Other Action) (calls : List (Call Key Frame Other)) (call : Call Key Frame Other) :
    policy.after (calls ++ [call]) = (policy.call (policy.after calls) call).1 := by
  rw [Rldx1.after, Rldx1.after, List.foldl_append]
  rfl

theorem maxlen_predictActionChunk (rollout : Rollout Key Frame Action) (batch : Batch Key Frame Other) :
    (policy.predictActionChunk rollout batch).1.queue = rollout.queue := rfl

theorem maxlen_popleft {queue left : Deque Action} {action : Action} (popped : queue.popleft = some (action, left)) :
    left.maxlen = queue.maxlen := by
  cases items : queue.items with
  | nil =>
    rw [Deque.popleft_nil items] at popped
    cases popped
  | cons first rest =>
    obtain ⟨other, same, _, maxlen⟩ := Deque.popleft_cons items
    rw [same] at popped
    cases popped
    exact maxlen

theorem maxlen_selectQueued (rollout : Rollout Key Frame Action) (batch : Batch Key Frame Other) :
    (policy.selectQueued rollout batch).1.queue.maxlen = rollout.queue.maxlen := by
  unfold Rldx1.selectQueued
  split
  · next popped => exact maxlen_popleft popped
  · split
    · next predicted => rw [← maxlen_predictActionChunk rollout batch, predicted]
    · next predicted _ same =>
      have queue : predicted.queue = rollout.queue := by
        rw [← maxlen_predictActionChunk rollout batch, same]
      split
      · next queued =>
        rw [← queue]
        exact (maxlen_popleft queued).trans (Deque.maxlen_extend _ _)
      · rw [← queue]
        exact Deque.maxlen_extend _ _

theorem maxlen_call (rollout : Rollout Key Frame Action) (call : Call Key Frame Other) :
    (policy.call rollout call).1.queue.maxlen = rollout.queue.maxlen := by
  cases call with
  | reset => rfl
  | predictActionChunk batch => rfl
  | selectAction batch =>
    rw [Rldx1.call, Rldx1.selectAction]
    split
    · rfl
    · split
      · rfl
      · exact maxlen_selectQueued _ _

theorem maxlen_after (policy : Rldx1 Key Frame Other Action) (calls : List (Call Key Frame Other)) :
    (policy.after calls).queue.maxlen = policy.nActionSteps := by
  induction calls using List.reverseRecOn with
  | nil => rfl
  | append_singleton calls call ih => rw [after_concat, maxlen_call, ih]

def Episode.calls (episode : Episode policy) (count : Nat) : List (Call Key Frame Other) :=
  .reset :: (List.range count).map fun step => .selectAction (episode.batch step)

theorem before_episode (episode : Episode policy) (prior : List (Call Key Frame Other)) {length : Nat}
    (chunks : ∀ batch, (policy.getAction batch).length = length) (some_step : 0 < steps policy length) (step : Nat) :
    Before episode length step (policy.after (prior ++ episode.calls step)) := by
  induction step with
  | zero =>
    have calls : episode.calls 0 = [.reset] := rfl
    rw [calls, after_concat]
    exact before_reset episode length (maxlen_after policy prior)
  | succ step ih =>
    have calls : prior ++ episode.calls (step + 1) = prior ++ episode.calls step ++ [.selectAction (episode.batch step)] := by
      rw [Episode.calls, Episode.calls, List.range_succ, List.map_append, List.append_assoc]
      rfl
    obtain ⟨action, next, selected, _, after⟩ := ih.selectAction chunks some_step
    rw [calls, after_concat, Rldx1.call, selected]
    exact after

/-- Whatever was called before the reset, the action at a step of the episode is the one that the chunk has for it which was
predicted when the queue ran out last, of the frames that lie the offsets back from there. -/
theorem selectAction_episode (policy : Rldx1 Key Frame Other Action) (episode : Episode policy)
    (prior : List (Call Key Frame Other)) (length : Nat) (chunks : ∀ batch, (policy.getAction batch).length = length)
    (some_action : 0 < length) (some_step : 0 < policy.nActionSteps) (step : Nat) :
    ∃ action, (policy.call (policy.after (prior ++ episode.calls step)) (.selectAction (episode.batch step))).2 = .action action ∧
      (policy.getAction (episode.windowed (step - step % min policy.nActionSteps length)))[
        step % min policy.nActionSteps length]? = some action := by
  have positive : 0 < steps policy length := Nat.lt_min.mpr ⟨some_step, some_action⟩
  obtain ⟨action, next, selected, chosen, _⟩ :=
    (before_episode episode prior chunks positive step).selectAction chunks positive
  refine ⟨action, ?_, chosen⟩
  rw [Rldx1.call, selected]

/-- A policy that looks one frame back and follows two of three actions. -/
def pairPolicy : Rldx1 Unit Nat Unit Nat where
  videoLength := 2
  videoStride := 1
  nActionSteps := 2
  asFrameTensor := some
  stack := fun frames => some frames.sum
  isMultiframe := fun _ => false
  getAction := fun batch => [(batch.views.map Prod.snd).sum, 100, 200]

def pairEpisode : Episode pairPolicy where
  keys := [()]
  frame := fun step _ => step
  other := fun _ => ()
  tensor := fun step _ => step
  stacked := fun step _ => (step - 1) + step
  some_key := by decide
  nodup := by decide
  single := fun _ _ _ => rfl
  converts := fun _ _ _ _ => rfl
  stackable := fun _ _ _ _ => rfl

theorem selectAction_episode_pair :
    ∃ action, (pairPolicy.call (pairPolicy.after ([.predictActionChunk (pairEpisode.batch 7)] ++ pairEpisode.calls 4))
        (.selectAction (pairEpisode.batch 4))).2 = .action action ∧
      (pairPolicy.getAction (pairEpisode.windowed (4 - 4 % min 2 3)))[4 % min 2 3]? = some action :=
  selectAction_episode pairPolicy pairEpisode [.predictActionChunk (pairEpisode.batch 7)] 3 (fun _ => rfl) (by decide) (by decide) 4

/-! ### No warm-up -/

/-- A deque that holds a whole window, if it holds anything. -/
structure Sound (policy : Rldx1 Key Frame Other Action) (ring : Deque Frame) : Prop where
  maxlen : ring.maxlen = policy.windowSize
  filled : ring.items ≠ [] → ring.items.length = policy.windowSize

omit [DecidableEq Key] in
theorem Sound.push {ring : Deque Frame} (sound : Sound policy ring) (frame : Frame) :
    Sound policy (policy.push ring frame) ∧ (policy.push ring frame).items ≠ [] := by
  have positive : 0 < policy.windowSize := Nat.succ_pos _
  have whole : (policy.push ring frame).maxlen = policy.windowSize ∧
      (policy.push ring frame).items.length = policy.windowSize := by
    unfold Rldx1.push
    split
    · next empty =>
      rw [Deque.maxlen_extend, Deque.items_extend, sound.maxlen, length_keepLast, empty, List.nil_append, List.length_replicate]
      exact ⟨rfl, Nat.min_self _⟩
    · next some_frame =>
      rw [Deque.maxlen_append, Deque.items_append, sound.maxlen, length_keepLast, List.length_append,
        sound.filled some_frame]
      exact ⟨rfl, Nat.min_eq_left (Nat.le_add_right _ _)⟩
  refine ⟨⟨whole.1, fun _ => whole.2⟩, fun empty => ?_⟩
  rw [empty] at whole
  exact absurd whole.2 (Nat.ne_of_lt positive)

structure Full (policy : Rldx1 Key Frame Other Action) (history : History Key Frame) : Prop where
  sound : ∀ key, Sound policy (history.ring key)
  filled : ∀ key ∈ history.keys, (history.ring key).items ≠ []

theorem recordViews_sound (views : List (Key × Frame)) {history : History Key Frame}
    (sound : ∀ key, Sound policy (history.ring key)) :
    (∀ key, Sound policy ((policy.recordViews views history).1.ring key)) ∧
      (∀ key, (history.ring key).items ≠ [] → ((policy.recordViews views history).1.ring key).items ≠ []) ∧
      ((∀ key ∈ views.map Prod.fst, key ∈ history.keys) → (∀ view ∈ views, policy.asFrameTensor view.2 ≠ none) →
        ∀ key ∈ views.map Prod.fst, ((policy.recordViews views history).1.ring key).items ≠ []) := by
  induction views generalizing history with
  | nil => exact ⟨sound, fun _ filled => filled, fun _ _ _ none => by cases none⟩
  | cons view views ih =>
    obtain ⟨key, frame⟩ := view
    rw [Rldx1.recordViews]
    split
    · next known =>
      cases converted : policy.asFrameTensor frame with
      | none =>
        refine ⟨sound, fun _ filled => filled, fun _ converts => ?_⟩
        exact absurd converted (converts (key, frame) List.mem_cons_self)
      | some tensor =>
        have pushed : ∀ other,
            Sound policy (Function.update history.ring key (policy.push (history.ring key) tensor) other) := by
          intro other
          by_cases same : other = key
          · rw [same, Function.update_self]
            exact ((sound key).push tensor).1
          · rw [Function.update_of_ne same]
            exact sound other
        -- A ring that holds a frame keeps holding one, and a push fills its own.
        have kept : ∀ other, (history.ring other).items ≠ [] ∨ other = key →
            (Function.update history.ring key (policy.push (history.ring key) tensor) other).items ≠ [] := by
          intro other filled
          by_cases same : other = key
          · rw [same, Function.update_self]
            exact ((sound key).push tensor).2
          · rw [Function.update_of_ne same]
            exact filled.resolve_right same
        have further := @ih
          { history with ring := Function.update history.ring key (policy.push (history.ring key) tensor) } pushed
        obtain ⟨later, lasting, views⟩ := further
        refine ⟨later, fun other filled => lasting other (kept other (.inl filled)), fun every converts other member => ?_⟩
        rw [List.map_cons, List.mem_cons] at member
        obtain same | member := member
        · exact lasting other (kept other (.inr same))
        · exact views (fun other inside => every other (List.mem_cons_of_mem _ inside))
            (fun view inside => converts view (List.mem_cons_of_mem _ inside)) other member
    · next unknown =>
      exact ⟨sound, fun _ filled => filled, fun every => absurd (every key List.mem_cons_self) unknown⟩

def Seeds (policy : Rldx1 Key Frame Other Action) (history : Option (History Key Frame)) (batch : Batch Key Frame Other) :
    Prop :=
  history = none → 1 < policy.videoLength → policy.passes batch = false →
    ∀ view ∈ batch.views, policy.asFrameTensor view.2 ≠ none

def Seeded (policy : Rldx1 Key Frame Other Action) (rollout : Rollout Key Frame Action) : Call Key Frame Other → Prop
  | .reset => True
  | .selectAction batch | .predictActionChunk batch => Seeds policy rollout.history batch

def Filled (policy : Rldx1 Key Frame Other Action) (history : Option (History Key Frame)) : Prop :=
  ∀ known, history = some known → Full policy known

omit [DecidableEq Key] in
theorem filled_none (policy : Rldx1 Key Frame Other Action) : Filled policy none := fun _ same => by cases same

theorem Filled.record {history : Option (History Key Frame)} {batch : Batch Key Frame Other}
    (filled : Filled policy history) (seeds : Seeds policy history batch) :
    Filled policy (policy.record history batch).1 := by
  unfold Rldx1.record
  split
  · exact filled
  · next windows =>
    split
    · exact filled
    · next single =>
      rintro known same
      cases same
      cases history with
      | some history =>
        have full := filled history rfl
        obtain ⟨sound, lasting, _⟩ := recordViews_sound batch.views full.sound
        refine ⟨sound, fun key member => lasting key (full.filled key ?_)⟩
        rwa [recordViews_keys] at member
      | none =>
        have empty : ∀ key : Key, Sound policy
            ((⟨batch.views.map Prod.fst, fun _ => Deque.empty policy.windowSize⟩ : History Key Frame).ring key) :=
          fun _ => ⟨rfl, fun filled => absurd rfl filled⟩
        have converts := seeds rfl (Nat.lt_of_not_le windows) (Bool.eq_false_iff.mpr single)
        obtain ⟨sound, _, views⟩ := recordViews_sound batch.views empty
        refine ⟨sound, fun key member => views (fun _ known => known) converts key ?_⟩
        rw [recordViews_keys] at member
        exact member

/-- A batch that leaves no history is one that makes none. -/
theorem seeds_record (policy : Rldx1 Key Frame Other Action) (history : Option (History Key Frame))
    (batch : Batch Key Frame Other) : Seeds policy (policy.record history batch).1 batch := by
  intro missing windows single
  rw [Rldx1.record, if_neg (Nat.not_le_of_lt windows), single, if_neg Bool.false_ne_true] at missing
  cases missing

omit [DecidableEq Key] in
theorem Filled.isWarmingUp {history : Option (History Key Frame)} (filled : Filled policy history) :
    policy.isWarmingUp history = false := by
  cases history with
  | none => rfl
  | some history =>
    have full := filled history rfl
    rw [Rldx1.isWarmingUp, List.any_eq_false]
    intro key known
    rw [(full.sound key).filled (full.filled key known), decide_eq_true_eq]
    exact Nat.lt_irrefl _

theorem Filled.prepare {history : Option (History Key Frame)} {batch : Batch Key Frame Other}
    (filled : Filled policy history) (seeds : Seeds policy history batch) :
    Filled policy (policy.prepare history batch).1 := by
  unfold Rldx1.prepare
  split
  · exact filled
  · split
    · exact filled
    · cases history with
      | none => exact filled.record seeds
      | some history =>
        dsimp only
        split
        · exact filled
        · exact filled.record seeds

theorem Filled.selectQueued {rollout : Rollout Key Frame Action} {batch : Batch Key Frame Other}
    (filled : Filled policy rollout.history) (seeds : Seeds policy rollout.history batch) :
    Filled policy (policy.selectQueued rollout batch).1.history ∧ (policy.selectQueued rollout batch).2 ≠ .hold := by
  have prepared : Filled policy (policy.predictActionChunk rollout batch).1.history := filled.prepare seeds
  unfold Rldx1.selectQueued
  split
  · exact ⟨filled, fun same => by cases same⟩
  · split
    · next same =>
      rw [same] at prepared
      exact ⟨prepared, fun same => by cases same⟩
    · next same =>
      rw [same] at prepared
      split
      · exact ⟨prepared, fun same => by cases same⟩
      · exact ⟨prepared, fun same => by cases same⟩

theorem Filled.call {rollout : Rollout Key Frame Action} {call : Call Key Frame Other}
    (filled : Filled policy rollout.history) (seeded : Seeded policy rollout call) :
    Filled policy (policy.call rollout call).1.history ∧ (policy.call rollout call).2 ≠ .hold := by
  cases call with
  | reset => exact ⟨filled_none policy, fun same => by cases same⟩
  | predictActionChunk batch =>
    refine ⟨filled.prepare seeded, fun same => ?_⟩
    change (policy.predictActionChunk rollout batch).2.elim Outcome.raised Outcome.chunk = Outcome.hold at same
    cases predicted : (policy.predictActionChunk rollout batch).2 with
    | none =>
      rw [predicted] at same
      cases same
    | some actions =>
      rw [predicted] at same
      cases same
  | selectAction batch =>
    have recorded := filled.record seeded
    have seeds := seeds_record policy rollout.history batch
    unfold Rldx1.call Rldx1.selectAction
    dsimp only
    split
    · next same =>
      rw [same] at recorded
      exact ⟨recorded, fun same => by cases same⟩
    · next same =>
      rw [same] at recorded seeds
      rw [recorded.isWarmingUp, if_neg Bool.false_ne_true]
      exact Filled.selectQueued recorded seeds

/-- A run in which every history is made from frames that have tensors comes to no warm-up: it is full from its first frame
on, so no action is held back. -/
theorem call_never_holds (policy : Rldx1 Key Frame Other Action) (calls : List (Call Key Frame Other))
    (seeded : ∀ prior next, prior ++ [next] <+: calls → Seeded policy (policy.after prior) next) :
    policy.isWarmingUp (policy.after calls).history = false ∧
      ∀ prior next, prior ++ [next] <+: calls → (policy.call (policy.after prior) next).2 ≠ .hold := by
  have filled : Filled policy (policy.after calls).history ∧
      ∀ prior next, prior ++ [next] <+: calls → (policy.call (policy.after prior) next).2 ≠ .hold := by
    induction calls using List.reverseRecOn with
    | nil => exact ⟨filled_none policy, fun prior next none => absurd none (by simp)⟩
    | append_singleton calls call ih =>
      obtain ⟨filled, acts⟩ := ih fun prior next early => seeded prior next (early.trans (List.prefix_append _ _))
      have step := filled.call (seeded calls call List.prefix_rfl)
      rw [after_concat]
      refine ⟨step.1, fun prior next early => ?_⟩
      rcases List.prefix_concat_iff.mp early with whole | earlier
      · obtain ⟨rfl, same⟩ := List.append_inj' whole rfl
        cases same
        exact step.2
      · exact acts prior next earlier
  exact ⟨filled.1.isWarmingUp, filled.2⟩

/-- A policy that cannot convert one of the frames. -/
def strictPolicy : Rldx1 Bool Nat Unit Nat where
  videoLength := 2
  videoStride := 1
  nActionSteps := 2
  asFrameTensor := fun frame => if frame = 0 then none else some frame
  stack := fun frames => some frames.sum
  isMultiframe := fun _ => false
  getAction := fun batch => [(batch.views.map Prod.snd).sum, 100, 200]

/-- The frame that cannot be converted comes after the history is made. -/
theorem call_never_holds_strict :
    strictPolicy.isWarmingUp (strictPolicy.after [.selectAction ⟨[(true, 1), (false, 2)], ()⟩,
        .selectAction ⟨[(true, 3), (false, 0)], ()⟩]).history = false ∧
      ∀ prior next, prior ++ [next] <+: [.selectAction ⟨[(true, 1), (false, 2)], ()⟩,
          .selectAction ⟨[(true, 3), (false, 0)], ()⟩] →
        (strictPolicy.call (strictPolicy.after prior) next).2 ≠ .hold := by
  refine call_never_holds strictPolicy _ fun prior next early => ?_
  obtain ⟨rest, same⟩ := early
  rcases prior with _ | ⟨first, _ | ⟨second, more⟩⟩
  all_goals simp only [List.nil_append, List.cons_append, List.cons.injEq] at same
  · rw [same.1]
    intro _ _ _
    decide
  · rw [same.1, same.2.1]
    intro missing
    cases missing
  · simp at same

/-- A first call that raises at its second view leaves that one's deque empty, and the next call holds its action. -/
example : (strictPolicy.call (strictPolicy.after [.selectAction ⟨[(true, 1), (false, 0)], ()⟩])
    (.selectAction ⟨[(true, 1)], ()⟩)).2 = .hold := rfl

end PhysicalAiStudio.Policies.Vtc
